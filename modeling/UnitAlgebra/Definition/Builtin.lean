import UnitAlgebra.Definition.Table

/-!
# The built-in table

The units and prefixes that are known without a table of one's own.
-/

namespace UnitAlgebra
namespace DefinitionTable

/-- A unit with a multiplier. -/
def direct (name : String) (value : Float) : String × Definition Float :=
  (name, .multiplier value)

/-- A unit that is a product of named units. -/
def productOf (name : String) (numerator : List String) : String × Definition Float :=
  (name, .composed ⟨some numerator, none⟩)

/-- A unit that is the inverse of a product of named units. -/
def inverseOf (name : String) (denominator : List String) : String × Definition Float :=
  (name, .composed ⟨none, some denominator⟩)

/-- A unit that is a quotient of products of named units. -/
def quotientOf (name : String) (numerator denominator : List String) :
    String × Definition Float :=
  (name, .composed (Composition.ofSides numerator denominator))

/-- The table of common units. -/
def builtin : DefinitionTable Float where
  prefixes :=
    [("giga-", 1e9), ("mega-", 1e6), ("kilo-", 1000), ("centi-", 0.01), ("milli-", 0.001),
     ("micro-", 1e-6), ("G-", 1e9), ("M-", 1e6), ("k-", 1000), ("c-", 0.01), ("m-", 0.001)]
  dimensions :=
    [{ name := "dimensionless"
       units :=
         [direct "dimensionless" 1] },
     { name := "length"
       units :=
         [direct "meter" 1, direct "m" 1, direct "inch" 0.0254, direct "foot" 0.3048,
          direct "ft" 0.3048, direct "yard" 0.9144, direct "mile" 1609.344,
          direct "nautical_mile" 1852] },
     { name := "mass"
       units :=
         [direct "gram" 1, direct "g" 1, direct "tonne" 1e6, direct "pound" 453.59237,
          direct "lb" 453.59237] },
     { name := "time"
       units :=
         [direct "second" 1, direct "s" 1, direct "minute" 60, direct "hour" 3600,
          direct "day" 86400, direct "week" 604800] },
     { name := "temperature"
       units :=
         [direct "kelvin" 1, direct "K" 1, direct "rankine" 0.5555555555555556] },
     { name := "current"
       units :=
         [direct "ampere" 1, direct "A" 1] },
     { name := "power"
       units :=
         [direct "watt" 1, direct "W" 1, direct "horsepower" 745.6998715822702] },
     { name := "currency"
       units :=
         [direct "GBP" 1, direct "pence" 0.01] },
     { name := "energy"
       units :=
         [productOf "joule" ["watt", "second"], productOf "J" ["watt", "second"],
          productOf "watt_hour" ["watt", "hour"], productOf "Wh" ["watt", "hour"],
          productOf "kWh" ["kW", "hour"], productOf "MWh" ["MW", "hour"]] },
     { name := "frequency"
       units :=
         [inverseOf "Hz" ["second"], inverseOf "rpm" ["minute"]] },
     { name := "speed"
       units :=
         [quotientOf "mph" ["mile"] ["hour"], quotientOf "kph" ["km"] ["hour"]] },
     { name := "electric_potential"
       units :=
         [quotientOf "volt" ["watt"] ["ampere"], quotientOf "V" ["watt"] ["ampere"]] }]

end DefinitionTable
end UnitAlgebra
