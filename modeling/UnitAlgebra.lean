import UnitAlgebra.Definition.Builtin
import UnitAlgebra.Definition.Interchange
import UnitAlgebra.Error.Report
import UnitAlgebra.Expression.Evaluation
import UnitAlgebra.Proofs.Expression.Phrase
import UnitAlgebra.Proofs.Expression.Word
import UnitAlgebra.Proofs.PhysicalValue
import UnitAlgebra.Quantity.Rounding
import UnitAlgebra.Registry.Resolution
import UnitAlgebra.Text.Quoted
import UnitAlgebra.Value.Interchange
import UnitAlgebra.Proofs.Decimal.Literal
import UnitAlgebra.Proofs.Expression.Postfix
import UnitAlgebra.Proofs.Expression.Rendering
import UnitAlgebra.Proofs.Expression.Counting
import UnitAlgebra.Proofs.Expression.Recognition
import UnitAlgebra.Proofs.Expression.Acceptance
import UnitAlgebra.Proofs.Binary64.Parts
import UnitAlgebra.Proofs.Binary64.Nearest
import UnitAlgebra.Proofs.Decimal.Nearest
import UnitAlgebra.Proofs.Decimal.Shortest
import UnitAlgebra.Proofs.Decimal.Display
import UnitAlgebra.Proofs.Scalar
import UnitAlgebra.Proofs.CanonicalSide
import UnitAlgebra.Proofs.Reduction
import UnitAlgebra.Proofs.Catalogue
import UnitAlgebra.Proofs.Assembly
import UnitAlgebra.Proofs.Expression.Invariance
import UnitAlgebra.Proofs.Expression.Spelling
import UnitAlgebra.Proofs.Display
import UnitAlgebra.Proofs.Registration
import UnitAlgebra.Proofs.PlainNames
import UnitAlgebra.Proofs.CanonicalOrder
import UnitAlgebra.Proofs.Unnamed
import UnitAlgebra.Proofs.Commutation
import UnitAlgebra.Proofs.Exponent
import UnitAlgebra.Proofs.Reachability
import UnitAlgebra.Proofs.Association
import UnitAlgebra.Proofs.Undoing
import UnitAlgebra.Proofs.Event
import UnitAlgebra.Proofs.Expression.Worth
import UnitAlgebra.Proofs.Loading
import UnitAlgebra.Proofs.Denotation
import UnitAlgebra.Proofs.Explanation
import UnitAlgebra.Proofs.WellFormed
import UnitAlgebra.Proofs.Bookkeeping
import UnitAlgebra.Proofs.ReferenceUnit
import UnitAlgebra.Proofs.Request
import UnitAlgebra.Proofs.Completeness
import UnitAlgebra.Proofs.ComposedUnit
import UnitAlgebra.Proofs.AlignedUnits
import UnitAlgebra.Proofs.Mismatch
import UnitAlgebra.Proofs.Compatibility
import UnitAlgebra.Proofs.EqualUnits
import UnitAlgebra.Proofs.Quotient
import UnitAlgebra.Proofs.Comparison
import UnitAlgebra.Proofs.RoundedComparison
import UnitAlgebra.Proofs.Elements
import UnitAlgebra.Proofs.BareUnit
import UnitAlgebra.Proofs.Renaming
import UnitAlgebra.Proofs.Shortcut
import UnitAlgebra.Proofs.Power
import UnitAlgebra.Proofs.EvenCancellation
import UnitAlgebra.Proofs.Reordering
import UnitAlgebra.Proofs.Binary64.Rounded
import UnitAlgebra.Proofs.Binary64.Arithmetic
import UnitAlgebra.Proofs.Binary64.Multiplier
import UnitAlgebra.Proofs.FactorRange
import UnitAlgebra.Proofs.Binary64.PowerOfTen
import UnitAlgebra.Proofs.Binary64.Places
import UnitAlgebra.Proofs.RoundedPlaces
import UnitAlgebra.Proofs.Json.Library
import UnitAlgebra.Proofs.Json.Number
import UnitAlgebra.Proofs.Json.Token
import UnitAlgebra.Proofs.Json.Source
import UnitAlgebra.Proofs.WrittenTable
