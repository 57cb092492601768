import UnitAlgebra.Error
import UnitAlgebra.Json.Text

/-!
# Error reports

An error report carries code, message and suggestion of an error as texts, so that it can be sent
as JSON and read back by a program that knows nothing about units.
-/

namespace UnitAlgebra

/-- The texts of an error. -/
structure ErrorReport where
  /-- Code of the error. -/
  code : String
  /-- Message of the error. -/
  message : String
  /-- What can be done about it. -/
  suggestion : Option String
  deriving DecidableEq, Repr

/-- The report of an error. -/
def UnitError.report (error : UnitError) : ErrorReport :=
  ⟨error.code, error.message, error.suggestion?⟩

namespace ErrorReport

/-- A report in one line. -/
def display (report : ErrorReport) : String :=
  let advice := match report.suggestion with
    | some suggestion => s!" (suggestion: {suggestion})"
    | none => ""
  s!"[{report.code}] {report.message}" ++ advice

/-- A report as JSON; a missing suggestion is left out. -/
def toJson (report : ErrorReport) : Json :=
  let advice := match report.suggestion with
    | some suggestion => [("suggestion", .string suggestion)]
    | none => []
  .object ([("code", .string report.code), ("message", .string report.message)] ++ advice)

/-- The text in a field, or nothing if the field holds no text. -/
def text? : Json.Source → Option String
  | .string value => value
  | _ => none

/-- The text in an optional field, where `null` stands for no text. -/
def optionalText? : Json.Source → Option (Option String)
  | .null => some none
  | .string (some value) => some (some value)
  | _ => none

/-- The trees that an object gives for a key. -/
def fields (entries : List (Option String × Json.Source)) (key : String) : List Json.Source :=
  (entries.filter fun entry => entry.1 == some key).map Prod.snd

/--
Read a report from an object or from a list of its three fields in order.  Fields of other names
are skipped whatever they hold, and no field of a report may be repeated.
-/
def ofSource? : Json.Source → Option ErrorReport
  | .array [code, message, suggestion] => do
      return ⟨← text? code, ← text? message, ← optionalText? suggestion⟩
  | .object entries =>
      if entries.all fun entry => entry.1.isSome then
        match fields entries "code", fields entries "message", fields entries "suggestion" with
        | [code], [message], [] => do return ⟨← text? code, ← text? message, none⟩
        | [code], [message], [suggestion] => do
            return ⟨← text? code, ← text? message, ← optionalText? suggestion⟩
        | _, _, _ => none
      else
        none
  | _ => none

/-- Read a report from JSON text. -/
def ofText? (text : String) : Option ErrorReport := do
  let source ← Json.Source.ofText? text
  ofSource? source

end ErrorReport
end UnitAlgebra
