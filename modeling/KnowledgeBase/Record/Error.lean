import KnowledgeBase.ArrayForm.Error
import KnowledgeBase.Json.Draft
import KnowledgeBase.Json.Printer

/-!
Why a written value cannot be read. A text that is not well formed is one cause; all others
say what a well-formed value has in a wrong place, and what was expected there.
-/

namespace KnowledgeBase

inductive ReadError where
  | malformed
  | missingField (name : String)
  | duplicateField (name : String)
  | unknownVariant (found : String) (known : List String)
  | invalidType (found expected : String)
  | invalidValue (found expected : String)
  | invalidLength (found : Nat) (expected : String)
  | array (error : ArrayError)
  | model (error : ModelError)
deriving DecidableEq

namespace ReadError

def message : ReadError → String
  | .malformed => "syntax"
  | .missingField name => s!"missing field `{name}`"
  | .duplicateField name => s!"duplicate field `{name}`"
  | .unknownVariant found known =>
      s!"unknown variant `{found}`, expected one of " ++
        ", ".intercalate (known.map fun name => s!"`{name}`")
  | .invalidType found expected => s!"invalid type: {found}, expected {expected}"
  | .invalidValue found expected => s!"invalid value: {found}, expected {expected}"
  | .invalidLength found expected => s!"invalid length {found}, expected {expected}"
  | .array e => e.message
  | .model e => e.message

end ReadError

/-- How an error names a value that it did not expect. -/
def Json.description : Json → String
  | .null => "null"
  | .bool value => s!"boolean `{value}`"
  | .int value => s!"integer `{value}`"
  | .float value => "floating point `" ++ Binary64.Layout.json.text value ++ "`"
  | .text value => "string " ++ Text.quoted value
  | .array _ => "sequence"
  | .object _ => "map"

namespace Draft

/-- The error for a draft of a wrong type. Only the start of an array or object is looked
at, so it is named even if it is not well formed further on. -/
def unexpected (draft : Draft) (expected : String) : ReadError :=
  match draft with
  | .leaf (some value) => .invalidType value.description expected
  | .leaf none => .malformed
  | .array _ _ => .invalidType "sequence" expected
  | .object _ _ => .invalidType "map" expected
  | .broken => .malformed

end Draft

end KnowledgeBase
