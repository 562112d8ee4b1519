import TestSelection.Text.Quoted

/-!
What can be wrong with a document that is read into a declaration: its text does not follow the
grammar of its format, or a value in it is not what stands in that place.
-/

namespace TestSelection

/-- A value as it is described where another one was expected. A number may be wider than 64 bits,
and a text may carry a tag of a kind that it does not have. -/
inductive Found
  | text (content : String)
  | integer (value : Int)
  | float (written : String)
  | boolean (value : Bool)
  | sequence
  | map
  | null
  | unit
  | wide (value : Int)
  | mistagged (content kind : String)
  deriving Repr, DecidableEq

def Found.description : Found → String
  | text content => "string " ++ Text.quoted content
  | integer value => s!"integer `{value}`"
  | float written => s!"floating point `{written}`"
  | boolean true => "boolean `true`"
  | boolean false => "boolean `false`"
  | sequence => "sequence"
  | map => "map"
  | null => "null"
  | unit => "unit value"
  | wide value => s!"integer `{value}` as " ++ (if value < 0 then "i128" else "u128")
  | mistagged content _ => "string " ++ Text.quoted content

inductive DocumentFault
  | grammar
  | unknownField (name : String) (known : List String)
  | missingField (name : String)
  | repeatedField (name : String)
  | unexpected (found : Found) (expected : String)
  | wrongLength (length : Nat) (expected : String)
  deriving Repr, DecidableEq

/-- The known fields of a record, each between backquotes. -/
def knownFields : List String → String
  | [] => "there are no fields"
  | [one] => s!"expected `{one}`"
  | [one, two] => s!"expected `{one}` or `{two}`"
  | many => "expected one of " ++ ", ".intercalate (many.map fun name => s!"`{name}`")

def DocumentFault.message : DocumentFault → String
  | grammar => "<syntax>"
  | unknownField name known => s!"unknown field `{name}`, {knownFields known}"
  | missingField name => s!"missing field `{name}`"
  | repeatedField name => s!"duplicate field `{name}`"
  | unexpected (.mistagged content kind) _ =>
    s!"invalid value: {(Found.mistagged content kind).description}, expected {kind}"
  | unexpected found expected => s!"invalid type: {found.description}, expected {expected}"
  | wrongLength length expected => s!"invalid length {length}, expected {expected}"

end TestSelection
