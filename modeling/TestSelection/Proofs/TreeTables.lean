import TestSelection.Document.Tree
import TestSelection.Proofs.Lookups

/-!
Tables: records whose fields are named by texts and that are not cut off. Where the names of its
fields are distinct, a table is read by looking them up.
-/

namespace TestSelection

namespace Tree

/-- The whole record with the given fields. -/
def table (fields : List (String × Tree)) : Tree :=
  .record (fields.map fun field => .mk (.text field.1) field.2) true

theorem table_injective {fields others : List (String × Tree)} (h : table fields = table others) :
    fields = others := by
  refine List.map_injective_iff.mpr (fun a b heq => ?_) (Tree.record.inj h).1
  injection heq with hname hvalue
  exact Prod.ext (Key.text.inj hname) hvalue

/-- The entries of a record, by their names. -/
def fields : Tree → List (String × Tree)
  | .record entries _ => entries.filterMap fun entry =>
    match entry.key with
    | .text name => some (name, entry.value)
    | _ => none
  | _ => []

def IsTable (tree : Tree) : Prop := ∃ fields, tree = table fields

variable {tree : Tree} {entries : List (String × Tree)} {expected content : String}

@[simp] theorem fields_table : (table entries).fields = entries := by
  simp [table, fields, List.filterMap_map, Entry.key, Entry.value]

/-- The text that a scalar gives. -/
def text? : Tree → Option String
  | .scalar value => value.text
  | _ => none

theorem decodeText_eq_ok_iff :
    tree.decodeText expected = .ok content ↔ tree.text? = some content := by
  cases tree with
  | scalar value => cases h : value.text <;> simp [decodeText, text?, h]
  | sequence items whole => simp [decodeText, text?]
  | record entries whole => simp [decodeText, text?]
  | fault => simp [decodeText, text?]

end Tree

end TestSelection
