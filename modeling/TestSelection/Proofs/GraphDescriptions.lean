import TestSelection.Module.Format
import TestSelection.Proofs.FallibleSteps
import TestSelection.Proofs.TreeTables

/-!
Documents that describe modules. A module is described by a table with its name and its lists, in
any order; a list without members may be left out. Whatever the notation of a document that
describes some modules, its graph is the one that these modules declare.
-/

namespace TestSelection

/-- A value that lists what is described: a sequence of it, or a blank in place of an empty one. -/
inductive Tree.Lists {α : Type} (describes : α → Tree → Prop) : List α → Tree → Prop
  | items {members : List α} {items : List Tree} (h : List.Forall₂ describes members items) :
      Lists describes members (.sequence items true)
  | blank {value : Scalar} (h : value.blank = true) : Lists describes [] (.scalar value)

theorem Tree.Lists.decodeList {α : Type} {describes : α → Tree → Prop} {members : List α}
    {tree : Tree} {decodeItem : Tree → Except DocumentFault α} (h : tree.Lists describes members)
    (hitem : ∀ member item, describes member item → decodeItem item = .ok member) :
    tree.decodeList decodeItem = .ok members := by
  cases h with
  | items h =>
    rw [Tree.decodeList, mapM_of_forall₂ h hitem]
    rfl
  | blank h => simp only [Tree.decodeList, h, if_true]

namespace ModuleSpec

def GivesText (content : String) (tree : Tree) : Prop := tree.text? = some content

/-- A field that lists texts. Without texts it may be left out. -/
def Listed (fields : List (String × Tree)) (name : String) (texts : List String) : Prop :=
  match fields.lookup name with
  | none => texts = []
  | some value => value.Lists GivesText texts

/-- The fields of a module, in any order. -/
structure DescribedBy (spec : ModuleSpec) (fields : List (String × Tree)) : Prop where
  distinct : (fields.map (·.1)).Nodup
  known : ∀ field ∈ fields, field.1 ∈ fieldNames
  name : (fields.lookup "name").bind Tree.text? = some spec.name
  packages : Listed fields "packages" spec.packages
  entities : Listed fields "entities" spec.entities
  dependencies : Listed fields "depends-on" spec.dependencies

def Describes (spec : ModuleSpec) (tree : Tree) : Prop :=
  ∃ fields, tree = .table fields ∧ spec.DescribedBy fields

variable {spec : ModuleSpec} {fields before rest : List (String × Tree)} {key : String}
  {value tree : Tree} {texts : List String} {read : Partial} {dialect : Dialect}

theorem decodeTexts_of_lists (h : value.Lists GivesText texts) : value.decodeTexts = .ok texts :=
  h.decodeList fun _ _ htext => Tree.decodeText_eq_ok_iff.mpr htext

theorem ne_name_of_mem_listNames (h : key ∈ listNames) : key ≠ "name" := by
  rintro rfl
  exact absurd h (by decide)

/-- What has been read of a module is what its fields so far give. -/
structure Partial.Holds (read : Partial) (before : List (String × Tree)) : Prop where
  name : read.name = (before.lookup "name").bind Tree.text?
  lists : ∀ name ∈ listNames,
    read.lists.lookup name = (before.lookup name).bind fun value => value.decodeTexts.toOption

/-- A field that can be read: the name with a text, or one of the lists. -/
inductive Readable : String → Tree → Prop
  | name {value : Tree} {content : String} (h : value.text? = some content) : Readable "name" value
  | list {name : String} {value : Tree} {texts : List String} (hname : name ∈ listNames)
      (h : value.decodeTexts = .ok texts) : Readable name value

theorem Partial.setField_name {content : String} (hnone : read.name = none)
    (htext : value.text? = some content) :
    read.setField "name" value = .ok { read with name := some content } := by
  simp [Partial.setField, hnone, once, Tree.decodeText_eq_ok_iff.mpr htext, Except.map]

theorem Partial.setField_list (hname : key ∈ listNames) (hnone : read.lists.lookup key = none)
    (htexts : value.decodeTexts = .ok texts) :
    read.setField key value = .ok { read with lists := read.lists ++ [(key, texts)] } := by
  have hne : key ≠ "name" := ne_name_of_mem_listNames hname
  simp [Partial.setField, hne, hname, hnone, once, htexts, Except.map]

/-- One more field is read into its own place and changes no other. -/
theorem Partial.Holds.setField (h : read.Holds before) (hfresh : before.lookup key = none)
    (hreadable : Readable key value) :
    ∃ next, read.setField key value = .ok next ∧ next.Holds (before ++ [(key, value)]) := by
  cases hreadable with
  | @name _ content htext =>
    have hnone : read.name = none := by
      rw [h.name, hfresh]
      rfl
    refine ⟨_, setField_name hnone htext, ?_, fun name hname => ?_⟩
    · rw [lookup_concat_self hfresh, Option.bind_some, htext]
    · rw [lookup_concat_of_ne (ne_name_of_mem_listNames hname), h.lists name hname]
  | @list _ _ texts hlist htexts =>
    have hnone : read.lists.lookup key = none := by
      rw [h.lists key hlist, hfresh]
      rfl
    refine ⟨_, setField_list hlist hnone htexts, ?_, fun name hname => ?_⟩
    · rw [lookup_concat_of_ne (ne_name_of_mem_listNames hlist).symm, h.name]
    · by_cases heq : name = key
      · subst heq
        rw [lookup_concat_self hnone, lookup_concat_self hfresh, Option.bind_some, htexts]
        rfl
      · rw [lookup_concat_of_ne heq, lookup_concat_of_ne heq, h.lists name hname]

/-- Fields with distinct names are read one after the other. -/
theorem Partial.Holds.setFields (h : read.Holds before)
    (hdistinct : ((before ++ rest).map (·.1)).Nodup)
    (hreadable : ∀ field ∈ rest, Readable field.1 field.2) :
    ∃ next, (rest.map fun field => Entry.mk (.text field.1) field.2).foldlM Partial.setEntry read =
        .ok next ∧ next.Holds (before ++ rest) := by
  induction rest generalizing before read with
  | nil => exact ⟨read, rfl, by rwa [List.append_nil]⟩
  | cons field rest ih =>
    obtain ⟨key, value⟩ := field
    obtain ⟨hfirst, hrest⟩ := List.forall_mem_cons.mp hreadable
    have hfresh : before.lookup key = none := by
      rw [List.map_append, List.nodup_append] at hdistinct
      refine lookup_eq_none_iff_not_mem.mpr fun hmem => ?_
      exact hdistinct.2.2 key hmem key (by simp) rfl
    obtain ⟨next, hset, hnext⟩ := h.setField hfresh hfirst
    have hentry : read.setEntry (.mk (.text key) value) = .ok next := hset
    rw [List.append_cons] at hdistinct ⊢
    rw [List.map_cons, foldlM_cons_of_ok hentry]
    exact ih hnext hdistinct hrest

theorem Partial.Holds.list_eq (h : read.Holds fields) (hname : key ∈ listNames)
    (hlisted : Listed fields key texts) : read.list key = texts := by
  unfold Listed at hlisted
  rw [Partial.list, h.lists key hname]
  cases hvalue : fields.lookup key with
  | none =>
    rw [hvalue] at hlisted
    exact hlisted.symm
  | some value =>
    rw [hvalue] at hlisted
    rw [Option.bind_some, decodeTexts_of_lists hlisted]
    rfl

theorem Partial.Holds.finish (h : read.Holds fields) (hspec : spec.DescribedBy fields) :
    read.finish = .ok spec := by
  have hname : read.name = some spec.name := h.name.trans hspec.name
  simp only [Partial.finish, hname, h.list_eq (by decide) hspec.packages,
    h.list_eq (by decide) hspec.entities, h.list_eq (by decide) hspec.dependencies]

theorem readable_of_listed (hdistinct : (fields.map (·.1)).Nodup) (hname : key ∈ listNames)
    (hlisted : Listed fields key texts) (hmem : (key, value) ∈ fields) : Readable key value := by
  unfold Listed at hlisted
  rw [(lookup_eq_some_iff_mem hdistinct).mpr hmem] at hlisted
  exact .list hname (decodeTexts_of_lists hlisted)

theorem DescribedBy.readable (h : spec.DescribedBy fields) :
    ∀ field ∈ fields, Readable field.1 field.2 := by
  rintro ⟨key, value⟩ hmem
  have hknown : key ∈ fieldNames := h.known (key, value) hmem
  change Readable key value
  simp only [fieldNames, listNames, List.mem_cons, List.not_mem_nil, or_false] at hknown
  rcases hknown with rfl | rfl | rfl | rfl
  · have hname := h.name
    rw [(lookup_eq_some_iff_mem h.distinct).mpr hmem] at hname
    exact .name hname
  · exact readable_of_listed h.distinct (by decide) h.packages hmem
  · exact readable_of_listed h.distinct (by decide) h.entities hmem
  · exact readable_of_listed h.distinct (by decide) h.dependencies hmem

/-- A table that describes a module is read as that module. -/
theorem ofTree_of_describes (h : spec.Describes tree) : ofTree dialect tree = .ok spec := by
  obtain ⟨fields, rfl, hspec⟩ := h
  have hstart : Partial.Holds {} [] := ⟨rfl, fun name _ => rfl⟩
  obtain ⟨next, hset, hnext⟩ := hstart.setFields hspec.distinct hspec.readable
  rw [Tree.table, ofTree, ofEntries, hset]
  exact hnext.finish hspec

end ModuleSpec

namespace ModuleGraph

/-- A document with the modules under either name of their list, or with nothing. -/
inductive Describes : List ModuleSpec → Tree → Prop
  | listed {specs : List ModuleSpec} {name : String} {value : Tree}
      (hname : name = "module" ∨ name = "modules") (h : value.Lists ModuleSpec.Describes specs) :
      Describes specs (.table [(name, value)])
  | empty : Describes [] (.table [])

variable {specs : List ModuleSpec} {tree : Tree} {dialect : Dialect} {format : GraphFormat}
  {text : String}

theorem specsOfTree_of_describes (h : Describes specs tree) :
    specsOfTree dialect tree = .ok specs := by
  cases h with
  | @listed _ name value hname h =>
    have hvalue : value.decodeList (ModuleSpec.ofTree dialect) = .ok specs :=
      h.decodeList fun _ _ => ModuleSpec.ofTree_of_describes
    have hentry : setEntry dialect none (.mk (.text name) value) = .ok (some specs) := by
      simp [setEntry, Entry.key, Entry.value, hname, ModuleSpec.once, hvalue, Except.map]
    rw [Tree.table, specsOfTree, specsOfEntries, List.map_singleton, foldlM_cons_of_ok hentry]
    rfl
  | empty => rfl

/-- A document that describes modules gives the graph that they declare, whatever its notation. -/
theorem parse_of_describes (hdocument : format.document text = ⟨tree, true⟩)
    (h : Describes specs tree) :
    parse format text = (ofSpecs specs).mapError .graphDeclarations := by
  have hread : (format.document text).read (specsOfTree format.dialect) = .ok specs := by
    rw [hdocument, Document.read, specsOfTree_of_describes h]
    rfl
  rw [parse, ofDocument, hread]
  cases hspecs : ofSpecs specs <;> simp [Except.mapError, hspecs]

end ModuleGraph

end TestSelection
