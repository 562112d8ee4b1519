import Mathlib
import TestSelection.Proofs.GraphDescriptions

/-!
Documents that describe no modules. A key that nobody knows, a module without a name, and a value
that lists no texts in the place of a list spoil the whole document, wherever they stand in it, and
so do two lists of modules.
-/

namespace TestSelection

namespace ModuleSpec

/-- A value that lists no texts: a record, a scalar that does not stand for an empty list, or a
sequence with a record in it. -/
inductive Unlisted : Tree → Prop
  | record (entries : List Entry) (whole : Bool) : Unlisted (.record entries whole)
  | scalar {value : Scalar} (h : value.blank = false) : Unlisted (.scalar value)
  | item {items : List Tree} {whole : Bool} {entries : List Entry} {inner : Bool}
      (hitem : .record entries inner ∈ items) : Unlisted (.sequence items whole)

/-- The entries of a record that describes no module. -/
inductive Defective (entries : List Entry) : Prop
  | unknown {entry : Entry} (hentry : entry ∈ entries)
      (h : ∀ name ∈ fieldNames, entry.key ≠ .text name)
  | nameless (h : ∀ entry ∈ entries, entry.key ≠ .text "name")
  | unlisted {entry : Entry} {name : String} (hentry : entry ∈ entries) (hname : name ∈ listNames)
      (hkey : entry.key = .text name) (h : Unlisted entry.value)

variable {value : Tree} {entry : Entry} {entries : List Entry} {name : String}
  {read next : Partial}

theorem Unlisted.exists_fault (h : Unlisted value) : ∃ fault, value.decodeTexts = .error fault := by
  cases h with
  | record entries whole => exact ⟨_, rfl⟩
  | @scalar value h =>
    exact ⟨.unexpected value.found "a sequence", by simp [Tree.decodeTexts, Tree.decodeList, h]⟩
  | item hitem => exact exists_error_of_bind (exists_error_of_mapM hitem ⟨_, rfl⟩)

theorem exists_fault_of_once {α : Type} {given : Option α} {value : Except DocumentFault α}
    (h : ∃ fault, value = .error fault) : ∃ fault, once name given value = .error fault := by
  cases given with
  | none => exact h
  | some _ => exact ⟨_, rfl⟩

theorem exists_fault_of_unknown (h : ∀ name ∈ fieldNames, entry.key ≠ .text name)
    (read : Partial) : ∃ fault, read.setEntry entry = .error fault := by
  cases hkey : entry.key with
  | text name =>
    have hunknown : name ∉ fieldNames := fun hname => h name hname hkey
    rw [fieldNames, List.mem_cons, not_or] at hunknown
    exact ⟨.unknownField name fieldNames,
      by simp [Partial.setEntry, hkey, Partial.setField, hunknown]⟩
  | misfit found => exact ⟨.unexpected found "field identifier", by simp [Partial.setEntry, hkey]⟩
  | fault => exact ⟨.grammar, by simp [Partial.setEntry, hkey]⟩

theorem exists_fault_of_unlisted (hname : name ∈ listNames) (hkey : entry.key = .text name)
    (h : Unlisted entry.value) (read : Partial) : ∃ fault, read.setEntry entry = .error fault := by
  simp only [Partial.setEntry, hkey, Partial.setField, if_neg (ne_name_of_mem_listNames hname),
    if_pos hname]
  exact exists_error_of_map (exists_fault_of_once h.exists_fault)

/-- Only a field of that name sets the name. -/
theorem name_of_setEntry (hkey : entry.key ≠ .text "name") (hset : read.setEntry entry = .ok next) :
    next.name = read.name := by
  unfold Partial.setEntry at hset
  split at hset
  · next name hname =>
    unfold Partial.setField at hset
    split at hset
    · next heq => exact absurd (heq ▸ hname) hkey
    · split at hset
      · obtain ⟨texts, _, rfl⟩ := map_eq_ok_iff.mp hset
        rfl
      · cases hset
  · cases hset
  · cases hset

theorem name_of_setEntries (h : ∀ entry ∈ entries, entry.key ≠ .text "name")
    (hset : entries.foldlM Partial.setEntry read = .ok next) : next.name = read.name := by
  induction entries generalizing read with
  | nil => rw [← Except.ok.inj hset]
  | cons entry rest ih =>
    obtain ⟨hentry, hrest⟩ := List.forall_mem_cons.mp h
    cases hfirst : read.setEntry entry with
    | error fault =>
      rw [foldlM_cons_of_error hfirst] at hset
      cases hset
    | ok middle =>
      rw [foldlM_cons_of_ok hfirst] at hset
      rw [ih hrest hset, name_of_setEntry hentry hfirst]

theorem Defective.exists_fault (h : Defective entries) (whole : Bool) :
    ∃ fault, ofEntries entries whole = .error fault := by
  cases h with
  | unknown hentry h =>
    exact exists_error_of_bind (exists_error_of_bind
      (exists_error_of_foldlM hentry (exists_fault_of_unknown h)))
  | unlisted hentry hname hkey h =>
    exact exists_error_of_bind (exists_error_of_bind
      (exists_error_of_foldlM hentry (exists_fault_of_unlisted hname hkey h)))
  | nameless h =>
    unfold ofEntries
    cases hset : entries.foldlM Partial.setEntry {} with
    | error fault => exact ⟨fault, rfl⟩
    | ok next =>
      have hname : next.name = none := name_of_setEntries h hset
      cases whole with
      | false => exact ⟨.grammar, rfl⟩
      | true =>
        exact ⟨.missingField "name", by simp [Except.bind, Tree.closed, Partial.finish, hname]⟩

end ModuleSpec

namespace ModuleGraph

/-- The entries of a root that describes no modules. -/
inductive Defective (entries : List Entry) : Prop
  | unknown {entry : Entry} (hentry : entry ∈ entries)
      (h : entry.key ≠ .text "module" ∧ entry.key ≠ .text "modules")
  | both {first second : Entry} (hfirst : first ∈ entries) (hsecond : second ∈ entries)
      (hmodule : first.key = .text "module") (hmodules : second.key = .text "modules")
  | inModule {entry : Entry} {items : List Tree} {whole : Bool} {fields : List Entry} {inner : Bool}
      (hentry : entry ∈ entries) (hkey : entry.key = .text "module" ∨ entry.key = .text "modules")
      (hvalue : entry.value = .sequence items whole) (hitem : .record fields inner ∈ items)
      (h : ModuleSpec.Defective fields)

variable {entry : Entry} {entries : List Entry} {dialect : Dialect} {format : GraphFormat}
  {text : String} {given next : Option (List ModuleSpec)}

/-- Only the first entry of the root can be read, and it leaves a list. -/
theorem setEntry_eq_ok (h : setEntry dialect given entry = .ok next) :
    given = none ∧ next.isSome = true := by
  unfold setEntry at h
  split at h
  · split at h
    · obtain ⟨specs, hspecs, rfl⟩ := map_eq_ok_iff.mp h
      cases given with
      | none => exact ⟨rfl, rfl⟩
      | some _ => cases hspecs
    · cases h
  · cases h
  · cases h

theorem exists_fault_of_unknown (h : entry.key ≠ .text "module" ∧ entry.key ≠ .text "modules")
    (given : Option (List ModuleSpec)) : ∃ fault, setEntry dialect given entry = .error fault := by
  cases hkey : entry.key with
  | text name =>
    rw [hkey] at h
    have hunknown : ¬(name = "module" ∨ name = "modules") := by simpa using h
    exact ⟨.unknownField name ["module", "modules"], by simp [setEntry, hkey, hunknown]⟩
  | misfit found => exact ⟨.unexpected found "field identifier", by simp [setEntry, hkey]⟩
  | fault => exact ⟨.grammar, by simp [setEntry, hkey]⟩

theorem exists_fault_of_module {items : List Tree} {whole : Bool} {fields : List Entry}
    {inner : Bool} (hkey : entry.key = .text "module" ∨ entry.key = .text "modules")
    (hvalue : entry.value = .sequence items whole) (hitem : .record fields inner ∈ items)
    (h : ModuleSpec.Defective fields) (given : Option (List ModuleSpec)) :
    ∃ fault, setEntry dialect given entry = .error fault := by
  have hspec : ∃ fault, ModuleSpec.ofTree dialect (.record fields inner) = .error fault :=
    h.exists_fault inner
  have hlist : ∃ fault, entry.value.decodeList (ModuleSpec.ofTree dialect) = .error fault := by
    rw [hvalue]
    exact exists_error_of_bind (exists_error_of_mapM hitem hspec)
  have hfault : ∃ fault, (ModuleSpec.once "modules" given
      (entry.value.decodeList (ModuleSpec.ofTree dialect))).map some = .error fault :=
    exists_error_of_map (ModuleSpec.exists_fault_of_once hlist)
  rcases hkey with hkey | hkey
  · simpa [setEntry, hkey] using hfault
  · simpa [setEntry, hkey] using hfault

/-- After one list of modules there is no place for another one. -/
theorem exists_fault_of_two {first second : Entry} (hfirst : first ∈ entries)
    (hsecond : second ∈ entries) (hne : first ≠ second) :
    ∃ fault, entries.foldlM (setEntry dialect) none = .error fault := by
  match entries with
  | [] => cases hfirst
  | [only] =>
    exact absurd ((List.mem_singleton.mp hfirst).trans (List.mem_singleton.mp hsecond).symm) hne
  | one :: two :: rest =>
    cases hone : setEntry dialect none one with
    | error fault => exact ⟨fault, foldlM_cons_of_error hone⟩
    | ok given =>
      rw [foldlM_cons_of_ok hone]
      cases htwo : setEntry dialect given two with
      | error fault => exact ⟨fault, foldlM_cons_of_error htwo⟩
      | ok next =>
        have hsome := (setEntry_eq_ok hone).2
        rw [(setEntry_eq_ok htwo).1] at hsome
        cases hsome

theorem Defective.exists_fault (h : Defective entries) (whole : Bool) :
    ∃ fault, specsOfTree dialect (.record entries whole) = .error fault := by
  have hread : ∃ fault, entries.foldlM (setEntry dialect) none = .error fault := by
    cases h with
    | unknown hentry h => exact exists_error_of_foldlM hentry (exists_fault_of_unknown h)
    | both hfirst hsecond hmodule hmodules =>
      refine exists_fault_of_two hfirst hsecond fun heq => ?_
      rw [heq, hmodules] at hmodule
      simp at hmodule
    | inModule hentry hkey hvalue hitem h =>
      exact exists_error_of_foldlM hentry (exists_fault_of_module hkey hvalue hitem h)
  exact exists_error_of_map (exists_error_of_bind hread)

theorem parse_of_defective {whole : Bool}
    (hroot : (format.document text).root = .record entries whole) (h : Defective entries) :
    ∃ fault, parse format text = .error (.graphDocument fault) := by
  obtain ⟨fault, hfault⟩ :
      ∃ fault, (format.document text).read (specsOfTree format.dialect) = .error fault := by
    rw [Document.read, hroot]
    exact exists_error_of_bind (h.exists_fault whole)
  exact ⟨fault, by rw [parse, ofDocument, hfault]⟩

/-- A document that describes modules gives the graph that they declare, or the fault in their
declarations, whatever its notation. One with a defect gives no graph but a fault of the graph. -/
theorem parse_of_document :
    (∀ specs format text tree, GraphFormat.document format text = ⟨tree, true⟩ →
      Describes specs tree → parse format text = (ofSpecs specs).mapError .graphDeclarations) ∧
    ∀ format text entries whole, (GraphFormat.document format text).root = .record entries whole →
      Defective entries → ∃ fault, parse format text = .error fault ∧
        ∃ rest, fault.message = "module graph: " ++ rest := by
  refine ⟨fun specs format text tree => parse_of_describes, ?_⟩
  intro format text entries whole hroot h
  obtain ⟨fault, hfault⟩ := parse_of_defective hroot h
  exact ⟨.graphDocument fault, hfault, fault.message, rfl⟩

/-!
The same two modules in two notations, under either name of their list, and a module without a name.
-/

namespace NotationShop

def specs : List ModuleSpec := [⟨"app", ["a"], [], ["core"]⟩, ⟨"core", [], [], []⟩]

def headed : String :=
  "[[module]]\nname='app'\npackages=['a']\ndepends-on=['core']\n[[module]]\nname='core'\n"

def nested : String :=
  "\x7b\"modules\":[\x7b\"depends-on\":[\"core\"],\"packages\":[\"a\"],\"name\":\"app\"\x7d," ++
    "\x7b\"name\":\"core\",\"packages\":[]\x7d]\x7d"

def nameless : String := "[[module]]\npackages=['a']\n"

def texts (contents : List String) : Tree := .sequence (contents.map .ofText) true

def headedFields : List (String × Tree) :=
  [("module", .sequence
    [.table [("name", .ofText "app"), ("packages", texts ["a"]), ("depends-on", texts ["core"])],
      .table [("name", .ofText "core")]] true)]

def nestedFields : List (String × Tree) :=
  [("modules", .sequence
    [.table [("depends-on", texts ["core"]), ("packages", texts ["a"]), ("name", .ofText "app")],
      .table [("name", .ofText "core"), ("packages", texts [])]] true)]

theorem lists_texts (contents : List String) :
    (texts contents).Lists ModuleSpec.GivesText contents := by
  refine .items ?_
  rw [List.forall₂_map_right_iff]
  exact List.forall₂_same.mpr fun _ _ => rfl

theorem describes_headed : Describes specs (.table headedFields) := by
  refine .listed (.inl rfl) (.items (.cons ⟨_, rfl, ?_⟩ (.cons ⟨_, rfl, ?_⟩ .nil)))
  · exact ⟨by decide, by decide, rfl, lists_texts ["a"], rfl, lists_texts ["core"]⟩
  · exact ⟨by decide, by decide, rfl, rfl, rfl, rfl⟩

theorem describes_nested : Describes specs (.table nestedFields) := by
  refine .listed (.inr rfl) (.items (.cons ⟨_, rfl, ?_⟩ (.cons ⟨_, rfl, ?_⟩ .nil)))
  · exact ⟨by decide, by decide, rfl, lists_texts ["a"], rfl, lists_texts ["core"]⟩
  · exact ⟨by decide, by decide, rfl, lists_texts [], rfl, rfl⟩

theorem parse_of_document_in_shop :
    parse .toml headed = (ofSpecs specs).mapError .graphDeclarations ∧
      parse .json nested = (ofSpecs specs).mapError .graphDeclarations ∧
      ∃ fault, parse .toml nameless = .error fault ∧
        ∃ rest, fault.message = "module graph: " ++ rest := by
  have hheaded : GraphFormat.document .toml headed = ⟨.table headedFields, true⟩ := by cbv
  have hnested : GraphFormat.document .json nested = ⟨.table nestedFields, true⟩ := by cbv
  have hnameless : (GraphFormat.document .toml nameless).root =
      .table [("module", .sequence [.table [("packages", texts ["a"])]] true)] := by
    cbv
  refine ⟨parse_of_document.1 _ _ _ _ hheaded describes_headed,
    parse_of_document.1 _ _ _ _ hnested describes_nested,
    parse_of_document.2 _ _ _ _ hnameless ?_⟩
  exact .inModule (List.mem_singleton.mpr rfl) (.inl rfl) rfl (List.mem_singleton.mpr rfl)
    (.nameless (by decide))

end NotationShop

end ModuleGraph

end TestSelection
