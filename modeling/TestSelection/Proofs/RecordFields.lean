import TestSelection.Proofs.KeptValues
import TestSelection.Settings.Config

/-!
Records read field by field. A record whose entries have distinct names is read exactly if each of
its fields can be read and its other entries can be kept. What is read of it is made up of its
fields, each looked up by name, in whatever order the entries stand.
-/

namespace TestSelection

namespace Config

variable {α β : Type} {fields : List (Field α)} {field : Field α} {defaults decoded : α}
  {tree value : Tree} {entries : List (String × Tree)} {entry : String × Tree}
  {name expected : String}

theorem mapM_namedValue_table :
    (entries.map fun field => Entry.mk (.text field.1) field.2).mapM namedValue = .ok entries := by
  induction entries with
  | nil => rfl
  | cons first rest ih =>
    have hfirst : namedValue (.mk (.text first.1) first.2) = .ok first := rfl
    rw [List.map_cons, mapM_cons_of_ok hfirst, ih]
    rfl

theorem entriesOf_table : entriesOf expected (Tree.table entries) = .ok entries := by
  rw [Tree.table, entriesOf, mapM_namedValue_table]
  rfl

theorem eq_table_of_entriesOf (h : tree.WellFormed)
    (hentries : entriesOf expected tree = .ok entries) : tree = Tree.table entries := by
  cases h with
  | scalar value => cases hentries
  | sequence h => cases hentries
  | table hdistinct h =>
    rw [entriesOf_table] at hentries
    rw [Except.ok.inj hentries]

theorem fieldNamed_eq_none_iff : fieldNamed fields name = none ↔ name ∉ fields.map (·.name) := by
  simp [fieldNamed]

theorem mem_of_fieldNamed (h : fieldNamed fields name = some field) :
    field ∈ fields ∧ field.name = name :=
  ⟨List.mem_of_find?_eq_some h, by simpa using List.find?_some h⟩

/-- Under distinct names, a field is found by its name. -/
theorem fieldNamed_self (hnames : (fields.map (·.name)).Nodup) (h : field ∈ fields) :
    fieldNamed fields field.name = some field := by
  cases hfound : fieldNamed fields field.name with
  | none => exact absurd (List.mem_map_of_mem h) (fieldNamed_eq_none_iff.mp hfound)
  | some other =>
    obtain ⟨hother, hname⟩ := mem_of_fieldNamed hfound
    rw [List.inj_on_of_nodup_map hnames hother h hname]

theorem setField_of_none (h : fieldNamed fields entry.1 = none) :
    setField fields decoded entry = .ok decoded := by
  simp only [setField, h]

theorem setField_of_some (h : fieldNamed fields entry.1 = some field) :
    setField fields decoded entry = (field.read entry.2).map fun change => change decoded := by
  simp only [setField, h]

theorem keepOther_eq_ok_iff (h : entry.2.WellFormed) :
    keepOther fields entry = .ok () ↔
      (entry.1 ∉ fields.map (·.name) → Toml.Keepable entry.2) := by
  rw [← fieldNamed_eq_none_iff, ← Toml.keep_eq_ok_iff h]
  unfold keepOther
  split
  · next hnone => simp [hnone]
  · next hsome => simp [hsome]

/-- Reading the fields succeeds if each of them can be read. What has been read before plays no
part. -/
theorem exists_setFields_iff :
    (∃ decoded, entries.foldlM (setField fields) defaults = .ok decoded) ↔
      ∀ entry ∈ entries, ∀ field, fieldNamed fields entry.1 = some field →
        ∃ change, field.read entry.2 = .ok change := by
  induction entries generalizing defaults with
  | nil => simp [pure, Except.pure]
  | cons entry rest ih =>
    rw [List.forall_mem_cons]
    cases hfield : fieldNamed fields entry.1 with
    | none =>
      rw [foldlM_cons_of_ok (setField_of_none hfield), ih]
      simp
    | some field =>
      have hstep : setField fields defaults entry =
          (field.read entry.2).map fun change => change defaults :=
        setField_of_some hfield
      cases hread : field.read entry.2 with
      | error fault =>
        rw [hread] at hstep
        rw [foldlM_cons_of_error hstep]
        simp [hread]
      | ok change =>
        rw [hread] at hstep
        rw [foldlM_cons_of_ok hstep, ih]
        simp [hread]

theorem decodeRecord_eq_ok_iff (h : ∀ entry ∈ entries, entry.2.WellFormed) :
    decodeRecord expected fields defaults (Tree.table entries) = .ok decoded ↔
      entries.foldlM (setField fields) defaults = .ok decoded ∧
        ∀ entry ∈ entries, entry.1 ∉ fields.map (·.name) → Toml.Keepable entry.2 := by
  have hkept : entries.forM (keepOther fields) = .ok () ↔
      ∀ entry ∈ entries, entry.1 ∉ fields.map (·.name) → Toml.Keepable entry.2 :=
    forM_eq_ok_iff.trans (forall₂_congr fun entry hentry => keepOther_eq_ok_iff (h entry hentry))
  have hopen : decodeRecord expected fields defaults (Tree.table entries) =
      (entries.foldlM (setField fields) defaults).bind fun decoded =>
        (entries.forM (keepOther fields)).map fun _ => decoded := by
    rw [decodeRecord, entriesOf_table]
    rfl
  rw [hopen, ← hkept, bind_eq_ok_iff]
  constructor
  · rintro ⟨_, hset, hlast⟩
    obtain ⟨_, hkeep, rfl⟩ := map_eq_ok_iff.mp hlast
    exact ⟨hset, hkeep⟩
  · rintro ⟨hset, hkeep⟩
    exact ⟨decoded, hset, map_eq_ok_iff.mpr ⟨(), hkeep, rfl⟩⟩

theorem exists_decodeRecord_iff (hnames : (fields.map (·.name)).Nodup)
    (h : (Tree.table entries).WellFormed) :
    (∃ decoded, decodeRecord expected fields defaults (Tree.table entries) = .ok decoded) ↔
      (∀ field ∈ fields, ∀ value, entries.lookup field.name = some value →
        ∃ change, field.read value = .ok change) ∧
      ∀ entry ∈ entries, entry.1 ∉ fields.map (·.name) → Toml.Keepable entry.2 := by
  obtain ⟨hdistinct, hvalues⟩ := Tree.wellFormed_table_iff.mp h
  simp only [decodeRecord_eq_ok_iff hvalues, exists_and_right, exists_setFields_iff]
  refine and_congr_left fun _ => ⟨fun hread field hfield value hvalue => ?_,
    fun hread entry hentry field hfield => ?_⟩
  · exact hread (field.name, value) ((lookup_eq_some_iff_mem hdistinct).mp hvalue) field
      (fieldNamed_self hnames hfield)
  · obtain ⟨hfield, hname⟩ := mem_of_fieldNamed hfield
    refine hread field hfield entry.2 ?_
    rw [hname]
    exact (lookup_eq_some_iff_mem hdistinct).mpr hentry

/-- What an observer of the result sees of the field with a given name: the field alone decides it,
and where the record has no such entry, the defaults do. -/
structure Observes (fields : List (Field α)) (name : String) (get : α → β)
    (seen : Tree → Option β) : Prop where
  named : name ∈ fields.map (·.name)
  own : ∀ field ∈ fields, field.name = name → ∀ {value change}, value.WellFormed →
    field.read value = .ok change → ∀ a, seen value = some (get (change a))
  other : ∀ field ∈ fields, field.name ≠ name → ∀ {value change}, value.WellFormed →
    field.read value = .ok change → ∀ a, get (change a) = get a

variable {get : α → β} {seen : Tree → Option β}

theorem Observes.setField_of_ne (h : Observes fields name get seen) {next : α}
    (hvalue : entry.2.WellFormed) (hset : setField fields decoded entry = .ok next)
    (hne : entry.1 ≠ name) : get next = get decoded := by
  cases hfield : fieldNamed fields entry.1 with
  | none =>
    rw [setField_of_none hfield] at hset
    rw [Except.ok.inj hset]
  | some field =>
    obtain ⟨hmem, hname⟩ := mem_of_fieldNamed hfield
    rw [setField_of_some hfield] at hset
    obtain ⟨change, hread, rfl⟩ := map_eq_ok_iff.mp hset
    exact h.other field hmem (hname ▸ hne) hvalue hread decoded

theorem Observes.setField_self (h : Observes fields name get seen) {next : α}
    (hvalue : value.WellFormed) (hset : setField fields decoded (name, value) = .ok next) :
    seen value = some (get next) := by
  cases hfield : fieldNamed fields name with
  | none => exact absurd h.named (fieldNamed_eq_none_iff.mp hfield)
  | some field =>
    obtain ⟨hmem, hname⟩ := mem_of_fieldNamed hfield
    rw [setField_of_some hfield] at hset
    obtain ⟨change, hread, rfl⟩ := map_eq_ok_iff.mp hset
    exact h.own field hmem hname hvalue hread decoded

/-- After the fields of a record have been read, an observer sees what the record has under the
name, and the defaults if it has nothing there. -/
theorem Observes.setFields (h : Observes fields name get seen)
    (hdistinct : (entries.map (·.1)).Nodup) (hvalues : ∀ entry ∈ entries, entry.2.WellFormed)
    (hset : entries.foldlM (setField fields) defaults = .ok decoded) :
    get decoded = ((entries.lookup name).bind seen).getD (get defaults) := by
  induction entries generalizing defaults with
  | nil =>
    rw [← Except.ok.inj hset]
    rfl
  | cons entry rest ih =>
    obtain ⟨hfresh, hdistinct⟩ := List.nodup_cons.mp hdistinct
    obtain ⟨hvalue, hvalues⟩ := List.forall_mem_cons.mp hvalues
    cases hentry : setField fields defaults entry with
    | error fault =>
      rw [foldlM_cons_of_error hentry] at hset
      cases hset
    | ok next =>
      rw [foldlM_cons_of_ok hentry] at hset
      rw [ih hdistinct hvalues hset]
      obtain ⟨key, value⟩ := entry
      by_cases hkey : key = name
      · subst hkey
        have hnone : rest.lookup key = none := lookup_eq_none_iff_not_mem.mpr hfresh
        rw [hnone, List.lookup_cons_self, Option.bind_some, h.setField_self hvalue hentry]
        rfl
      · have hskip : ((key, value) :: rest).lookup name = rest.lookup name := by
          rw [List.lookup_cons, beq_false_of_ne (Ne.symm hkey)]
        rw [h.setField_of_ne hvalue hentry hkey, hskip]

theorem Observes.eq_of_decoded (h : Observes fields name get seen)
    (hentries : (Tree.table entries).WellFormed)
    (hdecoded : decodeRecord expected fields defaults (Tree.table entries) = .ok decoded) :
    get decoded = ((entries.lookup name).bind seen).getD (get defaults) := by
  obtain ⟨hdistinct, hvalues⟩ := Tree.wellFormed_table_iff.mp hentries
  exact h.setFields hdistinct hvalues ((decodeRecord_eq_ok_iff hvalues).mp hdecoded).1

theorem read_text_eq_ok_iff {put : String → α → α} {change : α → α} :
    (Field.text name expected put).read value = .ok change ↔
      ∃ content, value.text? = some content ∧ put content = change := by
  simp only [Field.text, map_eq_ok_iff, Tree.decodeText_eq_ok_iff]

/-- The observer of a field for a text, among fields for texts that it does not see. -/
theorem Observes.ofTexts {give : String → β} (hnamed : name ∈ fields.map (·.name))
    (h : ∀ field ∈ fields, ∃ expected put, field = .text field.name expected put ∧
      ∀ content a, get (put content a) = if field.name = name then give content else get a) :
    Observes fields name get fun value => value.text?.map give := by
  refine ⟨hnamed, fun field hfield hname value change _ hread a => ?_,
    fun field hfield hname value change _ hread a => ?_⟩
  · obtain ⟨expected, put, heq, hget⟩ := h field hfield
    rw [heq] at hread
    obtain ⟨content, htext, rfl⟩ := read_text_eq_ok_iff.mp hread
    rw [htext, hget, if_pos hname]
    rfl
  · obtain ⟨expected, put, heq, hget⟩ := h field hfield
    rw [heq] at hread
    obtain ⟨content, _, rfl⟩ := read_text_eq_ok_iff.mp hread
    rw [hget, if_neg hname]

end Config

end TestSelection
