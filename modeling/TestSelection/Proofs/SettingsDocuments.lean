import Mathlib
import TestSelection.Proofs.SettingsFields

/-!
What a settings document settles. It is accepted exactly if its version is the supported one, each
section is left out or a table, each known key in a section has a text, and nothing under the other
keys pretends to be a date. The settings are then made up of the known keys alone. The other keys
are listed, and no two documents that differ in them only give different settings.
-/

namespace TestSelection

namespace Config

/-- The entries without a meaning: those of the root, and those of each section under its name. -/
def unrecognised (fields : List (String × Tree)) : List (String × Tree) :=
  (fields.filter fun field => field.1 ∉ "version" :: knownSections.map (·.1)) ++
    knownSections.flatMap fun part =>
      ((sectionOf fields part.1).filter fun field => field.1 ∉ part.2).map fun field =>
        (part.1 ++ "." ++ field.1, field.2)

/-- Each section of a document is left out or a table. -/
def HasSections (fields : List (String × Tree)) : Prop :=
  ∀ part ∈ knownSections, ∀ value, fields.lookup part.1 = some value → value.IsTable

/-- The values under the keys without a meaning can be kept. -/
def KeepsOthers (fields : List (String × Tree)) : Prop :=
  ∀ field ∈ unrecognised fields, Toml.Keepable field.2

structure Accepted (fields : List (String × Tree)) : Prop where
  version : (fields.lookup "version").bind Tree.integer? = some supportedVersion
  sections : HasSections fields
  texts : ∀ part ∈ knownSections, ∀ key ∈ part.2, ∀ value,
    (sectionOf fields part.1).lookup key = some value → value.text?.isSome
  others : KeepsOthers fields

/-- Two documents have the same values under the known keys. -/
structure SameKnown (fields others : List (String × Tree)) : Prop where
  version : fields.lookup "version" = others.lookup "version"
  values : ∀ part ∈ knownSections, ∀ key ∈ part.2,
    (sectionOf fields part.1).lookup key = (sectionOf others part.1).lookup key

variable {fields others : List (String × Tree)} {tree value : Tree} {name : String}

section Accepted

theorem keepsOthers_iff :
    KeepsOthers fields ↔
      (∀ field ∈ fields, field.1 ∉ "version" :: knownSections.map (·.1) →
        Toml.Keepable field.2) ∧
      ∀ part ∈ knownSections, ∀ entry ∈ sectionOf fields part.1, entry.1 ∉ part.2 →
        Toml.Keepable entry.2 := by
  unfold KeepsOthers unrecognised
  simp only [List.forall_mem_append, List.forall_mem_flatMap, List.forall_mem_map,
    List.mem_filter, decide_eq_true_eq, and_imp]

theorem accepted_iff (h : (Tree.table fields).WellFormed) :
    Accepted fields ↔
      (fields.lookup "version").bind Tree.integer? = some supportedVersion ∧
        ∃ config, decodeRecord "struct FlexibleConfig" rootFields {} (Tree.table fields) =
          .ok config := by
  rw [exists_decode_root_iff h]
  constructor
  · rintro ⟨hversion, hsections, htexts, hothers⟩
    obtain ⟨hroot, hinner⟩ := keepsOthers_iff.mp hothers
    refine ⟨hversion, fun value hvalue => ?_, fun part hpart value hvalue => ?_, hroot⟩
    · rw [hvalue, Option.bind_some] at hversion
      rw [hversion]
      rfl
    · have hentries := sectionOf_of_some hvalue
      exact ⟨hsections part hpart value hvalue, hentries ▸ htexts part hpart,
        hentries ▸ hinner part hpart⟩
  · rintro ⟨hversion, _, hsections, hroot⟩
    refine ⟨hversion, fun part hpart value hvalue => (hsections part hpart value hvalue).table,
      fun part hpart key hkey => ?_, keepsOthers_iff.mpr ⟨hroot, fun part hpart => ?_⟩⟩
    · refine sectionOf_induction (P := fun entries =>
        ∀ value, entries.lookup key = some value → value.text?.isSome) (by simp) ?_
      exact fun value hvalue => (hsections part hpart value hvalue).texts key hkey
    · refine sectionOf_induction (P := fun entries =>
        ∀ entry ∈ entries, entry.1 ∉ part.2 → Toml.Keepable entry.2) (by simp) ?_
      exact fun value hvalue => (hsections part hpart value hvalue).others

end Accepted

section Unknown

variable {entry : String × Tree} {part : String × List String}

/-- The names of the entries without a meaning in a section. -/
def unknownOf (part : String × List String) (entries : List (String × Tree)) : List String :=
  (entries.filter fun entry => entry.1 ∉ part.2).map fun entry => part.1 ++ "." ++ entry.1

theorem unknownIn_of_section (h : value.WellFormed) (hpart : part ∈ knownSections) :
    unknownIn (part.1, value) = unknownOf part value.fields := by
  have hname : part.1 ≠ "version" := by
    rintro heq
    exact absurd (heq ▸ List.mem_map_of_mem hpart) (by decide : "version" ∉ knownSections.map (·.1))
  have hknown : knownSections.lookup part.1 = some part.2 :=
    (lookup_eq_some_iff_mem (by decide)).mpr hpart
  simp only [unknownIn, if_neg hname, hknown]
  cases h with
  | scalar value => rfl
  | sequence h => rfl
  | table hdistinct h =>
    rw [entriesOf_table, Tree.fields_table, unknownOf]
    simp [List.filter_map, Function.comp_def]

theorem unknownIn_of_root (h : name ∉ "version" :: knownSections.map (·.1)) :
    unknownIn (name, value) = [name] := by
  rw [List.mem_cons, not_or] at h
  obtain ⟨hname, hsections⟩ := h
  simp only [unknownIn, if_neg hname, lookup_eq_none_iff_not_mem.mpr hsections]

/-- The names without a meaning that come of one entry of the root, its own or those in it. -/
theorem unknownIn_eq (h : entry.2.WellFormed) :
    unknownIn entry =
      (if entry.1 ∉ "version" :: knownSections.map (·.1) then [entry.1] else []) ++
        knownSections.flatMap fun part =>
          if part.1 = entry.1 then unknownOf part entry.2.fields else [] := by
  obtain ⟨key, value⟩ := entry
  by_cases hversion : key = "version"
  · subst hversion
    simp [unknownIn, knownSections]
  by_cases hsection : key ∈ knownSections.map (·.1)
  · obtain ⟨part, hpart, rfl⟩ := List.mem_map.mp hsection
    rw [unknownIn_of_section h hpart]
    simp only [knownSections, List.mem_cons, List.not_mem_nil, or_false] at hpart
    rcases hpart with rfl | rfl | rfl <;> simp [knownSections]
  · have hroot : key ∉ "version" :: knownSections.map (·.1) := by
      simp [hversion, hsection]
    have hnone : ∀ part ∈ knownSections, part.1 ≠ key :=
      fun part hpart heq => hsection (heq ▸ List.mem_map_of_mem hpart)
    rw [unknownIn_of_root hroot, if_pos hroot, List.flatMap_eq_nil_iff.mpr]
    · rfl
    · exact fun part hpart => if_neg (hnone part hpart)

theorem flatMap_flatMap_perm {α β γ : Type} {f : α → β → List γ} (left : List α) (right : List β) :
    (left.flatMap fun a => right.flatMap (f a)).Perm
      (right.flatMap fun b => left.flatMap fun a => f a b) := by
  induction right with
  | nil => simp
  | cons b right ih =>
    simp only [List.flatMap_cons]
    exact (List.flatMap_append_perm left _ _).symm.trans (ih.append_left _)

theorem flatMap_section_of_not_mem {read : List (String × Tree) → List String}
    (h : name ∉ fields.map (·.1)) :
    (fields.flatMap fun entry => if name = entry.1 then read entry.2.fields else []) = [] := by
  refine List.flatMap_eq_nil_iff.mpr fun entry hentry => if_neg ?_
  rintro rfl
  exact h (List.mem_map_of_mem hentry)

/-- Under distinct keys, one section is found in one place at most. -/
theorem flatMap_section (hdistinct : (fields.map (·.1)).Nodup)
    (read : List (String × Tree) → List String) (hnil : read [] = []) :
    (fields.flatMap fun entry => if name = entry.1 then read entry.2.fields else []) =
      read (sectionOf fields name) := by
  cases hvalue : fields.lookup name with
  | none =>
    rw [sectionOf_of_none hvalue, hnil,
      flatMap_section_of_not_mem (lookup_eq_none_iff_not_mem.mp hvalue)]
  | some value =>
    have hsection := sectionOf_of_some hvalue
    obtain ⟨before, after, rfl⟩ :=
      List.append_of_mem ((lookup_eq_some_iff_mem hdistinct).mp hvalue)
    rw [List.map_append, List.map_cons, List.nodup_middle, List.nodup_cons, List.mem_append,
      not_or] at hdistinct
    obtain ⟨⟨hbefore, hafter⟩, _⟩ := hdistinct
    rw [List.flatMap_append, List.flatMap_cons, flatMap_section_of_not_mem hbefore,
      flatMap_section_of_not_mem hafter, hsection]
    simp

theorem flatMap_root {P : String × Tree → Prop} [DecidablePred P] :
    (fields.flatMap fun entry => if P entry then [entry.1] else []) =
      (fields.filter fun entry => P entry).map (·.1) := by
  induction fields with
  | nil => rfl
  | cons entry rest ih => by_cases h : P entry <;> simp [h, ih]

/-- The names listed are those of the entries without a meaning, each as often as it is one. -/
theorem unknownKeys_perm (h : (Tree.table fields).WellFormed) :
    (unknownKeys fields).Perm ((unrecognised fields).map (·.1)) := by
  obtain ⟨hdistinct, hvalues⟩ := Tree.wellFormed_table_iff.mp h
  have hsections : (unrecognised fields).map (·.1) =
      (fields.flatMap fun entry =>
        if entry.1 ∉ "version" :: knownSections.map (·.1) then [entry.1] else []) ++
      knownSections.flatMap fun part => fields.flatMap fun entry =>
        if part.1 = entry.1 then unknownOf part entry.2.fields else [] := by
    rw [flatMap_root, unrecognised, List.map_append, List.map_flatMap]
    congr 1
    refine List.flatMap_congr fun part _ => ?_
    rw [flatMap_section hdistinct (unknownOf part) rfl, unknownOf, List.map_map]
    rfl
  have hentries := List.flatMap_congr fun entry hentry => unknownIn_eq (hvalues entry hentry)
  rw [unknownKeys, hsections, hentries]
  refine (List.mergeSort_perm _ _).trans ((List.flatMap_append_perm _ _ _).symm.trans ?_)
  exact (flatMap_flatMap_perm fields knownSections).append_left _

theorem pairwise_unknownKeys : (unknownKeys fields).Pairwise (· ≤ ·) :=
  Ascending.pairwise_mergeSort id String.le_trans String.le_total _

end Unknown

section Documents

variable {text : String} {config : Config} {unknown : List String}

theorem statedVersion_table :
    statedVersion (Tree.table fields) =
      match fields.lookup "version" with
      | none => .ok none
      | some value => (decodeInteger value).map some := by
  rw [statedVersion, entriesOf_table]
  rfl

theorem parse_of_read (h : Toml.read text = ⟨tree, true⟩) : parse text = ofTree tree := by
  simp only [parse, h, if_true]

theorem ofTree_of_unversioned (h : fields.lookup "version" = none) :
    ofTree (Tree.table fields) = .error .noVersion := by
  have hstated : statedVersion (Tree.table fields) = .ok none := by
    rw [statedVersion_table, h]
  simp only [ofTree, hstated]

theorem statedVersion_of_integer {version : Int}
    (h : (fields.lookup "version").bind Tree.integer? = some version) :
    statedVersion (Tree.table fields) = .ok (some version) := by
  obtain ⟨value, hvalue, hinteger⟩ := Option.bind_eq_some_iff.mp h
  rw [statedVersion_table, hvalue]
  exact map_eq_ok_iff.mpr ⟨version, decodeInteger_eq_ok_iff.mpr hinteger, rfl⟩

theorem ofTree_of_other_version {version : Int}
    (h : (fields.lookup "version").bind Tree.integer? = some version)
    (hversion : version ≠ supportedVersion) :
    ofTree (Tree.table fields) = .error (.unsupportedVersion version) := by
  simp only [ofTree, statedVersion_of_integer h, if_pos hversion]

/-- Under the supported version, the document is read as a whole. -/
theorem ofTree_eq_ok_iff :
    ofTree (Tree.table fields) = .ok (config, unknown) ↔
      (fields.lookup "version").bind Tree.integer? = some supportedVersion ∧
        decodeRecord "struct FlexibleConfig" rootFields {} (Tree.table fields) = .ok config ∧
        unknown = unknownKeys fields := by
  cases hversion : (fields.lookup "version").bind Tree.integer? with
  | some version =>
    by_cases hsupported : version = supportedVersion
    · subst hsupported
      simp only [ofTree, statedVersion_of_integer hversion, entriesOf_table]
      cases decodeRecord "struct FlexibleConfig" rootFields {} (Tree.table fields) <;>
        simp [Except.bind, Except.map, eq_comm]
    · rw [ofTree_of_other_version hversion hsupported]
      simp [hsupported]
  | none =>
    cases hvalue : fields.lookup "version" with
    | none =>
      rw [ofTree_of_unversioned hvalue]
      simp
    | some value =>
      cases hinteger : decodeInteger value with
      | ok version =>
        rw [hvalue, Option.bind_some, decodeInteger_eq_ok_iff.mp hinteger] at hversion
        cases hversion
      | error fault =>
        have hstated : statedVersion (Tree.table fields) = .error fault := by
          simp only [statedVersion_table, hvalue, hinteger]
          rfl
        simp [ofTree, hstated]

theorem exists_parse_iff (h : Toml.read text = ⟨Tree.table fields, true⟩)
    (hfields : (Tree.table fields).WellFormed) :
    (∃ config unknown, parse text = .ok (config, unknown)) ↔ Accepted fields := by
  rw [accepted_iff hfields, parse_of_read h]
  simp only [ofTree_eq_ok_iff]
  constructor
  · rintro ⟨config, unknown, hversion, hdecoded, _⟩
    exact ⟨hversion, config, hdecoded⟩
  · rintro ⟨hversion, config, hdecoded⟩
    exact ⟨config, _, hversion, hdecoded, rfl⟩

theorem parse_spec (h : Toml.read text = ⟨Tree.table fields, true⟩)
    (hfields : (Tree.table fields).WellFormed) (hparse : parse text = .ok (config, unknown)) :
    config = configOf fields ∧ unknown = unknownKeys fields := by
  rw [parse_of_read h, ofTree_eq_ok_iff] at hparse
  obtain ⟨hversion, hdecoded, hunknown⟩ := hparse
  exact ⟨config_of_decoded hfields hversion hdecoded, hunknown⟩

theorem SameKnown.configOf_eq (h : SameKnown fields others) :
    configOf fields = configOf others := by
  have hvalues := h.values
  simp only [knownSections, List.forall_mem_cons] at hvalues
  obtain ⟨⟨hdetector, hreference, _⟩, ⟨hmain, htest, hsuffix, _⟩, ⟨hpath, _⟩, _⟩ := hvalues
  simp only [configOf, selectionIn, layoutIn, textIn, hdetector, hreference, hmain, htest, hsuffix,
    hpath]

theorem SameKnown.accepted (h : SameKnown fields others) (haccepted : Accepted fields)
    (hsections : HasSections others) (hothers : KeepsOthers others) : Accepted others where
  version := h.version ▸ haccepted.version
  sections := hsections
  texts part hpart key hkey value hvalue :=
    haccepted.texts part hpart key hkey value ((h.values part hpart key hkey).trans hvalue)
  others := hothers

/-- A document is accepted exactly if its version is the supported one, its sections are tables,
their known keys have texts, and the other values can be kept. A version that is missing or another
one is reported before all else. The settings are those that the known keys make up, the other keys
are listed, and a document with the same values under the known keys gives the same settings. -/
theorem settled_by_known_keys (text : String) (hended : (Toml.read text).ended = true) :
    ∃ fields, (Toml.read text).root = Tree.table fields ∧ (Tree.table fields).WellFormed ∧
      ((∃ config unknown, parse text = .ok (config, unknown)) ↔ Accepted fields) ∧
      (fields.lookup "version" = none → parse text = .error .noVersion) ∧
      (∀ version, (fields.lookup "version").bind Tree.integer? = some version →
        version ≠ supportedVersion → parse text = .error (.unsupportedVersion version)) ∧
      ∀ config unknown, parse text = .ok (config, unknown) →
        config = configOf fields ∧ unknown.Perm ((unrecognised fields).map (·.1)) ∧
          unknown.Pairwise (· ≤ ·) ∧
        ∀ otherText others, Toml.read otherText = ⟨Tree.table others, true⟩ →
          SameKnown fields others → HasSections others → KeepsOthers others →
          ∃ otherUnknown, parse otherText = .ok (config, otherUnknown) := by
  obtain ⟨fields, hread, hfields⟩ := Toml.exists_table_of_ended hended
  have hopen := parse_of_read hread
  refine ⟨fields, by rw [hread], hfields, exists_parse_iff hread hfields,
    fun hversion => hopen.trans (ofTree_of_unversioned hversion),
    fun version hversion hother => hopen.trans (ofTree_of_other_version hversion hother),
    fun config unknown hparse => ?_⟩
  obtain ⟨hconfig, hunknown⟩ := parse_spec hread hfields hparse
  refine ⟨hconfig, ?_, ?_, fun otherText others hother hsame hsections hkept => ?_⟩
  · rw [hunknown]
    exact unknownKeys_perm hfields
  · rw [hunknown]
    exact pairwise_unknownKeys
  · have haccepted := (exists_parse_iff hread hfields).mp ⟨config, unknown, hparse⟩
    have hothers := Toml.wellFormed_of_read hother
    obtain ⟨otherConfig, otherUnknown, hotherParse⟩ :=
      (exists_parse_iff hother hothers).mpr (hsame.accepted haccepted hsections hkept)
    refine ⟨otherUnknown, ?_⟩
    rw [hotherParse, (parse_spec hother hothers hotherParse).1, hconfig, hsame.configOf_eq]

end Documents

/-- A date is a table for a section, with one key that has no meaning. A table that starts with the
name reserved for dates and is none is refused under any key. -/
theorem date_as_section :
    (Toml.read "version = 1\nselection=1979-05-27\n").root =
        Tree.table [("version", Toml.scalarOf (.integer 1)),
          ("selection", Toml.dateTree "1979-05-27".toList)] ∧
      parse "version = 1\nselection=1979-05-27\n" =
        .ok ({ version := 1 }, ["selection.$__toml_private_datetime"]) ∧
      parse "version = 1\nextra.\"$__toml_private_datetime\" = 2\n" =
        .error (.document (.unexpected (.integer 2) "string containing a datetime")) := by
  refine ⟨?_, ?_, ?_⟩ <;> cbv

/-!
Two documents that give the same suffix, the second one with more keys than that.
-/

namespace SuffixShop

def plain : String := "version = 1\n[layout]\nsuffix='.kt'\n"

def annotated : String :=
  "version = 1\nowners = ['a', 2]\n[layout]\nsuffix='.kt'\nsince = 1979-05-27\n"

def plainFields : List (String × Tree) :=
  [("version", Toml.scalarOf (.integer 1)), ("layout", .table [("suffix", .ofText ".kt")])]

def annotatedFields : List (String × Tree) :=
  [("version", Toml.scalarOf (.integer 1)),
    ("owners", .sequence [.ofText "a", Toml.scalarOf (.integer 2)] true),
    ("layout", .table [("suffix", .ofText ".kt"), ("since", Toml.dateTree "1979-05-27".toList)])]

def config : Config := { version := 1, layout := { suffix := ".kt" } }

theorem sameKnown : SameKnown plainFields annotatedFields where
  version := rfl
  values := by
    simp only [knownSections, List.forall_mem_cons]
    exact ⟨⟨rfl, rfl, by simp⟩, ⟨rfl, rfl, rfl, by simp⟩, ⟨rfl, by simp⟩, by simp⟩

theorem hasSections : HasSections annotatedFields := by
  simp only [HasSections, knownSections, List.forall_mem_cons]
  refine ⟨fun value hvalue => ?_, fun value hvalue => ?_, fun value hvalue => ?_, by simp⟩
  · cases hvalue
  · cases hvalue
    exact ⟨_, rfl⟩
  · cases hvalue

theorem keepsOthers : KeepsOthers annotatedFields := by
  have hothers : unrecognised annotatedFields =
      [("owners", .sequence [.ofText "a", Toml.scalarOf (.integer 2)] true),
        ("layout.since", Toml.dateTree "1979-05-27".toList)] := by
    cbv
  simp only [KeepsOthers, hothers, List.forall_mem_cons]
  refine ⟨.sequence ?_, .date rfl (by decide), by simp⟩
  simp only [List.forall_mem_cons]
  exact ⟨.scalar _, .scalar _, by simp⟩

theorem settled_by_known_keys_in_shop :
    parse plain = .ok (config, []) ∧ ∃ unknown, parse annotated = .ok (config, unknown) := by
  have hparse : parse plain = .ok (config, []) := by cbv
  have hread : Toml.read plain = ⟨.table plainFields, true⟩ := by cbv
  have hother : Toml.read annotated = ⟨.table annotatedFields, true⟩ := by cbv
  obtain ⟨fields, hroot, _, _, _, _, hsettled⟩ :=
    settled_by_known_keys plain (congrArg Document.ended hread)
  obtain rfl := Tree.table_injective ((congrArg Document.root hread).symm.trans hroot)
  exact ⟨hparse, (hsettled config [] hparse).2.2.2 annotated annotatedFields hother sameKnown
    hasSections keepsOthers⟩

end SuffixShop

end Config

end TestSelection
