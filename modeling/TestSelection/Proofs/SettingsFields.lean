import TestSelection.Proofs.RecordFields

/-!
What the fields of a settings document settle. A section can be read if it is a table, its known
keys have texts and its other values can be kept. What is read of a document is made up of its known
keys, each by itself: a section that is left out, or a key, gives the default.
-/

namespace TestSelection

def Tree.integer? : Tree → Option Int
  | .scalar ⟨_, _, .integer value⟩ => some value
  | _ => none

namespace Config

/-- The entries of a section. A section that is left out has none. -/
def sectionOf (fields : List (String × Tree)) (name : String) : List (String × Tree) :=
  ((fields.lookup name).map Tree.fields).getD []

/-- The text under a key of a section. -/
def textIn (entries : List (String × Tree)) (key : String) : Option String :=
  (entries.lookup key).bind Tree.text?

def selectionIn (entries : List (String × Tree)) : Selection where
  detector := textIn entries "detector"
  referenceCommit := textIn entries "reference-commit"

def layoutIn (entries : List (String × Tree)) : LayoutSettings where
  mainMarker := (textIn entries "main-marker").getD SourceLayout.defaultMain
  testMarker := (textIn entries "test-marker").getD SourceLayout.defaultTest
  suffix := (textIn entries "suffix").getD SourceLayout.defaultSuffix

/-- The settings that the known keys of a document make up. -/
def configOf (fields : List (String × Tree)) : Config where
  version := supportedVersion
  selection := selectionIn (sectionOf fields "selection")
  layout := layoutIn (sectionOf fields "layout")
  graphPath := textIn (sectionOf fields "graph") "path"

variable {fields entries : List (String × Tree)} {tree value : Tree} {name : String}

section Sections

variable {α : Type} {known : List (Field α)} {defaults decoded : α} {put : α → Config → Config}

theorem sectionOf_of_some (h : fields.lookup name = some value) :
    sectionOf fields name = value.fields := by
  simp [sectionOf, h]

theorem sectionOf_of_none (h : fields.lookup name = none) : sectionOf fields name = [] := by
  simp [sectionOf, h]

/-- What holds of no entries and of those of any table under the name holds of a section. -/
theorem sectionOf_induction {P : List (String × Tree) → Prop} (hnil : P [])
    (h : ∀ value, fields.lookup name = some value → P value.fields) :
    P (sectionOf fields name) := by
  cases hvalue : fields.lookup name with
  | none => rwa [sectionOf_of_none hvalue]
  | some value =>
    rw [sectionOf_of_some hvalue]
    exact h value hvalue

theorem isTable_of_decodeRecord {expected : String} (h : tree.WellFormed)
    (hdecoded : decodeRecord expected known defaults tree = .ok decoded) : tree.IsTable := by
  obtain ⟨entries, hentries, _⟩ := bind_eq_ok_iff.mp hdecoded
  exact ⟨entries, eq_table_of_entriesOf h hentries⟩

/-- A section in which the given keys are known can be read. -/
structure SectionAccepted (keys : List String) (value : Tree) : Prop where
  table : value.IsTable
  texts : ∀ key ∈ keys, ∀ text, value.fields.lookup key = some text → text.text?.isSome
  others : ∀ entry ∈ value.fields, entry.1 ∉ keys → Toml.Keepable entry.2

theorem exists_read_section_iff (hnames : (known.map (·.name)).Nodup)
    (htexts : ∀ field ∈ known, ∃ expected put, field = .text field.name expected put)
    (h : value.WellFormed) :
    (∃ change, (sectionField name known defaults put).read value = .ok change) ↔
      SectionAccepted (known.map (·.name)) value := by
  have hread {field : Field α} (hfield : field ∈ known) {text : Tree} :
      (∃ change, field.read text = .ok change) ↔ text.text?.isSome := by
    obtain ⟨expected, put, heq⟩ := htexts field hfield
    rw [heq, Option.isSome_iff_exists]
    simp only [Field.text, exists_map_eq_ok_iff, Tree.decodeText_eq_ok_iff]
  simp only [sectionField, exists_map_eq_ok_iff]
  constructor
  · rintro ⟨decoded, hdecoded⟩
    obtain ⟨entries, rfl⟩ := isTable_of_decodeRecord h hdecoded
    obtain ⟨hfields, hothers⟩ := (exists_decodeRecord_iff hnames h).mp ⟨decoded, hdecoded⟩
    refine ⟨⟨entries, rfl⟩, ?_, by rwa [Tree.fields_table]⟩
    rw [Tree.fields_table, List.forall_mem_map]
    exact fun field hfield text htext => (hread hfield).mp (hfields field hfield text htext)
  · rintro ⟨⟨entries, rfl⟩, hkeys, hothers⟩
    rw [Tree.fields_table] at hkeys hothers
    rw [List.forall_mem_map] at hkeys
    exact (exists_decodeRecord_iff hnames h).mpr
      ⟨fun field hfield text htext => (hread hfield).mpr (hkeys field hfield text htext), hothers⟩

theorem texts_selection :
    ∀ field ∈ selectionFields, ∃ expected put, field = .text field.name expected put := by
  simp only [selectionFields, List.forall_mem_cons]
  exact ⟨⟨_, _, rfl⟩, ⟨_, _, rfl⟩, by simp⟩

theorem texts_layout :
    ∀ field ∈ layoutFields, ∃ expected put, field = .text field.name expected put := by
  simp only [layoutFields, List.forall_mem_cons]
  exact ⟨⟨_, _, rfl⟩, ⟨_, _, rfl⟩, ⟨_, _, rfl⟩, by simp⟩

theorem texts_graph :
    ∀ field ∈ graphFields, ∃ expected put, field = .text field.name expected put := by
  simp only [graphFields, List.forall_mem_cons]
  exact ⟨⟨_, _, rfl⟩, by simp⟩

theorem observes_detector :
    Observes selectionFields "detector" Selection.detector fun value => value.text?.map some := by
  refine .ofTexts (by decide) ?_
  simp only [selectionFields, List.forall_mem_cons]
  exact ⟨⟨_, _, rfl, fun _ _ => rfl⟩, ⟨_, _, rfl, fun _ _ => rfl⟩, by simp⟩

theorem observes_referenceCommit :
    Observes selectionFields "reference-commit" Selection.referenceCommit
      fun value => value.text?.map some := by
  refine .ofTexts (by decide) ?_
  simp only [selectionFields, List.forall_mem_cons]
  exact ⟨⟨_, _, rfl, fun _ _ => rfl⟩, ⟨_, _, rfl, fun _ _ => rfl⟩, by simp⟩

theorem observes_layoutField (name : String) (get : LayoutSettings → String)
    (h : (name, get) ∈ [("main-marker", LayoutSettings.mainMarker),
      ("test-marker", LayoutSettings.testMarker), ("suffix", LayoutSettings.suffix)]) :
    Observes layoutFields name get fun value => value.text?.map id := by
  simp only [List.mem_cons, Prod.mk.injEq, List.not_mem_nil, or_false] at h
  rcases h with ⟨rfl, rfl⟩ | ⟨rfl, rfl⟩ | ⟨rfl, rfl⟩
  all_goals
    refine .ofTexts (by decide) ?_
    simp only [layoutFields, List.forall_mem_cons]
    exact ⟨⟨_, _, rfl, fun _ _ => rfl⟩, ⟨_, _, rfl, fun _ _ => rfl⟩, ⟨_, _, rfl, fun _ _ => rfl⟩,
      by simp⟩

theorem observes_path : Observes graphFields "path" id fun value => value.text?.map some := by
  refine .ofTexts (by decide) ?_
  simp only [graphFields, List.forall_mem_cons]
  exact ⟨⟨_, _, rfl, fun _ _ => rfl⟩, by simp⟩

/-- A text field that is seen through `give` shows the text under its key. -/
theorem Observes.text_eq {β : Type} {get : α → β} {give : String → β} {expected : String}
    (h : Observes known name get fun value => value.text?.map give)
    (hentries : (Tree.table entries).WellFormed)
    (hdecoded : decodeRecord expected known defaults (Tree.table entries) = .ok decoded) :
    get decoded = ((textIn entries name).map give).getD (get defaults) := by
  rw [h.eq_of_decoded hentries hdecoded, textIn, Option.map_bind]
  rfl

theorem getD_map_some (text : Option String) : (text.map some).getD none = text := by
  cases text <;> rfl

theorem decode_selection {selection : Selection} (h : (Tree.table entries).WellFormed)
    (hdecoded : decodeRecord "struct Flexible" selectionFields {} (Tree.table entries) =
      .ok selection) : selection = selectionIn entries := by
  have hdetector := (observes_detector.text_eq h hdecoded).trans (getD_map_some _)
  have hreference := (observes_referenceCommit.text_eq h hdecoded).trans (getD_map_some _)
  calc selection = ⟨selection.detector, selection.referenceCommit⟩ := rfl
    _ = selectionIn entries := by rw [hdetector, hreference, selectionIn]

theorem decode_layout {layout : LayoutSettings} (h : (Tree.table entries).WellFormed)
    (hdecoded : decodeRecord "struct Flexible" layoutFields {} (Tree.table entries) =
      .ok layout) : layout = layoutIn entries := by
  have hmain := (observes_layoutField "main-marker" _ (.head _)).text_eq h hdecoded
  have htest := (observes_layoutField "test-marker" _ (.tail _ (.head _))).text_eq h hdecoded
  have hsuffix := (observes_layoutField "suffix" _ (.tail _ (.tail _ (.head _)))).text_eq h hdecoded
  rw [Option.map_id] at hmain htest hsuffix
  calc layout = ⟨layout.mainMarker, layout.testMarker, layout.suffix⟩ := rfl
    _ = layoutIn entries := by rw [hmain, htest, hsuffix, layoutIn]; rfl

theorem decode_path {path : Option String} (h : (Tree.table entries).WellFormed)
    (hdecoded : decodeRecord "struct Flexible" graphFields none (Tree.table entries) = .ok path) :
    path = textIn entries "path" :=
  (observes_path.text_eq h hdecoded).trans (getD_map_some _)

end Sections

section Root

theorem decodeInteger_eq_ok_iff {version : Int} :
    decodeInteger tree = .ok version ↔ tree.integer? = some version := by
  unfold decodeInteger Tree.integer?
  split <;> simp

/-- What a field of the root changes when it is read. -/
theorem change_of_rootField {field : Field Config} {change : Config → Config}
    (hfield : field ∈ rootFields) (h : value.WellFormed) (hread : field.read value = .ok change) :
    (field.name = "version" ∧ ∃ version, value.integer? = some version ∧
        change = fun config => { config with version := version }) ∨
      (field.name = "selection" ∧
        change = fun config => { config with selection := selectionIn value.fields }) ∨
      (field.name = "layout" ∧
        change = fun config => { config with layout := layoutIn value.fields }) ∨
      field.name = "graph" ∧
        change = fun config => { config with graphPath := textIn value.fields "path" } := by
  simp only [rootFields, List.mem_cons, List.not_mem_nil, or_false] at hfield
  rcases hfield with rfl | rfl | rfl | rfl
  · obtain ⟨version, hversion, rfl⟩ := map_eq_ok_iff.mp hread
    exact .inl ⟨rfl, version, decodeInteger_eq_ok_iff.mp hversion, rfl⟩
  · obtain ⟨selection, hdecoded, rfl⟩ := map_eq_ok_iff.mp hread
    obtain ⟨entries, rfl⟩ := isTable_of_decodeRecord h hdecoded
    rw [Tree.fields_table, decode_selection h hdecoded]
    exact .inr (.inl ⟨rfl, rfl⟩)
  · obtain ⟨layout, hdecoded, rfl⟩ := map_eq_ok_iff.mp hread
    obtain ⟨entries, rfl⟩ := isTable_of_decodeRecord h hdecoded
    rw [Tree.fields_table, decode_layout h hdecoded]
    exact .inr (.inr (.inl ⟨rfl, rfl⟩))
  · obtain ⟨path, hdecoded, rfl⟩ := map_eq_ok_iff.mp hread
    obtain ⟨entries, rfl⟩ := isTable_of_decodeRecord h hdecoded
    rw [Tree.fields_table, decode_path h hdecoded]
    exact .inr (.inr (.inr ⟨rfl, rfl⟩))

section Observers

variable {β : Type} {get : Config → β} {seen : Tree → Option β}

theorem observes_root (hnamed : name ∈ rootFields.map (·.name))
    (h : ∀ field ∈ rootFields, ∀ {value change}, value.WellFormed →
      field.read value = .ok change → ∀ config,
        if field.name = name then seen value = some (get (change config))
        else get (change config) = get config) :
    Observes rootFields name get seen := by
  refine ⟨hnamed, fun field hfield hname value change hvalue hread config => ?_,
    fun field hfield hname value change hvalue hread config => ?_⟩
  · simpa [hname] using h field hfield hvalue hread config
  · simpa [hname] using h field hfield hvalue hread config

theorem observes_version : Observes rootFields "version" Config.version Tree.integer? := by
  refine observes_root (by decide) fun field hfield value change hvalue hread config => ?_
  rcases change_of_rootField hfield hvalue hread with
    ⟨hname, version, hversion, rfl⟩ | ⟨hname, rfl⟩ | ⟨hname, rfl⟩ | ⟨hname, rfl⟩
  · simp [hname, hversion]
  all_goals simp [hname]

theorem observes_selection :
    Observes rootFields "selection" Config.selection fun value =>
      some (selectionIn value.fields) := by
  refine observes_root (by decide) fun field hfield value change hvalue hread config => ?_
  rcases change_of_rootField hfield hvalue hread with
    ⟨hname, _, _, rfl⟩ | ⟨hname, rfl⟩ | ⟨hname, rfl⟩ | ⟨hname, rfl⟩ <;> simp [hname]

theorem observes_layout :
    Observes rootFields "layout" Config.layout fun value => some (layoutIn value.fields) := by
  refine observes_root (by decide) fun field hfield value change hvalue hread config => ?_
  rcases change_of_rootField hfield hvalue hread with
    ⟨hname, _, _, rfl⟩ | ⟨hname, rfl⟩ | ⟨hname, rfl⟩ | ⟨hname, rfl⟩ <;> simp [hname]

theorem observes_graphPath :
    Observes rootFields "graph" Config.graphPath fun value =>
      some (textIn value.fields "path") := by
  refine observes_root (by decide) fun field hfield value change hvalue hread config => ?_
  rcases change_of_rootField hfield hvalue hread with
    ⟨hname, _, _, rfl⟩ | ⟨hname, rfl⟩ | ⟨hname, rfl⟩ | ⟨hname, rfl⟩ <;> simp [hname]

/-- What a section gives; a section that is left out gives the defaults. -/
theorem getD_lookup_section (read : List (String × Tree) → β) :
    ((fields.lookup name).bind fun value => some (read value.fields)).getD (read []) =
      read (sectionOf fields name) := by
  cases h : fields.lookup name with
  | none => simp [sectionOf_of_none h]
  | some value => simp [sectionOf_of_some h]

end Observers

/-- The settings read of a document are those that its known keys make up. -/
theorem config_of_decoded {config : Config} (h : (Tree.table fields).WellFormed)
    (hversion : (fields.lookup "version").bind Tree.integer? = some supportedVersion)
    (hdecoded : decodeRecord "struct FlexibleConfig" rootFields {} (Tree.table fields) =
      .ok config) : config = configOf fields := by
  have hnumber : config.version = supportedVersion := by
    rw [observes_version.eq_of_decoded h hdecoded, hversion]
    rfl
  have hselection :=
    (observes_selection.eq_of_decoded h hdecoded).trans (getD_lookup_section selectionIn)
  have hlayout :=
    (observes_layout.eq_of_decoded h hdecoded).trans (getD_lookup_section layoutIn)
  have hpath :=
    (observes_graphPath.eq_of_decoded h hdecoded).trans (getD_lookup_section (textIn · "path"))
  calc config = ⟨config.version, config.selection, config.layout, config.graphPath⟩ := rfl
    _ = configOf fields := by rw [hnumber, hselection, hlayout, hpath, configOf]

theorem exists_decode_root_iff (h : (Tree.table fields).WellFormed) :
    (∃ config, decodeRecord "struct FlexibleConfig" rootFields {} (Tree.table fields) =
        .ok config) ↔
      (∀ value, fields.lookup "version" = some value → value.integer?.isSome) ∧
      (∀ part ∈ knownSections, ∀ value, fields.lookup part.1 = some value →
        SectionAccepted part.2 value) ∧
      ∀ field ∈ fields, field.1 ∉ "version" :: knownSections.map (·.1) →
        Toml.Keepable field.2 := by
  have hsection {α : Type} {name : String} {known : List (Field α)} {defaults : α}
      {put : α → Config → Config} (hnames : (known.map (·.name)).Nodup)
      (htexts : ∀ field ∈ known, ∃ expected put, field = .text field.name expected put) :
      (∀ value, fields.lookup name = some value →
          ∃ change, (sectionField name known defaults put).read value = .ok change) ↔
        ∀ value, fields.lookup name = some value → SectionAccepted (known.map (·.name)) value :=
    forall₂_congr fun value hlookup =>
      exists_read_section_iff hnames htexts (Tree.wellFormed_of_lookup h hlookup)
  rw [exists_decodeRecord_iff (by decide) h]
  refine Iff.trans ?_ and_assoc
  refine and_congr ?_ Iff.rfl
  simp only [rootFields, knownSections, List.forall_mem_cons, List.not_mem_nil, false_imp_iff,
    implies_true, and_true]
  refine and_congr (forall₂_congr fun value _ => ?_)
    (and_congr (hsection (by decide) texts_selection)
      (and_congr (hsection (by decide) texts_layout) (hsection (by decide) texts_graph)))
  simp only [exists_map_eq_ok_iff, decodeInteger_eq_ok_iff, Option.isSome_iff_exists]

end Root

end Config

end TestSelection
