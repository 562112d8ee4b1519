import Mathlib
import TestSelection.Proofs.Registrations

/-!
Choices laid over settings. A command may choose a detector and a reference commit in place of those
of the settings. A choice that states something replaces what the settings set, and a choice that is
not given leaves it. A blank choice also replaces it, and so leaves the field unset; it comes to the
same as no choice exactly where the settings set nothing themselves.
-/

namespace TestSelection

namespace Selection

/-- A blank choice over a field that is set. -/
def Clears (choice field : Option String) : Prop :=
  (∃ text, choice = some text ∧ Text.IsBlankText text) ∧ ∃ core, Sets field core

/-- A choice, or none if it is blank. -/
def unlessBlank (choice : Option String) : Option String :=
  choice.filter fun text => (Text.stated? text).isSome

variable {choice field : Option String}

theorem unlessBlank_or :
    ((unlessBlank choice).or field).bind Text.stated? =
      (choice.bind Text.stated?).or (field.bind Text.stated?) := by
  cases choice with
  | none => rfl
  | some text =>
    cases h : Text.stated? text with
    | none => simp [unlessBlank, Option.filter, h]
    | some core => simp [unlessBlank, Option.filter, h]

/-- A field takes what the choice states, or else what it set before, unless the choice clears
it. -/
theorem choice_or_iff :
    (choice.or field).bind Text.stated? =
        (choice.bind Text.stated?).or (field.bind Text.stated?) ↔
      ¬ Clears choice field := by
  cases choice with
  | none => simp [Clears]
  | some text =>
    cases htext : Text.stated? text with
    | some core =>
      have hblank : ¬ Text.IsBlankText text := by
        rw [← Text.stated?_eq_none_iff, htext]
        exact Option.some_ne_none core
      simp [Clears, htext, hblank]
    | none =>
      have hblank : Text.IsBlankText text := Text.stated?_eq_none_iff.mp htext
      cases hfield : field.bind Text.stated? with
      | none => simp [Clears, ← sets_iff, htext, hfield]
      | some core => simp [Clears, ← sets_iff, htext, hblank, hfield]

end Selection

namespace Registry

variable {selection other : Selection}

/-- The built-in sources look at a selection for what it sets only. -/
theorem value_of_builtinRegistration {key : String} {factory : SourceFactory}
    (h : (key, factory) ∈ builtinRegistrations)
    (hreference : selection.referenceCommit? = other.referenceCommit?) :
    (factory selection).value = (factory other).value := by
  simp only [builtinRegistrations, List.mem_cons, Prod.mk.injEq, List.not_mem_nil, or_false] at h
  rcases h with ⟨_, rfl⟩ | ⟨_, rfl⟩ | ⟨_, rfl⟩
  · rfl
  · rfl
  · unfold diffSource
    rw [hreference]

theorem select_builtin_eq (hdetector : selection.detector? = other.detector?)
    (hreference : selection.referenceCommit? = other.referenceCommit?) :
    (builtin.select selection).value = (builtin.select other).value := by
  cases hkey : other.detector? with
  | some key =>
    cases hfactory : builtin.find? key with
    | none =>
      rw [select_of_unregistered (hdetector.trans hkey) hfactory,
        select_of_unregistered hkey hfactory]
    | some factory =>
      obtain ⟨before, after, hsplit, _⟩ := (Holds.builtin.reflects.find?_eq key factory).mp hfactory
      have hmem : (key, factory) ∈ builtinRegistrations := by
        rw [hsplit]
        simp
      rw [select_of_registered (hdetector.trans hkey) hfactory, select_of_registered hkey hfactory,
        value_of_builtinRegistration hmem hreference]
  | none =>
    cases hrevision : other.referenceCommit? with
    | some revision =>
      rw [select_of_reference (hdetector.trans hkey) (hreference.trans hrevision),
        select_of_reference hkey hrevision]
    | none =>
      rw [select_of_unset (hdetector.trans hkey) (hreference.trans hrevision),
        select_of_unset hkey hrevision]

end Registry

namespace CommandLine

section

variable {around : Surroundings} {invocation : Invocation} {found : FoundSettings}

/-- The source that a command comes to ask for changes, or why it comes to ask none. -/
def chosenSource (around : Surroundings) (invocation : Invocation) : Except Failure ChangeSource :=
  (startedSession around invocation).map fun session => session.selector.source

/-- The same command, its blank choices not given. -/
def withoutBlanks (invocation : Invocation) : Invocation :=
  { invocation with
    detector := Selection.unlessBlank invocation.detector
    referenceCommit := Selection.unlessBlank invocation.referenceCommit }

theorem chosenSource_of_found (h : foundSettings around invocation = .ok found) :
    chosenSource around invocation =
      (Registry.builtin.select (selectionOf invocation found.config)).value := by
  rw [chosenSource, startedSession_of_found h]
  cases (Registry.builtin.select (selectionOf invocation found.config)).value <;> rfl

theorem chosenSource_of_error {failure : Failure}
    (h : foundSettings around invocation = .error failure) :
    chosenSource around invocation = .error failure := by
  rw [chosenSource, startedSession_of_error h]
  rfl

/-- What a command chooses has no part in which settings it finds. -/
theorem foundSettings_withoutBlanks :
    foundSettings around (withoutBlanks invocation) = foundSettings around invocation := rfl

/-- A field of the selection takes what the command states for it, or else what the settings set,
unless a blank choice clears it. Where no field is cleared, a blank choice leads to the same source
as none. -/
theorem source_without_blank_choices (around : Surroundings) (invocation : Invocation) :
    (∀ found, foundSettings around invocation = .ok found →
      ((selectionOf invocation found.config).detector? =
          (invocation.detector.bind Text.stated?).or found.config.selection.detector? ↔
        ¬ Selection.Clears invocation.detector found.config.selection.detector) ∧
      ((selectionOf invocation found.config).referenceCommit? =
          (invocation.referenceCommit.bind Text.stated?).or
            found.config.selection.referenceCommit? ↔
        ¬ Selection.Clears invocation.referenceCommit found.config.selection.referenceCommit)) ∧
    ((∀ found, foundSettings around invocation = .ok found →
        ¬ Selection.Clears invocation.detector found.config.selection.detector ∧
        ¬ Selection.Clears invocation.referenceCommit found.config.selection.referenceCommit) →
      chosenSource around invocation = chosenSource around (withoutBlanks invocation)) := by
  refine ⟨fun found _ => ⟨Selection.choice_or_iff, Selection.choice_or_iff⟩, fun hkept => ?_⟩
  cases hfound : foundSettings around invocation with
  | error failure =>
    rw [chosenSource_of_error hfound,
      chosenSource_of_error (foundSettings_withoutBlanks.trans hfound)]
  | ok found =>
    obtain ⟨hdetector, hreference⟩ := hkept found hfound
    rw [chosenSource_of_found hfound,
      chosenSource_of_found (foundSettings_withoutBlanks.trans hfound)]
    exact Registry.select_builtin_eq
      ((Selection.choice_or_iff.mpr hdetector).trans Selection.unlessBlank_or.symm)
      ((Selection.choice_or_iff.mpr hreference).trans Selection.unlessBlank_or.symm)

end

/-!
A directory with settings that name the detector for comparisons with a revision.
-/

namespace ComparingShop

def settings : String := "version = 1\n[selection]\ndetector='diff'\n"

def surroundings : Surroundings where
  environment := []
  files := { nodes := [([Text.bytes "modgate.toml"], .file settings.toUTF8 false)] }
  input := []
  reader _ _ := Logged.pure (.error (.repository "no repository"))

def found : FoundSettings :=
  ⟨some "/modgate.toml", { version := 1, selection := ⟨some "diff", none⟩ }, []⟩

/-- To list changes, with a choice of the detector. -/
def listing (detector : Option String) : Invocation :=
  ⟨none, none, detector, none, some (.changes .text false)⟩

theorem foundSettings_listing (detector : Option String) :
    foundSettings surroundings (listing detector) = .ok found := by
  have hpath : settingsPath? surroundings (listing detector) = some "/modgate.toml" := by cbv
  have hfile : surroundings.files.isFile "/modgate.toml" := by cbv
  have hread : surroundings.files.readText "/modgate.toml" = .ok settings := by cbv
  have hparse : Config.parse settings =
      .ok ({ version := 1, selection := ⟨some "diff", none⟩ }, []) := by cbv
  rw [foundSettings_of_path hpath hfile]
  simp only [Config.load, hread, hparse]
  rfl

/-- A blank reference commit over settings that set none comes to the same as none. -/
theorem source_without_blank_choices_in_shop :
    let blank : Invocation := { listing none with referenceCommit := some "  " }
    chosenSource surroundings blank = chosenSource surroundings (listing none) := by
  intro blank
  have hfound : foundSettings surroundings blank = .ok found := foundSettings_listing none
  refine (source_without_blank_choices surroundings blank).2 fun other hother => ?_
  cases hfound.symm.trans hother
  constructor
  · rintro ⟨⟨text, htext, _⟩, _⟩
    cases htext
  · rintro ⟨_, core, text, htext, _⟩
    cases htext

/-- A blank detector over the one that the settings name leads to another source than no
detector. -/
theorem blank_detector_over_detector :
    parse [] ["changes", "--detector", ""] = .ok (listing (some "")) ∧
      chosenSource surroundings (listing (some "")) = .ok (.repository .unpushed) ∧
      withoutBlanks (listing (some "")) = listing none ∧
      chosenSource surroundings (listing none) = .ok (.repository (.revision "HEAD~1")) := by
  refine ⟨rfl, ?_, rfl, ?_⟩
  · rw [chosenSource_of_found (foundSettings_listing (some ""))]
    exact Registry.select_of_unset (by decide) rfl
  · rw [chosenSource_of_found (foundSettings_listing none)]
    have hdiff : Registry.builtin.find? Registry.diffKey = some Registry.diffSource := rfl
    have hkey : (selectionOf (listing none) found.config).detector? = some Registry.diffKey :=
      Registry.states_diffKey
    exact Registry.select_of_registered hkey hdiff

end ComparingShop

end CommandLine

end TestSelection
