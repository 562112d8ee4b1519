import Mathlib
import TestSelection.Proofs.FallibleSteps
import TestSelection.Proofs.LinkFreeWalks
import TestSelection.Proofs.NearestSettings
import TestSelection.Session

/-!
The settings of a session against the directory that it inspects. The search follows the text of a
path: it leaves the last step out, whatever this step is. Where there are no links and none of the
steps that it leaves out are two dots, it goes through the directories around the inspected one, as
it is meant to. A step of two dots leads upwards, and to leave it out leads down again.
-/

namespace TestSelection

namespace Path

variable {place around : Location} {steps : List (List Char)} {step : List Char}

/-- Two dots. -/
def upward : List Char := ['.', '.']

/-- The steps lead nowhere above the place where they start. -/
def StaysBelow (steps : List (List Char)) : Prop :=
  ∀ before, before <+: steps → 2 * before.count upward ≤ before.length

theorem follow_upward (place : Location) : follow place upward = place.dropLast := rfl

theorem follow_of_ne (hdot : step ≠ ['.']) (hup : step ≠ upward) (place : Location) :
    follow place step = place ++ [Text.bytes (String.ofList step)] := by
  have hname {other : List Char} (hne : step ≠ other) :
      Text.bytes (String.ofList step) ≠ Text.bytes (String.ofList other) := by
    intro heq
    apply hne
    simpa using congrArg String.toList (Text.eq_of_bytes_eq heq)
  have hone : Text.bytes (String.ofList ['.']) = [FileSystem.dot] := by decide
  have htwo : Text.bytes (String.ofList upward) = [FileSystem.dot, FileSystem.dot] := by decide
  rw [follow, FileSystem.follow, if_neg (hone ▸ hname hdot), if_neg (htwo ▸ hname hup)]

/-- A step leads to a place right below, or to one around the place where it starts. -/
theorem prefix_or_concat_of_follow (place : Location) (step : List Char) :
    follow place step <+: place ∨ ∃ name, follow place step = place ++ [name] := by
  by_cases hdot : step = ['.']
  · rw [hdot]
    exact .inl List.prefix_rfl
  · by_cases hup : step = upward
    · rw [hup, follow_upward]
      left
      exact List.dropLast_prefix place
    · exact .inr ⟨_, follow_of_ne hdot hup place⟩

/-- Steps that lead from a place to one below it go through every place between the two. -/
theorem exists_take_of_between (hplace : place <+: around)
    (haround : around <+: steps.foldl follow place) (hne : around ≠ place) :
    ∃ count, 0 < count ∧ count ≤ steps.length ∧ (steps.take count).foldl follow place = around := by
  induction steps using List.reverseRecOn with
  | nil => exact absurd (haround.eq_of_length_le hplace.length_le) hne
  | append_singleton steps step ih =>
    rw [List.foldl_concat] at haround
    have hearlier (h : around <+: steps.foldl follow place) : ∃ count, 0 < count ∧
        count ≤ (steps ++ [step]).length ∧
        ((steps ++ [step]).take count).foldl follow place = around := by
      obtain ⟨count, hpos, hcount, heq⟩ := ih h
      refine ⟨count, hpos, by rw [List.length_append]; omega, ?_⟩
      rwa [List.take_append_of_le_length hcount]
    rcases prefix_or_concat_of_follow (steps.foldl follow place) step with hbegins | ⟨name, hname⟩
    · exact hearlier (haround.trans hbegins)
    · rw [hname] at haround
      rcases List.prefix_concat_iff.mp haround with heq | hbegins
      · refine ⟨(steps ++ [step]).length, by simp, Nat.le_refl _, ?_⟩
        rw [List.take_length, List.foldl_concat, hname, heq]
      · exact hearlier hbegins

theorem exists_append_of_staysBelow (place : Location) (hdot : ['.'] ∉ steps)
    (hstays : StaysBelow steps) :
    ∃ names, steps.foldl follow place = place ++ names ∧
      names.length + 2 * steps.count upward = steps.length := by
  induction steps using List.reverseRecOn with
  | nil => exact ⟨[], by simp, rfl⟩
  | append_singleton steps step ih =>
    have hearlier : StaysBelow steps := fun before hbefore =>
      hstays before (hbefore.trans (List.prefix_append _ _))
    obtain ⟨names, hnames, hlength⟩ := ih (fun hmem => hdot (List.mem_append_left _ hmem)) hearlier
    have hcount := hstays _ List.prefix_rfl
    rw [List.foldl_concat, hnames]
    rw [List.count_append, List.length_append] at hcount ⊢
    by_cases hup : step = upward
    · have hone : List.count upward [step] = 1 := by rw [hup]; exact List.count_singleton_self
      rw [hone, List.length_singleton] at hcount ⊢
      have hne : names ≠ [] := List.length_pos_iff.mp (by omega)
      refine ⟨names.dropLast, ?_, ?_⟩
      · rw [hup, follow_upward, List.dropLast_append_of_ne_nil hne]
      · rw [List.length_dropLast]
        omega
    · have hzero : List.count upward [step] = 0 := by simp [hup]
      have hstep : step ≠ ['.'] := fun heq => hdot (by simp [heq])
      refine ⟨names ++ [Text.bytes (String.ofList step)], ?_, ?_⟩
      · rw [follow_of_ne hstep hup, List.append_assoc]
      · rw [hzero, List.length_append, List.length_singleton, List.length_singleton]
        omega

/-- Steps of which none is two dots lead nowhere above. -/
theorem staysBelow_of_notMem (h : upward ∉ steps) : StaysBelow steps := by
  intro before hbefore
  rw [List.count_eq_zero_of_not_mem (fun hmem => h (hbefore.subset hmem))]
  exact Nat.zero_le _

theorem dot_notMem_stepsOf (text : List Char) : ['.'] ∉ stepsOf text := by
  simp [stepsOf]

end Path

namespace Settings

theorem isStep_fileName : Path.IsStep fileName.toList := by
  refine ⟨?_, ?_, ?_⟩ <;> decide

theorem isStep_repositoryName : Path.IsStep repositoryName.toList := by
  refine ⟨?_, ?_, ?_⟩ <;> decide

theorem plain_fileName : FileSystem.Plain (Text.bytes fileName) := by
  refine ⟨?_, ?_, ?_⟩ <;> decide

theorem plain_repositoryName : FileSystem.Plain (Text.bytes repositoryName) := by
  refine ⟨?_, ?_, ?_⟩ <;> decide

variable {files : FileSystem} {path directory : String} {place : Location} {count : Nat}

/-- Settings that are held by a directory above a path are in the place that its text names. -/
theorem locate_of_holdsSettings (hfree : files.LinkFree) (hlocate : files.locate path = .ok place)
    (habsolute : Path.isAbsolute path = true) (hplace : files.node? place = some .directory)
    (habove : Path.IsAbove path.toList directory.toList count)
    (hholds : HoldsSettings files directory) : files.locate (Path.join directory fileName) =
      .ok (Path.placeOf directory.toList ++ [Text.bytes fileName]) := by
  unfold HoldsSettings FileSystem.isFile FileSystem.find? at hholds
  cases hfile : files.locate (Path.join directory fileName) with
  | error fault =>
    rw [hfile] at hholds
    cases hholds
  | ok target =>
    have hlength := (FileSystem.bytes_of_locate hfile).2
    have hknown := FileSystem.locate_join_above hfree hlocate habsolute hplace habove
      isStep_fileName plain_fileName (by decide) hlength
    rw [← hfile, hknown]
    split at hknown
    · next hsome => rw [if_pos hsome]
    · rw [hfile] at hknown
      cases hknown

/-- A directory above a path that is seen to hold no repository holds none. -/
theorem node?_eq_none_of_not_holdsRepository (hfree : files.LinkFree)
    (hlocate : files.locate path = .ok place) (habsolute : Path.isAbsolute path = true)
    (hplace : files.node? place = some .directory)
    (hlength : (Text.bytes (Path.join path repositoryName)).length < FileSystem.pathLimit)
    (habove : Path.IsAbove path.toList directory.toList count)
    (hnone : ¬ HoldsRepository files directory) :
    files.node? (Path.placeOf directory.toList ++ [Text.bytes repositoryName]) = none := by
  have hshorter := habove.length_join_le habsolute isStep_repositoryName.isAbsolute_eq_false
  have hknown := FileSystem.locate_join_above hfree hlocate habsolute hplace habove
    isStep_repositoryName plain_repositoryName (by decide) (Nat.lt_of_le_of_lt hshorter hlength)
  cases hnode : files.node? (Path.placeOf directory.toList ++ [Text.bytes repositoryName]) with
  | none => rfl
  | some node =>
    rw [hnode, if_pos Option.isSome_some] at hknown
    apply absurd _ hnone
    rw [HoldsRepository, FileSystem.isPresent, FileSystem.find?, hknown]
    simp [hnode]

end Settings

namespace Session

section

variable {files : FileSystem} {invocation : Invocation} {directory : String} {session : Session}

theorem isAbsolute_rootOf (habsolute : Path.isAbsolute directory = true) :
    Path.isAbsolute (rootOf invocation directory) = true := by
  unfold rootOf
  split
  · exact Path.isAbsolute_join habsolute _
  · exact habsolute

theorem settingsPath_of_ofSettings {root : String} {found : FoundSettings}
    (h : (ofSettings invocation root found).value = .ok session) :
    session.settingsPath = found.path := by
  obtain ⟨source, _, rfl⟩ := map_eq_ok_iff.mp h
  rfl

/-- Without a settings file that is named, a session has the one that is found. -/
theorem settingsPath_of_start (hconfig : invocation.config = none)
    (hstart : (start files invocation directory).value = .ok session) :
    session.settingsPath = Settings.discover files (rootOf invocation directory) := by
  have hresolve : Settings.resolve files invocation.config (rootOf invocation directory) =
      .ok (Settings.discover files (rootOf invocation directory)) := by
    rw [hconfig]
    rfl
  simp only [start, Logged.bind, findSettings, hresolve] at hstart
  cases hdiscover : Settings.discover files (rootOf invocation directory) with
  | none =>
    simp only [hdiscover] at hstart
    exact settingsPath_of_ofSettings hstart
  | some path =>
    simp only [hdiscover] at hstart
    cases hload : Config.load files path with
    | error failure => simp [hload, Except.map, Logged.pure] at hstart
    | ok loaded =>
      simp only [hload, Except.map] at hstart
      exact settingsPath_of_ofSettings hstart

/-- Where there are no links, the settings that a session has found lie in a directory from which
the last steps of the inspected path lead to the inspected directory. If these steps do not lead
above the place where they start, it is the inspected directory or one around it; and none of the
directories between them, up to the inspected one, holds a repository. -/
theorem settings_around_root (files : FileSystem) (hfree : files.LinkFree) (invocation : Invocation)
    (hconfig : invocation.config = none) (directory : String)
    (habsolute : Path.isAbsolute directory = true) (place : Location)
    (hlocate : files.locate (rootOf invocation directory) = .ok place)
    (hplace : files.node? place = some .directory) (session : Session)
    (hstart : (start files invocation directory).value = .ok session) (path : String)
    (hpath : session.settingsPath = some path) :
    ∃ (holder : Location) (left : List (List Char)),
      left <:+ Path.stepsOf (rootOf invocation directory).toList ∧
      left.foldl Path.follow holder = place ∧
      files.locate path = .ok (holder ++ [Text.bytes Settings.fileName]) ∧
      (Path.StaysBelow left → holder <+: place) ∧
      ((Text.bytes (Path.join (rootOf invocation directory) Settings.repositoryName)).length <
          FileSystem.pathLimit →
        ∀ around, holder <+: around → around <+: place → around ≠ holder →
          files.node? (around ++ [Text.bytes Settings.repositoryName]) = none) := by
  have hroot : Path.isAbsolute (rootOf invocation directory) = true := isAbsolute_rootOf habsolute
  have hrooted := Path.rooted_of_isAbsolute hroot
  rw [settingsPath_of_start hconfig hstart, Settings.discover_eq_some_iff hrooted] at hpath
  obtain ⟨count, holder, habove, hholds, rfl, hpassed⟩ := hpath
  obtain ⟨left, hleft, hlength⟩ := habove.exists_stepsOf
  have hfollow : left.foldl Path.follow (Path.placeOf holder.toList) = place := by
    rw [FileSystem.eq_placeOf_of_locate hfree hlocate hroot, Path.placeOf, Path.placeOf, hleft,
      List.foldl_append]
  refine ⟨Path.placeOf holder.toList, left, ⟨_, hleft.symm⟩, hfollow, ?_, ?_, ?_⟩
  · exact Settings.locate_of_holdsSettings hfree hlocate hroot hplace habove hholds
  · intro hstays
    have hdot : ['.'] ∉ left := by
      intro hmem
      apply Path.dot_notMem_stepsOf
      rw [hleft]
      exact List.mem_append_right _ hmem
    obtain ⟨names, hnames, _⟩ :=
      Path.exists_append_of_staysBelow (Path.placeOf holder.toList) hdot hstays
    rw [← hfollow, hnames]
    exact List.prefix_append _ _
  · intro hshort around hholder haround hne
    rw [← hfollow] at haround
    obtain ⟨taken, hpos, htaken, heq⟩ := Path.exists_take_of_between hholder haround hne
    obtain ⟨between, hbetween, hsteps⟩ := Path.exists_isAbove_of_take hrooted hleft taken
    have hplaces : Path.placeOf between.toList = around := by
      rw [Path.placeOf, hsteps, List.foldl_append, ← heq]
      rfl
    have hunheld := (hpassed (left.length - taken) (by omega) between hbetween).2
    rw [← hplaces]
    exact Settings.node?_eq_none_of_not_holdsRepository hfree hlocate hroot hplace hshort hbetween
      hunheld

end

/-!
A directory of which a part has settings, and a directory in that part.
-/

namespace PartedShop

def files : FileSystem where
  nodes := [(["w"].map Text.bytes, .directory),
    (["w", "a"].map Text.bytes, .directory),
    (["w", "a", "modgate.toml"].map Text.bytes, .file "version = 1\n".toUTF8 false),
    (["w", "a", "b"].map Text.bytes, .directory)]

/-- To inspect the directory that `repo` names. -/
def inspecting (repo : String) : Invocation :=
  ⟨none, some repo, none, none, some (.changes .text false)⟩

theorem linkFree : files.LinkFree := by
  intro place target h
  unfold FileSystem.node? at h
  split at h
  · cases h
  · obtain ⟨before, after, hnodes, _⟩ := List.lookup_eq_some_iff.mp h
    have hmem : (place, .link target) ∈ files.nodes := by simp [hnodes]
    simp [files] at hmem

/-- A session in the part, for the directory that `repo` names, has the settings of the part if
these are what is found. -/
theorem start_inspecting {repo : String} (hdiscover : Settings.discover files
      (rootOf (inspecting repo) "/w/a") = some "/w/a/modgate.toml") :
    ∃ session, (start files (inspecting repo) "/w/a").value = .ok session ∧
      session.settingsPath = some "/w/a/modgate.toml" := by
  have hload : Config.load files "/w/a/modgate.toml" = .ok ({ version := 1 }, []) := by cbv
  have hresolve : Settings.resolve files (inspecting repo).config
      (rootOf (inspecting repo) "/w/a") = .ok (some "/w/a/modgate.toml") :=
    congrArg Except.ok hdiscover
  simp only [start, Logged.bind, findSettings, hresolve, hload, Except.map]
  exact ⟨_, rfl, rfl⟩

theorem holdsSettings : Settings.HoldsSettings files "/w/a" := by
  cbv

/-- What is found from a path whose parent is the part, if the path itself names nothing. -/
theorem discover_of_parent {start : String} (hparent : Path.parent? start = some "/w/a")
    (hsettings : files.isFile (Path.join start Settings.fileName) = false)
    (hrepository : files.isPresent (Path.join start Settings.repositoryName) = false) :
    Settings.discover files start = some "/w/a/modgate.toml" := by
  have hup : Path.upwards start = start :: "/w/a" :: Path.upwards "/w" := by
    rw [Path.upwards_of_some hparent, Path.upwards_of_some (by cbv)]
  rw [Settings.discover, hup, Settings.firstIn_of_neither (ne_true_of_eq_false hsettings)
    (ne_true_of_eq_false hrepository), Settings.firstIn_of_settings holdsSettings]
  cbv

/-- The directory in the part has the settings of the part. -/
theorem settings_around_root_in_part :
    ∃ session path holder, (start files (inspecting "b/.") "/w/a").value = .ok session ∧
      session.settingsPath = some path ∧ holder <+: ["w", "a", "b"].map Text.bytes ∧
      files.locate path = .ok (holder ++ [Text.bytes Settings.fileName]) := by
  have hroot : rootOf (inspecting "b/.") "/w/a" = "/w/a/b/." := by cbv
  have hdiscover : Settings.discover files (rootOf (inspecting "b/.") "/w/a") =
      some "/w/a/modgate.toml" := by
    rw [hroot]
    exact discover_of_parent (by cbv) (by cbv) (by cbv)
  obtain ⟨session, hstart, hpath⟩ := start_inspecting hdiscover
  obtain ⟨holder, left, hleft, _, hlocate, haround, _⟩ := settings_around_root files linkFree
    (inspecting "b/.") rfl "/w/a" (by cbv) (["w", "a", "b"].map Text.bytes) (by cbv) (by cbv)
    session hstart _ hpath
  have hstays : Path.StaysBelow left := by
    apply Path.staysBelow_of_notMem
    intro hmem
    have hstep := hleft.subset hmem
    rw [hroot] at hstep
    revert hstep
    decide
  exact ⟨session, _, holder, hstart, hpath, haround hstays, hlocate⟩

/-- Above the part, where two dots lead, a session has the settings of the part below. -/
theorem settings_below_root :
    ∃ session path, (start files (inspecting "..") "/w/a").value = .ok session ∧
      session.settingsPath = some path ∧
      files.locate (rootOf (inspecting "..") "/w/a") = .ok (["w"].map Text.bytes) ∧
      files.node? (["w"].map Text.bytes) = some .directory ∧
      ¬ ∃ holder, holder <+: ["w"].map Text.bytes ∧
        files.locate path = .ok (holder ++ [Text.bytes Settings.fileName]) := by
  have hroot : rootOf (inspecting "..") "/w/a" = "/w/a/.." := by cbv
  have hdiscover : Settings.discover files (rootOf (inspecting "..") "/w/a") =
      some "/w/a/modgate.toml" := by
    rw [hroot]
    exact discover_of_parent (by cbv) (by cbv) (by cbv)
  obtain ⟨session, hstart, hpath⟩ := start_inspecting hdiscover
  refine ⟨session, _, hstart, hpath, by cbv, by cbv, ?_⟩
  rintro ⟨holder, hholder, hlocate⟩
  have hplace : files.locate "/w/a/modgate.toml" =
      .ok (["w", "a"].map Text.bytes ++ [Text.bytes Settings.fileName]) := by cbv
  rw [hplace] at hlocate
  have hsame := List.append_cancel_right (Except.ok.inj hlocate)
  have hlength := hholder.length_le
  rw [← hsame] at hlength
  exact absurd hlength (by decide)

end PartedShop

end Session

end TestSelection
