import Mathlib
import TestSelection.Proofs.UpwardPaths
import TestSelection.Settings.Discovery

/-!
The settings nearest to a directory. The search goes through the directories above its start one
step after the other. Where it meets a settings file it is done, also in a directory that holds a
repository; a directory that holds a repository and no settings file ends it. Files are looked at as
the file system gives them, so that a link counts as what it leads to.
-/

namespace TestSelection.Settings

def HoldsSettings (files : FileSystem) (directory : String) : Prop :=
  files.isFile (Path.join directory fileName) = true

def HoldsRepository (files : FileSystem) (directory : String) : Prop :=
  files.isPresent (Path.join directory repositoryName) = true

variable {files : FileSystem} {directories : List String} {start path : String}

theorem firstIn_of_settings (h : HoldsSettings files start) :
    firstIn files (start :: directories) = some (Path.join start fileName) := if_pos h

theorem firstIn_of_repository (hfile : ¬ HoldsSettings files start)
    (h : HoldsRepository files start) :
    firstIn files (start :: directories) = none := (if_neg hfile).trans (if_pos h)

theorem firstIn_of_neither (hfile : ¬ HoldsSettings files start)
    (hrepository : ¬ HoldsRepository files start) :
    firstIn files (start :: directories) = firstIn files directories :=
  (if_neg hfile).trans (if_neg hrepository)

theorem firstIn_eq_some_iff : firstIn files directories = some path ↔
    ∃ (count : Nat) (directory : String), directories[count]? = some directory ∧
      HoldsSettings files directory ∧ path = Path.join directory fileName ∧
      ∀ nearer < count, ∀ other, directories[nearer]? = some other →
        ¬ HoldsSettings files other ∧ ¬ HoldsRepository files other := by
  induction directories with
  | nil => simp [firstIn]
  | cons first rest ih =>
    by_cases hfile : HoldsSettings files first
    · rw [firstIn_of_settings hfile, Option.some.injEq]
      constructor
      · intro h
        exact ⟨0, first, rfl, hfile, h.symm, fun nearer hnearer => absurd hnearer (by omega)⟩
      · rintro ⟨count, directory, hdirectory, _, rfl, hpassed⟩
        cases count with
        | zero =>
          cases hdirectory
          rfl
        | succ count => exact absurd hfile (hpassed 0 (by omega) first rfl).1
    · by_cases hrepository : HoldsRepository files first
      · rw [firstIn_of_repository hfile hrepository]
        constructor
        · intro h
          cases h
        · rintro ⟨count, directory, hdirectory, hholds, _, hpassed⟩
          cases count with
          | zero =>
            cases hdirectory
            exact absurd hholds hfile
          | succ count => exact absurd hrepository (hpassed 0 (by omega) first rfl).2
      · rw [firstIn_of_neither hfile hrepository, ih]
        constructor
        · rintro ⟨count, directory, hdirectory, hholds, hpath, hpassed⟩
          refine ⟨count + 1, directory, hdirectory, hholds, hpath, ?_⟩
          intro nearer hnearer other hother
          cases nearer with
          | zero =>
            cases hother
            exact ⟨hfile, hrepository⟩
          | succ nearer => exact hpassed nearer (by omega) other hother
        · rintro ⟨count, directory, hdirectory, hholds, hpath, hpassed⟩
          cases count with
          | zero =>
            cases hdirectory
            exact absurd hholds hfile
          | succ count =>
            refine ⟨count, directory, hdirectory, hholds, hpath, ?_⟩
            intro nearer hnearer other hother
            exact hpassed (nearer + 1) (by omega) other hother

/-- Without a result, every settings file on the way lies beyond a repository. -/
theorem firstIn_eq_none_iff : firstIn files directories = none ↔
    ∀ (count : Nat) (directory : String), directories[count]? = some directory →
      HoldsSettings files directory → ∃ nearer < count, ∃ other,
        directories[nearer]? = some other ∧ HoldsRepository files other := by
  constructor
  · intro hnone count
    induction count using Nat.strongRecOn with
    | ind count ih =>
      intro directory hdirectory hholds
      by_contra hbeyond
      -- Settings that are nearer would lie beyond a repository that is nearer still.
      have hpassed : ∀ nearer < count, ∀ other, directories[nearer]? = some other →
          ¬ HoldsSettings files other ∧ ¬ HoldsRepository files other := by
        intro nearer hnearer other hother
        constructor
        · intro hsettings
          obtain ⟨earlier, hearlier, hfound⟩ := ih nearer hnearer other hother hsettings
          exact hbeyond ⟨earlier, hearlier.trans hnearer, hfound⟩
        · intro hrepository
          exact hbeyond ⟨nearer, hnearer, other, hother, hrepository⟩
      have hfound := firstIn_eq_some_iff.mpr
        ⟨count, directory, hdirectory, hholds, rfl, hpassed⟩
      rw [hnone] at hfound
      cases hfound
  · intro hbeyond
    cases hfound : firstIn files directories with
    | none => rfl
    | some path =>
      obtain ⟨count, directory, hdirectory, hholds, _, hpassed⟩ := firstIn_eq_some_iff.mp hfound
      obtain ⟨nearer, hnearer, other, hother, hrepository⟩ :=
        hbeyond count directory hdirectory hholds
      exact absurd hrepository (hpassed nearer hnearer other hother).2

theorem discover_eq_some_iff (hrooted : Path.Rooted start.toList) :
    discover files start = some path ↔
      ∃ count directory, Path.IsAbove start.toList directory.toList count ∧
        HoldsSettings files directory ∧ path = Path.join directory fileName ∧
        ∀ nearer < count, ∀ other : String, Path.IsAbove start.toList other.toList nearer →
          ¬ HoldsSettings files other ∧ ¬ HoldsRepository files other := by
  simp only [discover, firstIn_eq_some_iff, Path.getElem?_upwards_iff hrooted]

/-- The settings for an absolute path are those of the nearest directory that has a settings file,
among the path itself and the directories above it, unless a directory that is nearer holds a
repository. There are no settings if each settings file on the way lies beyond a repository. A
single dot is no step of the path; two dots are a step like others, as the text of the path has
it. -/
theorem discovered_nearest (files : FileSystem) (start : String)
    (habsolute : Path.isAbsolute start = true) :
    (∀ count, count ≤ (Path.stepsOf start.toList).length ↔
      ∃! directory : String, Path.IsAbove start.toList directory.toList count) ∧
    (∀ path, discover files start = some path ↔
      ∃ count directory, Path.IsAbove start.toList directory.toList count ∧
        HoldsSettings files directory ∧ path = Path.join directory fileName ∧
        ∀ nearer < count, ∀ other : String, Path.IsAbove start.toList other.toList nearer →
          ¬ HoldsSettings files other ∧ ¬ HoldsRepository files other) ∧
    (discover files start = none ↔
      ∀ count (directory : String), Path.IsAbove start.toList directory.toList count →
        HoldsSettings files directory →
        ∃ nearer < count, ∃ other : String, Path.IsAbove start.toList other.toList nearer ∧
          HoldsRepository files other) := by
  have hrooted := Path.rooted_of_isAbsolute habsolute
  refine ⟨fun count => (Path.existsUnique_isAbove_iff hrooted).symm,
    fun path => discover_eq_some_iff hrooted, ?_⟩
  simp only [discover, firstIn_eq_none_iff, Path.getElem?_upwards_iff hrooted]

/-- A repository that has settings, with a directory named like settings in it, below other
settings. -/
def workspace : FileSystem where
  nodes := [(["modgate.toml"].map Text.bytes, .file ByteArray.empty false),
    (["w"].map Text.bytes, .directory),
    (["w", ".git"].map Text.bytes, .directory),
    (["w", "modgate.toml"].map Text.bytes, .file ByteArray.empty false),
    (["w", "a"].map Text.bytes, .directory),
    (["w", "a", "b"].map Text.bytes, .directory),
    (["w", "a", "b", "modgate.toml"].map Text.bytes, .directory)]

theorem discovered_nearest_in_workspace :
    discover workspace "/w/a//b/" = some "/w/modgate.toml" ∧
      ∃! directory : String, Path.IsAbove "/w/a//b/".toList directory.toList 3 := by
  have habsolute : Path.isAbsolute "/w/a//b/" = true := by cbv
  have hup : Path.upwards "/w/a//b/" = "/w/a//b/" :: "/w/a" :: Path.upwards "/w" := by
    rw [Path.upwards_of_some (by cbv), Path.upwards_of_some (by cbv)]
  obtain ⟨hcounts, hsome, _⟩ := discovered_nearest workspace "/w/a//b/" habsolute
  refine ⟨(hsome _).mpr ⟨2, "/w", ?_, by cbv, by cbv, ?_⟩, (hcounts 3).mp (by decide)⟩
  · have htext : "/w/a//b/".toList = [] ++ '/' :: ['w'] ++ '/' :: "a//b/".toList := by decide
    exact .behind htext ⟨by decide, by decide, by decide⟩ (by decide)
  · intro nearer hnearer other habove
    rw [← Path.getElem?_upwards_iff (Path.rooted_of_isAbsolute habsolute), hup] at habove
    interval_cases nearer
    · cases habove
      exact ⟨ne_true_of_eq_false (by cbv), ne_true_of_eq_false (by cbv)⟩
    · cases habove
      exact ⟨ne_true_of_eq_false (by cbv), ne_true_of_eq_false (by cbv)⟩

end TestSelection.Settings
