import TestSelection.Proofs.ComparedRevision
import TestSelection.Proofs.StatusListings

/-!
What is not pushed. It is what is not committed together with what the current branch and the branch
that it is compared with hold differently. Where there is nothing to compare with, because the
repository stands on no branch, or on one without commits, or on one that tracks none, it is what is
not committed and nothing else. So what is not committed is never lost.
-/

namespace TestSelection

/-- Where a repository stands: on no branch, on a branch without commits, on one that is compared
with none, or on one with the directory `tip` that is compared with one with `upstream`. -/
inductive Standing (Tree : Type)
  | detached
  | unborn
  | untracked
  | tracking (tip upstream : Tree)

/-- Nothing is compared with the current branch. -/
def Standing.IsAlone {Tree : Type} : Standing Tree → Prop
  | detached | unborn | untracked => True
  | tracking _ _ => False

namespace RepositoryLibrary

/-- The repository stands on a branch. -/
def StandsOn (library : RepositoryLibrary) (handle : library.Handle) (branch : library.Reference) :
    Prop :=
  library.head handle = .ok branch ∧ library.isBranch branch = true

/-- How a library says where a repository stands. -/
def Reports (library : RepositoryLibrary) (handle : library.Handle) : Standing library.Tree → Prop
  | .detached => ∃ head, library.head handle = .ok head ∧ library.isBranch head = false
  | .unborn => ∃ fault, library.head handle = .error fault ∧
      (fault.code = .unbornBranch ∨ fault.code = .notFound)
  | .untracked => ∃ branch fault, library.StandsOn handle branch ∧
      library.upstream handle branch = .error fault ∧ fault.code = .notFound
  | .tracking tip upstream => ∃ branch other, library.StandsOn handle branch ∧
      library.upstream handle branch = .ok other ∧
      library.referenceTree handle branch = .ok tip ∧
      library.referenceTree handle other = .ok upstream

variable {library : RepositoryLibrary} {handle : library.Handle} {root : String}
  {standing : Standing library.Tree} {tip upstream : library.Tree} {paths all : List String}

theorem trackingTrees_of_isAlone (halone : standing.IsAlone) (h : library.Reports handle standing) :
    (library.trackingTrees handle).value = .ok none := by
  cases standing with
  | detached =>
    obtain ⟨head, hhead, hname⟩ := h
    simp [trackingTrees, hhead, hname]
  | unborn =>
    obtain ⟨fault, hhead, hcode⟩ := h
    simp [trackingTrees, hhead, hcode]
  | untracked =>
    obtain ⟨branch, fault, ⟨hhead, hname⟩, hother, hcode⟩ := h
    simp [trackingTrees, hhead, hname, hother, hcode]
  | tracking tip upstream => exact halone.elim

theorem trackingTrees_of_tracking (h : library.Reports handle (.tracking tip upstream)) :
    (library.trackingTrees handle).value = .ok (some (tip, upstream)) := by
  obtain ⟨branch, other, ⟨hhead, hname⟩, hother, htip, hupstream⟩ := h
  simp [trackingTrees, hhead, hname, hother, htip, hupstream, Logged.pure, Except.bind, Except.map]

theorem unpushed_of_isAlone (halone : standing.IsAlone) (h : library.Reports handle standing) :
    (library.unpushed handle).value = .ok [] := by
  simp only [unpushed, Logged.bind, trackingTrees_of_isAlone halone h, Logged.pure]

theorem unpushed_of_tracking (h : library.Reports handle (.tracking tip upstream)) :
    (library.unpushed handle).value = library.differing handle tip upstream := by
  simp only [unpushed, Logged.bind, trackingTrees_of_tracking h, Logged.pure]

theorem reader_uncommitted_eq_ok_iff (hopen : library.discover root = .ok handle) :
    (library.reader root .uncommitted).value = .ok paths ↔
      library.uncommitted handle = .ok paths := by
  rw [reader_eq_ok_iff hopen, changed, Logged.pure, mapError_eq_ok_iff]

/-- What is not pushed is read as what is not committed together with what is found ahead. -/
theorem reader_unpushed_eq_ok_iff (hopen : library.discover root = .ok handle) :
    (library.reader root .unpushed).value = .ok all ↔
      ∃ paths more, library.uncommitted handle = .ok paths ∧
        (library.unpushed handle).value = .ok more ∧ Ascending.union paths more = all := by
  rw [reader_eq_ok_iff hopen, changed]
  cases library.uncommitted handle with
  | error fault => simp [Logged.pure, Except.mapError]
  | ok paths => simp [Logged.bind, Logged.pure, mapError_eq_ok_iff, map_eq_ok_iff]

/-- Where the files that are not committed are known, what is not pushed is these files together
with those at which the current branch and the one it is compared with hold different entries,
whichever of the two is taken for the old one and whatever is found to have moved; it is just these
files where nothing is compared with the current branch. They are always among what is not pushed.
-/
theorem unpushed_adds_differences (hopen : library.discover root = .ok handle)
    (hpaths : (library.reader root .uncommitted).value = .ok paths) :
    (∀ contents tip upstream, library.ComparesTrees contents →
      library.Reports handle (.tracking tip upstream) → WellNamed contents tip →
      WellNamed contents upstream → library.Comparable handle tip upstream →
        (∃ all, (library.reader root .unpushed).value = .ok all ∧ all.Pairwise (· < ·) ∧
          ∀ text, text ∈ all ↔ text ∈ paths ∨
            ∃ path, Text.ofBytes path = text ∧ HoldApart contents tip upstream path) ∧
        ∀ found deltas, library.compare handle tip upstream = .ok found ∨
          library.compare handle upstream tip = .ok found →
            Delta.Moved (library.deltas found) deltas → ∀ text, text ∈ Delta.texts deltas ↔
              ∃ path, Text.ofBytes path = text ∧ HoldApart contents tip upstream path) ∧
    (∀ standing : Standing library.Tree, standing.IsAlone → library.Reports handle standing →
      (library.reader root .unpushed).value = .ok paths) ∧
    ∀ all, (library.reader root .unpushed).value = .ok all → ∀ text ∈ paths, text ∈ all := by
  have hknown := (reader_uncommitted_eq_ok_iff hopen).mp hpaths
  have hsorted : paths.Pairwise (· < ·) := by
    obtain ⟨states, _, rfl⟩ := map_eq_ok_iff.mp hknown
    exact Ascending.pairwise_ofList _
  refine ⟨fun contents tip upstream hlibrary htracking htip hupstream hcomparable => ⟨?_, ?_⟩, ?_,
    ?_⟩
  · obtain ⟨found, merged, hfinds⟩ := hcomparable
    have hmore : (library.unpushed handle).value = .ok (Delta.texts (library.deltas merged)) := by
      rw [unpushed_of_tracking htracking]
      exact differing_eq_ok_iff.mpr ⟨found, merged, hfinds, rfl⟩
    refine ⟨_, (reader_unpushed_eq_ok_iff hopen).mpr ⟨paths, _, hknown, hmore, rfl⟩,
      Ascending.pairwise_union hsorted, fun text => ?_⟩
    rw [Ascending.mem_union, hlibrary.mem_texts_iff htip hupstream hfinds]
  · intro found deltas hfound hmoved text
    rw [← hmoved.texts_eq]
    rcases hfound with hfound | hfound
    · exact hlibrary.mem_texts_found_iff htip hupstream hfound
    · rw [hlibrary.mem_texts_found_iff hupstream htip hfound]
      simp only [holdApart_comm]
  · intro standing halone hreports
    exact (reader_unpushed_eq_ok_iff hopen).mpr
      ⟨paths, [], hknown, unpushed_of_isAlone halone hreports, rfl⟩
  · intro all hall text htext
    obtain ⟨known, more, hsame, _, rfl⟩ := (reader_unpushed_eq_ok_iff hopen).mp hall
    obtain rfl : paths = known := Except.ok.inj (hknown.symm.trans hsame)
    exact Ascending.mem_union.mpr (Or.inl htext)

end RepositoryLibrary

namespace Shop

open RepositoryLibrary StoredTree

/-- The files that are not committed where there are commits. -/
def differing : List String :=
  ["README.md", "build.log", "notes/today/plan.txt", "prices.txt", "src/Orders.java", "stock.txt",
    "store.txt", "tariff.txt", "till.txt"]

/-- The files that are not committed where there are no commits. -/
def everything : List String :=
  ["README.md", "build.log", "notes/today/plan.txt", "prices.txt", "src/Basket.java",
    "src/Orders.java", "store.txt", "tariff.txt", "till.txt"]

/-- What is not committed, by where the repository stands. -/
def uncommittedAt : Place → List String
  | .unborn => everything
  | _ => differing

theorem ordered_listings (place : Place) : (listings place).Ordered := by
  have hcommitted : Listed (listings place).committed := by
    cases place <;> (unfold Listed; decide)
  have hstaged : Listed staged := by unfold Listed; decide
  have hworking : Listed working := by unfold Listed; decide
  exact ⟨hcommitted, hstaged, hworking⟩

/-- The differences of the files that are not committed. -/
def differencesAt (place : Place) : List Delta :=
  ((listings place).stagedDeltas .uncommitted).map (·.2.2) ++
    ((listings place).unstagedDeltas .uncommitted).map (·.2.2)

theorem texts_states (place : Place) :
    FileState.texts ((listings place).states .uncommitted) = uncommittedAt place := by
  have hordered := ordered_listings place
  have htexts : Delta.texts (differencesAt place) = uncommittedAt place := by
    cases place <;> decide +kernel
  rw [← htexts]
  exact (FileListings.tells_states hordered).texts_eq (FileListings.joins_stagedDeltas hordered)
    (FileListings.joins_unstagedDeltas hordered)

theorem reader_uncommitted {root : String} {place : Place}
    (hopen : library.discover root = .ok place) :
    (library.reader root .uncommitted).value = .ok (uncommittedAt place) :=
  (reader_uncommitted_eq_ok_iff hopen).mpr (congrArg Except.ok (texts_states place))

theorem reports_tracking : library.Reports .main (.tracking after before) :=
  ⟨main, remote, ⟨rfl, rfl⟩, rfl, rfl, rfl⟩

theorem reports_untracked : library.Reports .spare .untracked :=
  ⟨spare, _, ⟨rfl, rfl⟩, rfl, rfl⟩

theorem reports_detached : library.Reports .detached .detached := ⟨"HEAD", rfl, rfl⟩

theorem reports_unborn : library.Reports .unborn .unborn := ⟨_, rfl, Or.inl rfl⟩

theorem comparable_tracking : library.Comparable .main after before :=
  ⟨_, _, compare_eq snapshot_after snapshot_before, rfl⟩

/-- On the branch that is compared with another one the file that has moved is added, and nothing is
added on the branch without one, on no branch and without commits. -/
theorem unpushed_adds_differences_in_shop :
    (∃ all, (library.reader "/shop" .unpushed).value = .ok all ∧
      "src/Basket.java" ∈ all ∧ "src/Cart.java" ∈ all ∧ "README.md" ∈ all) ∧
    (library.reader "/spare" .unpushed).value = .ok differing ∧
    (library.reader "/detached" .unpushed).value = .ok differing ∧
    (library.reader "/unborn" .unpushed).value = .ok everything := by
  have hshop : library.discover "/shop" = .ok .main := rfl
  have hspare : library.discover "/spare" = .ok .spare := rfl
  have hdetached : library.discover "/detached" = .ok .detached := rfl
  have hunborn : library.discover "/unborn" = .ok .unborn := rfl
  refine ⟨?_, ?_, ?_, ?_⟩
  · obtain ⟨hadds, _, _⟩ := unpushed_adds_differences hshop (reader_uncommitted hshop)
    obtain ⟨⟨all, hall, _, hmem⟩, _⟩ := hadds contents after before comparesTrees reports_tracking
      wellNamed_after wellNamed_before comparable_tracking
    have hadded (text : String) (htext : text ∈ ["src/Basket.java", "src/Cart.java"]) :
        Text.ofBytes (Text.bytes text) = text ∧
          HoldApart contents after before (Text.bytes text) := by
      rw [holdApart_comm, holdApart_iff]
      revert text
      decide +kernel
    refine ⟨all, hall, ?_, ?_, ?_⟩
    · exact (hmem _).mpr (Or.inr ⟨_, hadded "src/Basket.java" (by simp)⟩)
    · exact (hmem _).mpr (Or.inr ⟨_, hadded "src/Cart.java" (by simp)⟩)
    · exact (hmem _).mpr (Or.inl (by decide))
  · exact (unpushed_adds_differences hspare (reader_uncommitted hspare)).2.1 .untracked trivial
      reports_untracked
  · exact (unpushed_adds_differences hdetached (reader_uncommitted hdetached)).2.1 .detached trivial
      reports_detached
  · exact (unpushed_adds_differences hunborn (reader_uncommitted hunborn)).2.1 .unborn trivial
      reports_unborn

end Shop

end TestSelection
