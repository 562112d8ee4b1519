import TestSelection.Proofs.FallibleSteps
import TestSelection.Proofs.HeldFiles
import TestSelection.Proofs.MovedFiles
import TestSelection.Repository.Changes

/-!
Libraries that compare directories. What is relied on is what a library says of itself: a comparison
has a difference for each path at which two directories hold different entries and for no other
path, and to look for files that moved joins such differences. So the paths that are collected are
those at which the directories hold different entries, whatever has been found to have moved and
whichever directory is taken for the old one.
-/

namespace TestSelection.RepositoryLibrary

/-- A library compares directories with the given contents, path by path, and joins what it has
found when it looks for files that moved. -/
structure ComparesTrees (library : RepositoryLibrary) (contents : Contents library.Tree) :
    Prop where
  compare : ∀ {handle : library.Handle} {old new : library.Tree} {found : library.Comparison},
    WellNamed contents old → WellNamed contents new → library.compare handle old new = .ok found →
      Delta.Lists (HoldApart contents old new) (library.deltas found)
  joined : ∀ {found merged : library.Comparison}, library.joined found = .ok merged →
    Delta.Moved (library.deltas found) (library.deltas merged)

/-- Comparing two directories gives `found`, and looking for files that moved turns this into
`merged`. -/
structure Finds (library : RepositoryLibrary) (handle : library.Handle) (old new : library.Tree)
    (found merged : library.Comparison) : Prop where
  compare : library.compare handle old new = .ok found
  joined : library.joined found = .ok merged

/-- Two directories can be compared. -/
def Comparable (library : RepositoryLibrary) (handle : library.Handle) (old new : library.Tree) :
    Prop :=
  ∃ found merged, library.Finds handle old new found merged

variable {library : RepositoryLibrary} {contents : Contents library.Tree}
  {handle : library.Handle} {old new : library.Tree} {found merged : library.Comparison}
  {paths : List String} {path : Bytes} {text : String}

theorem differing_eq_ok_iff : library.differing handle old new = .ok paths ↔
    ∃ found merged, library.Finds handle old new found merged ∧
      Delta.texts (library.deltas merged) = paths := by
  constructor
  · intro h
    obtain ⟨found, hcompare, h⟩ := bind_eq_ok_iff.mp h
    obtain ⟨merged, hjoined, h⟩ := map_eq_ok_iff.mp h
    exact ⟨found, merged, ⟨hcompare, hjoined⟩, h⟩
  · intro h
    obtain ⟨found, merged, ⟨hcompare, hjoined⟩, h⟩ := h
    exact bind_eq_ok_iff.mpr ⟨found, hcompare, map_eq_ok_iff.mpr ⟨merged, hjoined, h⟩⟩

namespace ComparesTrees

variable (hlibrary : library.ComparesTrees contents) (hold : WellNamed contents old)
  (hnew : WellNamed contents new)

include hlibrary hold hnew

/-- The texts of the differences are those of the paths at which the directories hold different
entries. -/
theorem mem_texts_found_iff (hfound : library.compare handle old new = .ok found) :
    text ∈ Delta.texts (library.deltas found) ↔
      ∃ path, Text.ofBytes path = text ∧ HoldApart contents old new path := by
  rw [(hlibrary.compare hold hnew hfound).mem_texts_iff]
  constructor
  · intro h
    obtain ⟨_, path, hapart, hpath⟩ := h
    exact ⟨path, hpath, hapart⟩
  · intro h
    obtain ⟨path, rfl, hapart⟩ := h
    exact ⟨(hapart.beginsWithName hold hnew).isStated, path, hapart, rfl⟩

theorem mem_texts_iff (h : library.Finds handle old new found merged) :
    text ∈ Delta.texts (library.deltas merged) ↔
      ∃ path, Text.ofBytes path = text ∧ HoldApart contents old new path := by
  rw [← (hlibrary.joined h.joined).texts_eq, hlibrary.mem_texts_found_iff hold hnew h.compare]

/-- Every path of a file on a side of a difference is one at which the directories hold different
entries, also where differences have been joined. -/
theorem holdApart_of_moved {deltas : List Delta}
    (hfound : library.compare handle old new = .ok found)
    (hmoved : Delta.Moved (library.deltas found) deltas) (hside : Delta.HaveSide deltas path)
    (hfile : ¬ Delta.IsPlaceholder path) : HoldApart contents old new path := by
  have hlists := hlibrary.compare hold hnew hfound
  exact (hlists.haveSide_iff hfile).mp ((hmoved.haveSide_iff hfile).mpr hside)

end ComparesTrees

end TestSelection.RepositoryLibrary
