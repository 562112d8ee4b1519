import TestSelection.Repository.Status

/-!
A library that reads repositories. It finds the repository that a path lies in, lists the states of
its files, follows its references and compares directories. What it works with is its own matter: a
library comes with the types of what it hands out. Everything may fail, and a failure says whether
what was asked for is just not there.
-/

namespace TestSelection

inductive FaultCode
  | notFound
  /-- The current branch has no commits. -/
  | unbornBranch
  | other
  deriving Repr, DecidableEq

structure LibraryFault where
  code : FaultCode
  message : String
  deriving Repr, DecidableEq

structure RepositoryLibrary where
  Handle : Type
  Reference : Type
  Object : Type
  Tree : Type
  Comparison : Type
  /-- The repository that a path lies in. -/
  discover : String → Except LibraryFault Handle
  statuses : Handle → StatusOptions → Except LibraryFault (List FileState)
  /-- Where the repository stands. -/
  head : Handle → Except LibraryFault Reference
  isBranch : Reference → Bool
  /-- The text of a branch's name, if it is one. -/
  branchName : Handle → Reference → Except LibraryFault (Option String)
  /-- The reference that a branch is compared with. -/
  upstream : Handle → Reference → Except LibraryFault Reference
  /-- The directory that a reference leads to. -/
  referenceTree : Handle → Reference → Except LibraryFault Tree
  /-- The object that a revision stands for. -/
  revision : Handle → String → Except LibraryFault Object
  /-- The directory that an object stands for. -/
  objectTree : Handle → Object → Except LibraryFault Tree
  compare : Handle → (old new : Tree) → Except LibraryFault Comparison
  /-- Looks for files that moved. -/
  joined : Comparison → Except LibraryFault Comparison
  deltas : Comparison → List Delta

end TestSelection
