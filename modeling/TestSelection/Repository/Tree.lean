import TestSelection.FileSystem.Basic
import TestSelection.Repository.Object

/-!
Directories with all that lies in them. A stored directory names the directories in it, so to list
its files they are read one after the other. A listing has every path once, in ascending order.
-/

namespace TestSelection

/-- Files by their paths. -/
abbrev Snapshot := List (Bytes × FileEntry)

/-- A stored directory, and how the directories in it are read. -/
structure StoredTree where
  read : ObjectId → Except RepositoryFault (List TreeEntry)
  entries : List TreeEntry

/-- Files in ascending order of their paths, each path once. -/
def ordered {α : Type} (files : List (Bytes × α)) : List (Bytes × α) :=
  let rec distinct : List (Bytes × α) → List (Bytes × α)
    | first :: second :: rest =>
      if first.1 = second.1 then distinct (first :: rest)
      else first :: distinct (second :: rest)
    | short => short
    termination_by files => files.length
  distinct (files.mergeSort fun a b => a.1 ≤ b.1)

namespace StoredTree

/-- The files in a directory and below it; `above` stands before their paths, and directories lie
in each other `fuel` times at most. -/
def filesBelow (read : ObjectId → Except RepositoryFault (List TreeEntry)) :
    (fuel : Nat) → (above : Bytes) → List TreeEntry → Except RepositoryFault Snapshot
  | 0, _, _ => .error .depth
  | fuel + 1, above, entries =>
    (entries.mapM fun (item : TreeEntry) =>
      if item.2.mode = .directory then
        (read item.2.id).bind fun below =>
          filesBelow read fuel (above ++ item.1 ++ [FileSystem.slash]) below
      else .ok [(above ++ item.1, item.2)]).map List.flatten

def depthLimit : Nat := 4096

/-- All files that a directory holds. -/
def snapshot (tree : StoredTree) : Except RepositoryFault Snapshot :=
  (filesBelow tree.read depthLimit [] tree.entries).map ordered

end StoredTree

end TestSelection
