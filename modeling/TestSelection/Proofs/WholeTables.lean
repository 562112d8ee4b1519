import TestSelection.Document.Toml.Lines
import TestSelection.Proofs.TreeTables

/-!
What a TOML text delivers. However its lines open tables, enter them again and add to them, no table
ever gets two entries under one key. So a text that can be read delivers a table, and everything in
it is whole: no sequence is cut off, and every record names its fields by distinct texts.
-/

namespace TestSelection

namespace Tree

/-- Nothing is cut off, and the fields of each record have distinct names. -/
inductive WellFormed : Tree → Prop
  | scalar (value : Scalar) : WellFormed (.scalar value)
  | sequence {items : List Tree} (h : ∀ item ∈ items, WellFormed item) :
      WellFormed (.sequence items true)
  | table {fields : List (String × Tree)} (hdistinct : (fields.map (·.1)).Nodup)
      (h : ∀ field ∈ fields, WellFormed field.2) : WellFormed (table fields)

theorem wellFormed_table_iff {fields : List (String × Tree)} :
    (table fields).WellFormed ↔
      (fields.map (·.1)).Nodup ∧ ∀ field ∈ fields, field.2.WellFormed := by
  constructor
  · intro h
    generalize htree : table fields = tree at h
    cases h with
    | scalar value => cases htree
    | sequence h => cases htree
    | table hdistinct h =>
      obtain rfl := table_injective htree
      exact ⟨hdistinct, h⟩
  · rintro ⟨hdistinct, h⟩
    exact .table hdistinct h

theorem wellFormed_of_lookup {fields : List (String × Tree)} {key : String} {value : Tree}
    (h : (table fields).WellFormed) (hlookup : fields.lookup key = some value) :
    value.WellFormed := by
  obtain ⟨hdistinct, hvalues⟩ := wellFormed_table_iff.mp h
  exact hvalues (key, value) ((lookup_eq_some_iff_mem hdistinct).mp hlookup)

theorem wellFormed_ofText (content : String) : (ofText content).WellFormed := .scalar _

end Tree

namespace Toml

namespace Node

/-- Everything in the node is well-formed, and no table has two entries under one key. -/
inductive WellFormed : Node → Prop
  | leaf {tree : Tree} (h : tree.WellFormed) : WellFormed (.leaf tree)
  | table (implied dotted : Bool) {entries : List (String × Node)}
      (hdistinct : (entries.map (·.1)).Nodup) (h : ∀ entry ∈ entries, WellFormed entry.2) :
      WellFormed (.table implied dotted entries)
  | tables {items : List Node} (h : ∀ item ∈ items, WellFormed item) : WellFormed (.tables items)

/-- The entries of a well-formed table. -/
structure Orderly (entries : List (String × Node)) : Prop where
  distinct : (entries.map (·.1)).Nodup
  wellFormed : ∀ entry ∈ entries, WellFormed entry.2

theorem toTrees_eq (items : List Node) : toTrees items = items.map toTree := by
  induction items with
  | nil => simp [toTrees]
  | cons item rest ih => simp [toTrees, ih]

theorem toEntries_eq (entries : List (String × Node)) :
    Tree.record (toEntries entries) true =
      Tree.table (entries.map fun entry => (entry.1, entry.2.toTree)) := by
  unfold Tree.table
  congr 1
  induction entries with
  | nil => simp [toEntries]
  | cons entry rest ih => simp [toEntries, ih]

theorem WellFormed.toTree {node : Node} (h : node.WellFormed) : node.toTree.WellFormed := by
  induction h with
  | leaf h =>
    rw [Node.toTree]
    exact h
  | table implied dotted hdistinct _ ih =>
    rw [Node.toTree, toEntries_eq]
    refine .table (by rwa [List.map_map]) fun field hfield => ?_
    obtain ⟨entry, hentry, rfl⟩ := List.mem_map.mp hfield
    exact ih entry hentry
  | tables _ ih =>
    rw [Node.toTree, toTrees_eq]
    refine .sequence fun item hitem => ?_
    obtain ⟨node, hnode, rfl⟩ := List.mem_map.mp hitem
    exact ih node hnode

section Operations

variable {entries inner result : List (String × Node)} {node : Node} {key : String}
  {throughDots dotted : Bool}

theorem orderly_nil : Orderly [] := ⟨List.nodup_nil, by simp⟩

theorem Orderly.find (h : Orderly entries) (hfind : find key entries = some node) :
    node.WellFormed := by
  obtain ⟨before, after, rfl, _⟩ := List.lookup_eq_some_iff.mp hfind
  exact h.wellFormed (key, node) (by simp)

theorem mem_put {entry : String × Node} (h : entry ∈ put key node entries) :
    entry = (key, node) ∨ entry ∈ entries := by
  induction entries with
  | nil => exact Or.inl (List.mem_singleton.mp h)
  | cons first rest ih =>
    unfold put at h
    split at h
    · exact (List.mem_cons.mp h).imp_right (List.mem_cons_of_mem first)
    · rcases List.mem_cons.mp h with rfl | h
      · exact Or.inr List.mem_cons_self
      · exact (ih h).imp_right (List.mem_cons_of_mem first)

theorem keys_put :
    (put key node entries).map (·.1) =
      if key ∈ entries.map (·.1) then entries.map (·.1) else entries.map (·.1) ++ [key] := by
  induction entries with
  | nil => simp [put]
  | cons first rest ih =>
    unfold put
    by_cases h : first.1 = key
    · simp [h]
    · have hne : ¬ key = first.1 := fun heq => h heq.symm
      simp only [if_neg h, List.map_cons, ih, List.mem_cons, hne, false_or]
      split <;> simp

theorem Orderly.put (h : Orderly entries) (hnode : node.WellFormed) :
    Orderly (put key node entries) := by
  constructor
  · rw [keys_put]
    split
    · exact h.distinct
    · next hkey =>
      rw [← List.concat_eq_append]
      exact h.distinct.concat hkey
  · intro entry hentry
    rcases mem_put hentry with rfl | hentry
    · exact hnode
    · exact h.wellFormed entry hentry

theorem Orderly.remove (h : Orderly entries) : Orderly (remove key entries) where
  distinct := (List.filter_sublist.map _).nodup h.distinct
  wellFormed entry hentry := h.wellFormed entry (List.mem_of_mem_filter hentry)

theorem WellFormed.orderly {implied : Bool} (h : (Node.table implied dotted entries).WellFormed) :
    Orderly entries := by
  cases h with
  | table _ _ hdistinct h => exact ⟨hdistinct, h⟩

theorem Orderly.table (h : Orderly entries) (implied dotted : Bool) :
    (Node.table implied dotted entries).WellFormed := .table implied dotted h.distinct h.wellFormed

theorem WellFormed.items {items : List Node} (h : (Node.tables items).WellFormed) :
    ∀ item ∈ items, item.WellFormed := by
  cases h with
  | tables h => exact h

theorem WellFormed.enter (h : node.WellFormed)
    (henter : enter? throughDots node = some (inner, dotted)) : Orderly inner := by
  unfold enter? at henter
  split at henter
  · cases henter
  · split at henter
    · cases henter
    · cases henter
      exact h.orderly
  · split at henter
    · next hlast =>
      cases henter
      exact (h.items _ (List.mem_of_getLast? hlast)).orderly
    · cases henter

theorem WellFormed.withEntries (h : node.WellFormed) (hentries : Orderly entries) :
    (node.withEntries entries).WellFormed := by
  unfold Node.withEntries
  split
  · exact h
  · exact hentries.table _ _
  · split
    · refine .tables fun item hitem => ?_
      rcases List.mem_append.mp hitem with hitem | hitem
      · exact h.items item (List.dropLast_subset _ hitem)
      · rw [List.mem_singleton.mp hitem]
        exact hentries.table _ _
    · exact h

/-- A change that keeps tables orderly keeps them so at the end of a path. -/
theorem Orderly.changeAt {change : Bool → List (String × Node) → Option (List (String × Node))}
    (hchange : ∀ {dotted inner result}, Orderly inner → change dotted inner = some result →
      Orderly result) {path : List String} (h : Orderly entries)
    (hresult : changeAt throughDots change path dotted entries = some result) :
    Orderly result := by
  induction path generalizing dotted entries result with
  | nil => exact hchange h hresult
  | cons key path ih =>
    simp only [Node.changeAt] at hresult
    have hnode : ((Node.find key entries).getD (.table true throughDots [])).WellFormed := by
      cases hfind : Node.find key entries with
      | none => exact orderly_nil.table _ _
      | some node => exact h.find hfind
    split at hresult
    · cases hresult
    · next inner dotted henter =>
      obtain ⟨changed, hchanged, rfl⟩ := Option.map_eq_some_iff.mp hresult
      exact h.put (hnode.withEntries (ih (hnode.enter henter) hchanged))

theorem Orderly.addValue {path : List String} {tree : Tree} (h : Orderly entries)
    (htree : tree.WellFormed) (hresult : addValue path key tree entries = some result) :
    Orderly result := by
  refine h.changeAt ?_ hresult
  intro dotted inner result hinner hadd
  split at hadd
  · cases hadd
  · split at hadd
    · cases hadd
    · next hfind =>
      cases hadd
      constructor
      · rw [List.map_append, List.map_singleton, ← List.concat_eq_append]
        exact hinner.distinct.concat (lookup_eq_none_iff_not_mem.mp hfind)
      · intro entry hentry
        rcases List.mem_append.mp hentry with hentry | hentry
        · exact hinner.wellFormed entry hentry
        · rw [List.mem_singleton.mp hentry]
          exact .leaf htree

end Operations

end Node

namespace Progress

open Node

/-- The tables of a document of which some lines have been read are orderly. -/
structure Orderly (progress : Progress) : Prop where
  root : Node.Orderly progress.root
  current : Node.Orderly progress.current

variable {progress next : Progress} {path : List String} {key : String}
  {entries : List (String × Node)}

theorem Orderly.close (h : progress.Orderly) (hclose : progress.close = some entries) :
    Node.Orderly entries := by
  unfold Progress.close at hclose
  split at hclose
  · cases hclose
    exact h.current
  · have hopened : (Node.opened progress.current).WellFormed := h.current.table _ _
    refine h.root.changeAt ?_ hclose
    intro dotted inner result hinner hresult
    split at hresult
    · split at hresult
      · next items hfind =>
        cases hresult
        refine hinner.put (.tables fun item hitem => ?_)
        rcases List.mem_append.mp hitem with hitem | hitem
        · exact (hinner.find hfind).items item hitem
        · rw [List.mem_singleton.mp hitem]
          exact hopened
      · cases hresult
        refine hinner.put (.tables fun item hitem => ?_)
        rw [List.mem_singleton.mp hitem]
        exact hopened
      · cases hresult
    · split at hresult
      · cases hresult
        exact hinner.put hopened
      · cases hresult
        exact hinner.put hopened
      · cases hresult

theorem orderly_entriesAt (h : Node.Orderly entries) : Node.Orderly (entriesAt path entries) := by
  induction path generalizing entries with
  | nil => exact h
  | cons key path ih =>
    unfold entriesAt
    split
    · next inner dotted henter =>
      obtain ⟨node, hfind, henter⟩ := Option.bind_eq_some_iff.mp henter
      exact ih ((h.find hfind).enter henter)
    · exact orderly_nil

theorem orderly_claim {rest : List (String × Node)} (h : Node.Orderly entries)
    (hclaim : claim key entries = some rest) : Node.Orderly rest := by
  unfold claim at hclaim
  split at hclaim
  · cases hclaim
    exact h
  · cases hclaim
    exact h.remove
  · cases hclaim

theorem Orderly.openTable (h : progress.Orderly)
    (hopen : progress.openTable path key = some next) : next.Orderly := by
  obtain ⟨root, hclose, hopen⟩ := Option.bind_eq_some_iff.mp hopen
  obtain ⟨rest, hrest, rfl⟩ := Option.map_eq_some_iff.mp hopen
  have hroot := h.close hclose
  refine ⟨hroot.changeAt orderly_claim hrest, ?_⟩
  dsimp only
  cases hbefore : (Node.find key (entriesAt path root)).bind (Node.enter? false) with
  | none => exact orderly_nil
  | some before =>
    obtain ⟨node, hfind, henter⟩ := Option.bind_eq_some_iff.mp hbefore
    exact ((orderly_entriesAt hroot).find hfind).enter henter

theorem Orderly.openRepeated (h : progress.Orderly)
    (hopen : progress.openRepeated path key = some next) : next.Orderly := by
  obtain ⟨root, hclose, hopen⟩ := Option.bind_eq_some_iff.mp hopen
  obtain ⟨rest, hrest, rfl⟩ := Option.map_eq_some_iff.mp hopen
  refine ⟨(h.close hclose).changeAt ?_ hrest, orderly_nil⟩
  intro dotted inner result hinner hresult
  split at hresult
  · cases hresult
    exact hinner.put (.tables (by simp))
  · cases hresult
    exact hinner
  · cases hresult

theorem Orderly.add {tree : Tree} (h : progress.Orderly) (htree : tree.WellFormed)
    (hadd : progress.add path key tree = some next) : next.Orderly := by
  obtain ⟨current, hcurrent, rfl⟩ := Option.map_eq_some_iff.mp hadd
  exact ⟨h.root, h.current.addValue htree hcurrent⟩

end Progress

section Values

variable {fuel depth : Nat} {text rest : List Char} {tree : Tree} {read : List Tree}
  {made : List (String × Node)}

theorem wellFormed_scalarOf (found : Found) : (scalarOf found).WellFormed := .scalar _

theorem dateTree_eq (written : List Char) :
    dateTree written = Tree.table [(dateKey, .ofText (String.ofList written))] := rfl

theorem wellFormed_dateTree (written : List Char) : (dateTree written).WellFormed := by
  rw [dateTree_eq]
  refine .table (List.nodup_singleton dateKey) fun field hfield => ?_
  rw [List.mem_singleton.mp hfield]
  exact Tree.wellFormed_ofText _

theorem wellFormed_of_orderly {entries : List (String × Node)} (h : Node.Orderly entries) :
    (Tree.record (Node.toEntries entries) true).WellFormed := by
  have htable := (h.table false false).toTree
  rwa [Node.toTree] at htable

theorem wellFormed_of_readNumber (h : readNumber text = some (tree, rest)) : tree.WellFormed := by
  unfold readNumber at h
  split at h
  · cases h
  · cases h
    exact wellFormed_dateTree _
  · split at h
    · cases h
    · cases h
      exact wellFormed_scalarOf _
    · obtain ⟨read, _, hread⟩ := Option.map_eq_some_iff.mp h
      cases hread
      exact wellFormed_scalarOf _

/-- What is read with the given fuel is well-formed: a value, an array after well-formed items, and
an inline table after orderly entries. -/
structure Sound (fuel : Nat) : Prop where
  value : ∀ {depth text tree rest}, value fuel depth text = some (tree, rest) → tree.WellFormed
  array : ∀ {depth read text tree rest}, (∀ item ∈ read, item.WellFormed) →
    arrayItems fuel depth read text = some (tree, rest) → tree.WellFormed
  inlineTable : ∀ {depth made text tree rest}, Node.Orderly made →
    inlineEntries fuel depth made text = some (tree, rest) → tree.WellFormed

theorem Sound.zero : Sound 0 where
  value h := by simp [Toml.value] at h
  array _ h := by simp [arrayItems] at h
  inlineTable _ h := by simp [inlineEntries] at h

theorem Sound.value_succ (hsound : Sound fuel)
    (h : Toml.value (fuel + 1) depth text = some (tree, rest)) : tree.WellFormed := by
  unfold Toml.value at h
  split at h
  · split at h
    · cases h
    · obtain ⟨after, _, h⟩ := Option.bind_eq_some_iff.mp h
      exact hsound.array (by simp) h
  · split at h
    · cases h
    · split at h
      · cases h
        exact wellFormed_of_orderly Node.orderly_nil
      · exact hsound.inlineTable Node.orderly_nil h
  · obtain ⟨content, _, h⟩ := Option.map_eq_some_iff.mp h
    cases h
    exact Tree.wellFormed_ofText _
  · obtain ⟨content, _, h⟩ := Option.map_eq_some_iff.mp h
    cases h
    exact Tree.wellFormed_ofText _
  · cases h
    exact wellFormed_scalarOf _
  · cases h
    exact wellFormed_scalarOf _
  · cases h
    exact wellFormed_scalarOf _
  · cases h
    exact wellFormed_scalarOf _
  · split at h
    · exact wellFormed_of_readNumber h
    · cases h
  · cases h

theorem Sound.array_succ (hsound : Sound fuel) (hread : ∀ item ∈ read, item.WellFormed)
    (h : arrayItems (fuel + 1) depth read text = some (tree, rest)) : tree.WellFormed := by
  unfold arrayItems at h
  split at h
  · cases h
    exact .sequence fun item hitem => hread item (List.mem_reverse.mp hitem)
  · obtain ⟨⟨item, afterItem⟩, hitem, h⟩ := Option.bind_eq_some_iff.mp h
    obtain ⟨after, _, h⟩ := Option.bind_eq_some_iff.mp h
    have hitems : ∀ other ∈ item :: read, other.WellFormed :=
      List.forall_mem_cons.mpr ⟨hsound.value hitem, hread⟩
    split at h
    · obtain ⟨next, _, h⟩ := Option.bind_eq_some_iff.mp h
      exact hsound.array hitems h
    · cases h
      exact .sequence fun other hother => hitems other (List.mem_reverse.mp hother)
    · cases h

theorem Sound.inlineTable_succ (hsound : Sound fuel) (hmade : Node.Orderly made)
    (h : inlineEntries (fuel + 1) depth made text = some (tree, rest)) : tree.WellFormed := by
  unfold inlineEntries at h
  obtain ⟨⟨⟨path, key⟩, afterKey⟩, _, h⟩ := Option.bind_eq_some_iff.mp h
  obtain ⟨afterSign, _, h⟩ := Option.bind_eq_some_iff.mp h
  obtain ⟨⟨value, afterValue⟩, hvalue, h⟩ := Option.bind_eq_some_iff.mp h
  obtain ⟨entries, hentries, h⟩ := Option.bind_eq_some_iff.mp h
  have horderly := hmade.addValue (hsound.value hvalue) hentries
  split at h
  · exact hsound.inlineTable horderly h
  · cases h
    exact wellFormed_of_orderly horderly
  · cases h

theorem sound (fuel : Nat) : Sound fuel := by
  induction fuel with
  | zero => exact .zero
  | succ fuel ih => exact ⟨ih.value_succ, ih.array_succ, ih.inlineTable_succ⟩

end Values

section Lines

variable {fuel : Nat} {progress next : Progress} {text after : List Char}

theorem Progress.Orderly.readLine (h : progress.Orderly)
    (hline : readLine progress text = some (next, after)) : next.Orderly := by
  unfold Toml.readLine at hline
  split at hline
  · obtain ⟨_, _, hline⟩ := Option.map_eq_some_iff.mp hline
    cases hline
    exact h
  · cases hline
    exact h
  · obtain ⟨_, _, hline⟩ := Option.map_eq_some_iff.mp hline
    cases hline
    exact h
  · obtain ⟨⟨⟨path, key⟩, afterKey⟩, _, hline⟩ := Option.bind_eq_some_iff.mp hline
    obtain ⟨_, _, hline⟩ := Option.bind_eq_some_iff.mp hline
    obtain ⟨_, _, hline⟩ := Option.bind_eq_some_iff.mp hline
    obtain ⟨_, _, hline⟩ := Option.bind_eq_some_iff.mp hline
    obtain ⟨opened, hopened, hline⟩ := Option.map_eq_some_iff.mp hline
    cases hline
    exact h.openRepeated hopened
  · obtain ⟨⟨⟨path, key⟩, afterKey⟩, _, hline⟩ := Option.bind_eq_some_iff.mp hline
    obtain ⟨_, _, hline⟩ := Option.bind_eq_some_iff.mp hline
    obtain ⟨_, _, hline⟩ := Option.bind_eq_some_iff.mp hline
    obtain ⟨opened, hopened, hline⟩ := Option.map_eq_some_iff.mp hline
    cases hline
    exact h.openTable hopened
  · obtain ⟨⟨⟨path, key⟩, afterKey⟩, _, hline⟩ := Option.bind_eq_some_iff.mp hline
    obtain ⟨_, _, hline⟩ := Option.bind_eq_some_iff.mp hline
    obtain ⟨⟨tree, afterValue⟩, hvalue, hline⟩ := Option.bind_eq_some_iff.mp hline
    obtain ⟨_, _, hline⟩ := Option.bind_eq_some_iff.mp hline
    obtain ⟨added, hadded, hline⟩ := Option.map_eq_some_iff.mp hline
    cases hline
    exact h.add ((sound _).value hvalue) hadded

theorem Progress.Orderly.readLines (h : progress.Orderly)
    (hlines : readLines fuel progress text = some next) : next.Orderly := by
  induction fuel generalizing progress text with
  | zero => simp [Toml.readLines] at hlines
  | succ fuel ih =>
    unfold Toml.readLines at hlines
    split at hlines
    · cases hlines
      exact h
    · obtain ⟨⟨following, after⟩, hline, hlines⟩ := Option.bind_eq_some_iff.mp hlines
      exact ih (h.readLine hline) hlines

/-- A text that can be read delivers a well-formed table. -/
theorem exists_table_of_ended {text : String} (h : (Toml.read text).ended = true) :
    ∃ fields, Toml.read text = ⟨Tree.table fields, true⟩ ∧ (Tree.table fields).WellFormed := by
  unfold Toml.read at h ⊢
  split at h
  · cases h
  · next entries hentries =>
    obtain ⟨progress, hlines, hclose⟩ := Option.bind_eq_some_iff.mp hentries
    have hstart : Progress.Orderly {} := ⟨Node.orderly_nil, Node.orderly_nil⟩
    have horderly := (hstart.readLines hlines).close hclose
    have hwhole := wellFormed_of_orderly horderly
    rw [Node.toEntries_eq] at hwhole ⊢
    exact ⟨_, rfl, hwhole⟩

theorem wellFormed_of_read {text : String} {tree : Tree} (h : Toml.read text = ⟨tree, true⟩) :
    tree.WellFormed := by
  obtain ⟨fields, hread, hfields⟩ := exists_table_of_ended (congrArg Document.ended h)
  rw [h] at hread
  cases hread
  exact hfields

end Lines

end Toml

end TestSelection
