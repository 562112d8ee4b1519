import TestSelection.Proofs.CommitListings
import TestSelection.Proofs.ComparedTrees

/-!
What differs from a revision. The files that are read are exactly those at whose paths the directory
of the revision and that of the last commit hold different entries. None is lost and none is
invented when deleted and new files are joined to files that moved, or when the two commits are
exchanged.
-/

namespace TestSelection

namespace RepositoryLibrary

variable {library : RepositoryLibrary} {contents : Contents library.Tree} {root : String}
  {handle : library.Handle} {text : String} {old new : library.Tree} {paths : List String}

/-- The revision `text` stands for the directory `old`, and the last commit for `new`. -/
structure Stands (library : RepositoryLibrary) (handle : library.Handle) (text : String)
    (old new : library.Tree) : Prop where
  revision : ∃ object, library.revision handle text = .ok object ∧
    library.objectTree handle object = .ok old
  head : ∃ head, library.head handle = .ok head ∧ library.referenceTree handle head = .ok new

theorem sinceRevision_eq_ok_iff : library.sinceRevision handle text = .ok paths ↔
    ∃ old new, library.Stands handle text old new ∧
      library.differing handle old new = .ok paths := by
  constructor
  · intro h
    unfold sinceRevision at h
    split at h
    · cases h
    · next object hobject =>
      obtain ⟨old, hold, h⟩ := bind_eq_ok_iff.mp (mapError_eq_ok_iff.mp h)
      obtain ⟨head, hhead, h⟩ := bind_eq_ok_iff.mp h
      obtain ⟨new, hnew, h⟩ := bind_eq_ok_iff.mp h
      exact ⟨old, new, ⟨⟨object, hobject, hold⟩, ⟨head, hhead, hnew⟩⟩, h⟩
  · intro h
    obtain ⟨old, new, ⟨⟨object, hobject, hold⟩, ⟨head, hhead, hnew⟩⟩, h⟩ := h
    simp only [sinceRevision, hobject, hold, hhead, hnew, Except.bind, h, Except.mapError]

theorem reader_eq_ok_iff {baseline : Baseline} (hopen : library.discover root = .ok handle) :
    (library.reader root baseline).value = .ok paths ↔
      (library.changed handle baseline).value = .ok paths := by
  simp only [reader, hopen, Logged.bind]
  cases (library.changed handle baseline).value <;> simp [Logged.pure]

theorem reader_revision_eq_ok_iff (hopen : library.discover root = .ok handle) :
    (library.reader root (.revision text)).value = .ok paths ↔
      ∃ old new, library.Stands handle text old new ∧
        library.differing handle old new = .ok paths :=
  (reader_eq_ok_iff hopen).trans sinceRevision_eq_ok_iff

/-- The files that differ from a revision are those at whose paths its directory and that of the
last commit hold different entries. Whatever is found to have moved, they are the same and have both
paths of everything that moved. They are the same when the two commits are exchanged, and there are
none where both hold the same. The empty path is not among them, and neither is that of a missing
side. -/
theorem revision_lists_differences (hlibrary : library.ComparesTrees contents)
    (hopen : library.discover root = .ok handle) (hstands : library.Stands handle text old new)
    (hold : WellNamed contents old) (hnew : WellNamed contents new)
    (hcomparable : library.Comparable handle old new) :
    ∃ paths, (library.reader root (.revision text)).value = .ok paths ∧ paths.Pairwise (· < ·) ∧
      (∀ shown, shown ∈ paths ↔
        ∃ path, Text.ofBytes path = shown ∧ HoldApart contents old new path) ∧
      (∀ found deltas, library.compare handle old new = .ok found →
        Delta.Moved (library.deltas found) deltas → Delta.texts deltas = paths ∧
          ∀ path, Delta.HaveSide deltas path → ¬ Delta.IsPlaceholder path →
            Text.ofBytes path ∈ paths) ∧
      (∀ otherRoot otherHandle otherText before after,
        library.discover otherRoot = .ok otherHandle →
        library.Stands otherHandle otherText before after → WellNamed contents before →
        WellNamed contents after → HoldAlike contents before new → HoldAlike contents after old →
        library.Comparable otherHandle before after →
          (library.reader otherRoot (.revision otherText)).value = .ok paths) ∧
      (HoldAlike contents old new → paths = []) ∧ "" ∉ paths ∧ "/dev/null" ∉ paths := by
  obtain ⟨found, merged, hfinds⟩ := hcomparable
  have hmem (shown : String) : shown ∈ Delta.texts (library.deltas merged) ↔
      ∃ path, Text.ofBytes path = shown ∧ HoldApart contents old new path :=
    hlibrary.mem_texts_iff hold hnew hfinds
  have hstated (shown : String) (h : shown ∈ Delta.texts (library.deltas merged)) :
      Delta.isStated shown := by
    obtain ⟨path, rfl, hapart⟩ := (hmem shown).mp h
    exact (hapart.beginsWithName hold hnew).isStated
  refine ⟨Delta.texts (library.deltas merged), ?_, Ascending.pairwise_ofList _, hmem, ?_, ?_, ?_,
    ?_, ?_⟩
  · exact (reader_revision_eq_ok_iff hopen).mpr
      ⟨old, new, hstands, differing_eq_ok_iff.mpr ⟨found, merged, hfinds, rfl⟩⟩
  · intro found' deltas hfound hmoved
    obtain rfl : found = found' := Except.ok.inj (hfinds.compare.symm.trans hfound)
    refine ⟨hmoved.texts_eq.symm.trans (hlibrary.joined hfinds.joined).texts_eq, ?_⟩
    intro path hside hfile
    exact (hmem _).mpr
      ⟨path, rfl, hlibrary.holdApart_of_moved hold hnew hfound hmoved hside hfile⟩
  · intro otherRoot otherHandle otherText before after hother hexchanged hbefore hafter hlike hsame
      hothers
    obtain ⟨others, joined, hjoins⟩ := hothers
    refine (reader_revision_eq_ok_iff hother).mpr
      ⟨before, after, hexchanged, differing_eq_ok_iff.mpr ⟨others, joined, hjoins, ?_⟩⟩
    apply Ascending.eq_of_mem_iff (Ascending.pairwise_ofList _) (Ascending.pairwise_ofList _)
    intro shown
    change shown ∈ Delta.texts _ ↔ shown ∈ Delta.texts _
    rw [hmem, hlibrary.mem_texts_iff hbefore hafter hjoins]
    simp only [hlike.holdApart_iff hsame, holdApart_comm]
  · intro hsame
    apply List.eq_nil_iff_forall_not_mem.mpr
    intro shown hshown
    obtain ⟨path, _, hapart⟩ := (hmem shown).mp hshown
    exact hsame.not_holdApart hapart
  · intro hempty
    exact absurd (hstated "" hempty) (by decide)
  · intro habsent
    exact absurd (hstated "/dev/null" habsent) (by decide)

end RepositoryLibrary

/-!
A shop. Its root has files and the directory `src`. The revision `v1` has `src/Cart.java` and
another text in `src/Orders.java`; the last commit on the branch `main` has moved the first of these
to `src/Basket.java`. The branch `main` is compared with `v1` and the branch `spare` with none.
There are also a working directory on no branch, and one without commits. All four have the same
index and the same working files.
-/

namespace Shop

open StoredTree

/-- The name that forty digits write. -/
def named (digits : String) : ObjectId := (ObjectId.ofHex? (Text.bytes digits)).getD .zero

/-- A file with the name of its content. -/
def file (path digits : String) : Bytes × FileEntry := (Text.bytes path, ⟨.regular, named digits⟩)

def readme : Bytes × FileEntry := file "README.md" "d469ae720d5be38d9bb49bb751e4d461ce79cf0e"

def log : Bytes × FileEntry := file "build.log" "c06c82c72e69e5a1b60e61ec885b05eafb4eef0a"

def prices : Bytes × FileEntry := file "prices.txt" "831016405726fb81abf66262f3451767f747bf6c"

def stock : Bytes × FileEntry := file "stock.txt" "7fd07bd6b983aaaf682105f6edbcd00dde4e7a7b"

def till : Bytes × FileEntry := file "till.txt" "0ebdb912028d96a7de09f5ff5ed21380711b2f4e"

/-- A file `Cart.java`, under any name. -/
def cart (path : String) : Bytes × FileEntry :=
  file path "68494c2dc42d1db53a96a06f2683388c0f13b625"

/-- The file `Orders.java`, which counts orders since the last commit. -/
def countedOrders (path : String) : Bytes × FileEntry :=
  file path "6c349a5be0968ff19596224978b6dfec5adaf214"

def oldSource : List TreeEntry :=
  [cart "Cart.java", file "Orders.java" "9bc77c8eda69da334d486113c08c7c6db64767a9"]

def newSource : List TreeEntry := [cart "Basket.java", countedOrders "Orders.java"]

/-- Directories are stored under the digests of what they hold. -/
def read (id : ObjectId) : Except RepositoryFault (List TreeEntry) :=
  match [oldSource, newSource].find? fun entries => StoredObject.treeId entries = id with
  | some entries => .ok entries
  | none => .error (.objectMissing id)

/-- A root directory, where `source` is the name under which the directory `src` is stored. -/
def rootWith (source : ObjectId) : StoredTree :=
  ⟨read, [readme, log, prices, (Text.bytes "src", ⟨.directory, source⟩), stock, till]⟩

def oldId : ObjectId := named "b11f74c3cf9d4c049f7467a30deddb65b28a8996"

def newId : ObjectId := named "039da4e7d26d84eac5ad9f9817b63ea648ebe224"

def before : StoredTree := rootWith oldId

def after : StoredTree := rootWith newId

/-- All files, with those of the directory `src`. -/
def filesWith (source : List TreeEntry) : Snapshot :=
  [readme, log, prices] ++ source.map (fun item => (Text.bytes "src/" ++ item.1, item.2)) ++
    [stock, till]

inductive Place
  | main
  | spare
  | detached
  | unborn

/-- In the index `stock.txt` has moved to `store.txt`, `till.txt` has been deleted, and
`src/Orders.java` has got dates. -/
def staged : Snapshot :=
  [readme, log, prices, cart "src/Basket.java",
    file "src/Orders.java" "303991734acaea983e3569e6ba9c066fbd269522",
    file "store.txt" "7fd07bd6b983aaaf682105f6edbcd00dde4e7a7b"]

/-- On the disk `till.txt` is still there, `src/Orders.java` is that of the last commit again, and
`prices.txt` has moved to `tariff.txt`. The files `README.md` and `build.log` have changed, and
`notes/today/plan.txt` and `out/server.log` are new. -/
def working : Snapshot :=
  [file "README.md" "f097bd642b25114353176af6755ef693a04aa503",
    file "build.log" "5d688387303195038a551280c9b02e0b682d384d",
    file "notes/today/plan.txt" "6a21f45d5e05d329e4f57b7b5750577bc5df1092",
    file "out/server.log" "58af623208c1c200741287dc71e8bb3683c8499e",
    cart "src/Basket.java", countedOrders "src/Orders.java",
    file "store.txt" "7fd07bd6b983aaaf682105f6edbcd00dde4e7a7b",
    file "tariff.txt" "831016405726fb81abf66262f3451767f747bf6c", till]

/-- The files that are logs are ignored. -/
def isIgnored (path : Bytes) : Bool := (Text.bytes ".log").isSuffixOf path

def listings (place : Place) : FileListings where
  committed :=
    match place with
    | .unborn => []
    | _ => filesWith newSource
  staged := staged
  conflicts := []
  working := working
  repositories := []
  isKept path := !isIgnored path
  isAssumed _ := false
  keepsModes := true

def main : String := "refs/heads/main"

def spare : String := "refs/heads/spare"

def remote : String := "refs/remotes/origin/main"

/-- The library that knows the four working directories. -/
def library : RepositoryLibrary where
  Handle := Place
  Reference := String
  Object := StoredTree
  Tree := StoredTree
  Comparison := List FileChange
  discover root :=
    match root with
    | "/shop" => .ok .main
    | "/spare" => .ok .spare
    | "/detached" => .ok .detached
    | "/unborn" => .ok .unborn
    | _ => .error ⟨.notFound, s!"could not find repository at '{root}'"⟩
  statuses place options := .ok ((listings place).states options)
  head place :=
    match place with
    | .main => .ok main
    | .spare => .ok spare
    | .detached => .ok "HEAD"
    | .unborn => .error ⟨.unbornBranch, s!"reference '{main}' not found"⟩
  isBranch reference := "refs/heads/".toList.isPrefixOf reference.toList
  branchName _ reference := .ok (some (reference.drop "refs/heads/".length).toString)
  upstream _ branch :=
    if branch = main then .ok remote
    else .error ⟨.notFound, "config value 'branch.spare.remote' was not found"⟩
  referenceTree _ reference := .ok (if reference = remote then before else after)
  revision _ text :=
    if text = "v1" then .ok before else .error ⟨.notFound, s!"revspec '{text}' not found"⟩
  objectTree _ object := .ok object
  compare _ old new := (old.changesTo new).mapError fun fault => ⟨.other, fault.message⟩
  joined found := .ok (FileChange.joined found)
  deltas found := found.map FileChange.delta

theorem comparesTrees : library.ComparesTrees contents where
  compare hold hnew h := lists_changesTo hold hnew (mapError_eq_ok_iff.mp h)
  joined h := Except.ok.inj h ▸ FileChange.moved_joined _

theorem id_oldSource : StoredObject.treeId oldSource = oldId := by decide +kernel

theorem id_newSource : StoredObject.treeId newSource = newId := by decide +kernel

theorem read_oldId : read oldId = .ok oldSource := by
  rw [read, List.find?_cons_of_pos (by simpa using id_oldSource)]

theorem read_newId : read newId = .ok newSource := by
  have hother : ¬ StoredObject.treeId oldSource = newId := by
    rw [id_oldSource]
    decide
  rw [read, List.find?_cons_of_neg (by simpa using hother),
    List.find?_cons_of_pos (by simpa using id_newSource)]

section Root

variable {id : ObjectId} {source : List TreeEntry} (hread : read id = .ok source)

include hread

/-- The root directory holds the source files under the name that stands for them. -/
theorem snapshot_rootWith (hsource : ∀ item ∈ source, item.2.mode ≠ .directory)
    (hlisted : Listed (filesWith source)) :
    (rootWith id).snapshot = .ok (filesWith source) := by
  have hlast : filesBelow read (4095 + 1) [] [stock, till] = .ok [stock, till] :=
    filesBelow_of_files (by decide)
  have hdirectory : filesBelow read (4095 + 1) []
      [(Text.bytes "src", ⟨.directory, id⟩), stock, till] =
      .ok (source.map (fun item => (Text.bytes "src/" ++ item.1, item.2)) ++ [stock, till]) :=
    filesBelow_cons_directory rfl hread (filesBelow_of_files hsource) hlast
  have hroot : filesBelow read (4095 + 1) [] (rootWith id).entries = .ok (filesWith source) :=
    filesBelow_cons_file (by decide)
      (filesBelow_cons_file (by decide) (filesBelow_cons_file (by decide) hdirectory))
  exact map_eq_ok_iff.mpr ⟨_, hroot, ordered_of_listed hlisted⟩

theorem contents_rootWith : contents (rootWith id) =
    [(readme.1, .file readme.2), (log.1, .file log.2), (prices.1, .file prices.2),
      (Text.bytes "src", .directory ⟨read, source⟩), (stock.1, .file stock.2),
      (till.1, .file till.2)] := by
  simp [contents, rootWith, readme, log, prices, stock, till, file, hread, Except.toOption]

theorem wellNamed_rootWith (hinner : WellNamed contents ⟨read, source⟩) :
    WellNamed contents (rootWith id) := by
  have hroot := contents_rootWith hread
  have hmap : (contents (rootWith id)).map Prod.fst =
      [readme.1, log.1, prices.1, Text.bytes "src", stock.1, till.1] := by
    rw [hroot]
    rfl
  have hnames : ∀ name ∈ [readme.1, log.1, prices.1, Text.bytes "src", stock.1, till.1],
      name ≠ [] ∧ FileSystem.slash ∉ name := by decide
  refine .mk ?_ ?_ ?_
  · intro item hitem
    have hname := List.mem_map_of_mem (f := Prod.fst) hitem
    rw [hmap] at hname
    exact hnames item.1 hname
  · rw [hmap]
    decide
  · intro name inner hmem
    rw [hroot] at hmem
    simp at hmem
    obtain ⟨_, rfl⟩ := hmem
    exact hinner

end Root

theorem snapshot_before : before.snapshot = .ok (filesWith oldSource) :=
  snapshot_rootWith read_oldId (by decide) (by unfold Listed; decide)

theorem snapshot_after : after.snapshot = .ok (filesWith newSource) :=
  snapshot_rootWith read_newId (by decide) (by unfold Listed; decide)

theorem wellNamed_before : WellNamed contents before :=
  wellNamed_rootWith read_oldId (wellNamed_of_files (by decide) (by decide) (by decide))

theorem wellNamed_after : WellNamed contents after :=
  wellNamed_rootWith read_newId (wellNamed_of_files (by decide) (by decide) (by decide))

/-- The changes from one directory to the other one. -/
def changes (old new : List TreeEntry) : List FileChange :=
  FileChange.between (filesWith old) (filesWith new)

/-- Directories whose files are known are compared. -/
theorem compare_eq {place : Place} {old new : StoredTree} {held holds : Snapshot}
    (hold : old.snapshot = .ok held) (hnew : new.snapshot = .ok holds) :
    library.compare place old new = .ok (FileChange.between held holds) :=
  mapError_eq_ok_iff.mpr (changesTo_eq_ok hold hnew)

theorem compare_shop : library.compare .main before after = .ok (changes oldSource newSource) :=
  compare_eq snapshot_before snapshot_after

theorem comparable : library.Comparable .main before after := ⟨_, _, compare_shop, rfl⟩

theorem stands : library.Stands .main "v1" before after where
  revision := ⟨before, rfl, rfl⟩
  head := ⟨main, rfl, rfl⟩

theorem holdApart_iff {path : Bytes} : HoldApart contents before after path ↔
    (filesWith oldSource).lookup path ≠ (filesWith newSource).lookup path :=
  (lookup_ne_iff_holdApart wellNamed_before wellNamed_after snapshot_before snapshot_after).symm

/-- The file that has moved is found, and it is told by both of its paths. -/
theorem revision_lists_differences_in_shop :
    (library.reader "/shop" (.revision "v1")).value =
        .ok ["src/Basket.java", "src/Cart.java", "src/Orders.java"] ∧
      HoldApart contents before after (Text.bytes "src/Cart.java") ∧
      ⟨some (Text.bytes "src/Cart.java"), some (Text.bytes "src/Basket.java")⟩ ∈
        (FileChange.joined (changes oldSource newSource)).map FileChange.delta := by
  have hopen : library.discover "/shop" = .ok .main := rfl
  obtain ⟨paths, hpaths, _, _, hmoved, _⟩ :=
    RepositoryLibrary.revision_lists_differences comparesTrees hopen stands wellNamed_before
      wellNamed_after comparable
  have htexts : Delta.texts ((changes oldSource newSource).map FileChange.delta) =
      ["src/Basket.java", "src/Cart.java", "src/Orders.java"] := by decide +kernel
  have heq : paths = ["src/Basket.java", "src/Cart.java", "src/Orders.java"] :=
    (hmoved _ _ compare_shop (.none (.refl _))).1.symm.trans htexts
  exact ⟨heq ▸ hpaths, holdApart_iff.mpr (by decide), by decide +kernel⟩

end Shop

end TestSelection
