import Mathlib.Data.List.Basic
import TestSelection.FileSystem.Basic
import TestSelection.Proofs.EncodedTexts
import TestSelection.Proofs.UpwardPaths

/-!
Walks where there are no links. Such a walk leads where its names say: each name one directory
further down, two dots one further up. It can be cut at any name, and what it goes through are
directories. So the text of a path that leads somewhere says of every directory above it, as the
text has it, where that one is.
-/

namespace TestSelection

namespace FileSystem

/-- No place holds a link. -/
def LinkFree (files : FileSystem) : Prop :=
  ∀ place target, files.node? place ≠ some (.link target)

/-- Where a name leads to from a place, if there is no link in between. -/
def follow (place : Location) (name : Bytes) : Location :=
  if name = [dot] then place
  else if name = [dot, dot] then place.dropLast
  else place ++ [name]

/-- A name that leads one directory further down. -/
structure Plain (name : Bytes) : Prop where
  ne_dot : name ≠ [dot]
  ne_dots : name ≠ [dot, dot]
  length_le : name.length ≤ nameLimit

variable {files : FileSystem} {throughLast : Bool} {links : Nat} {place middle target : Location}
variable {name : Bytes} {names more : List Bytes}

/-- One step of a walk where nothing is a link. -/
theorem walk_cons (hfree : files.LinkFree) : files.walk throughLast links place (name :: names) =
    if files.node? place ≠ some .directory then .error .notDirectory
    else if name = [dot] then files.walk throughLast links place names
    else if name = [dot, dot] then files.walk throughLast links place.dropLast names
    else if nameLimit < name.length then .error .nameTooLong
    else if (files.node? (place ++ [name])).isSome then
      files.walk throughLast links (place ++ [name]) names
    else .error .notFound := by
  rw [walk]
  cases hnode : files.node? (place ++ [name]) with
  | none => rfl
  | some node =>
    cases node with
    | link target => exact absurd hnode (hfree _ target)
    | file | directory => rfl

theorem walk_append (hfree : files.LinkFree) : files.walk throughLast links place (names ++ more) =
    match files.walk throughLast links place names with
    | .error fault => .error fault
    | .ok middle => files.walk throughLast links middle more := by
  induction names generalizing place with
  | nil => rw [List.nil_append, walk]
  | cons name rest ih =>
    rw [List.cons_append, walk_cons hfree, walk_cons hfree]
    split
    · rfl
    split
    · exact ih
    split
    · exact ih
    split
    · rfl
    split
    · exact ih
    · rfl

theorem walk_eq_ok_of_append (hfree : files.LinkFree)
    (h : files.walk throughLast links place (names ++ more) = .ok target) :
    ∃ middle, files.walk throughLast links place names = .ok middle ∧
      files.walk throughLast links middle more = .ok target := by
  rw [walk_append hfree] at h
  split at h
  · cases h
  · next middle hmiddle => exact ⟨middle, hmiddle, h⟩

/-- A walk goes on from directories only. -/
theorem directory_of_walk (h : files.walk throughLast links place (name :: names) = .ok target) :
    files.node? place = some .directory := by
  by_cases hplace : files.node? place = some .directory
  · exact hplace
  · rw [walk, if_pos hplace] at h
    cases h

theorem eq_follow_of_walk (hfree : files.LinkFree)
    (h : files.walk throughLast links place names = .ok target) :
    target = names.foldl follow place := by
  induction names generalizing place with
  | nil =>
    rw [walk] at h
    exact (Except.ok.inj h).symm
  | cons name rest ih =>
    rw [walk_cons hfree] at h
    rw [List.foldl_cons, follow]
    split at h
    · cases h
    split at h
    · next hdot => rw [if_pos hdot, ih h]
    next hdot =>
    split at h
    · next hdots => rw [if_neg hdot, if_pos hdots, ih h]
    next hdots =>
    rw [if_neg hdot, if_neg hdots]
    split at h
    · cases h
    split at h
    · exact ih h
    · cases h

/-- From a directory, a walk along a plain name leads to what stands under it. -/
theorem walk_plain (hfree : files.LinkFree) (hplace : files.node? place = some .directory)
    (hname : Plain name) : files.walk throughLast links place [name] =
      if (files.node? (place ++ [name])).isSome then .ok (place ++ [name])
      else .error .notFound := by
  rw [walk_cons hfree, if_neg (not_not_intro hplace), if_neg hname.ne_dot, if_neg hname.ne_dots,
    if_neg (Nat.not_lt.mpr hname.length_le), walk]

end FileSystem

namespace Text

theorem bytes_ofList (text : List Char) :
    bytes (String.ofList text) = text.flatMap String.utf8EncodeChar := by
  rw [bytes_eq, String.toList_ofList]

theorem eq_of_bytes_eq {left right : String} (h : bytes left = bytes right) : left = right := by
  have hleft := ofUtf8?_bytes left
  rw [h, ofUtf8?_bytes] at hleft
  exact (Option.some.inj hleft).symm

/-- A text ends with a character of one byte if its bytes end with this byte. -/
theorem getLast?_of_bytes {mark : Char} (hmark : mark.toNat < 0x80) {text : List Char}
    (h : (text.flatMap String.utf8EncodeChar).getLast? = some (UInt8.ofNat mark.toNat)) :
    text.getLast? = some mark := by
  rcases List.eq_nil_or_concat text with rfl | ⟨before, c, rfl⟩
  · cases h
  · rw [List.concat_eq_append, List.flatMap_append, List.flatMap_singleton] at h
    have hne : String.utf8EncodeChar c ≠ [] := by simp
    rw [List.getLast?_append_of_ne_nil _ hne] at h
    rw [List.concat_eq_append, List.getLast?_concat,
      eq_of_mem_encoded hmark (List.mem_of_getLast? h)]

end Text

namespace Path

/-- The components of a path, single dots among them. -/
def componentsOf (text : List Char) : List (List Char) :=
  (text.splitOn '/').filter fun piece => piece ≠ []

variable {before after text base name rest path directory : List Char} {count : Nat}

theorem componentsOf_append (before after : List Char) :
    componentsOf (before ++ '/' :: after) = componentsOf before ++ componentsOf after := by
  rw [componentsOf, List.splitOn_append_cons_self, List.filter_append]
  rfl

theorem stepsOf_eq_filter (text : List Char) :
    stepsOf text = (componentsOf text).filter fun piece => piece ≠ ['.'] := by
  rw [stepsOf, componentsOf, List.filter_filter]
  congr 1
  funext piece
  simp [Bool.and_comm]

/-- Where a component leads to from a place, if there is no link in between. -/
def follow (place : Location) (component : List Char) : Location :=
  FileSystem.follow place (Text.bytes (String.ofList component))

theorem follow_dot (place : Location) : follow place ['.'] = place := rfl

/-- Single dots lead nowhere. -/
theorem foldl_follow_stepsOf (text : List Char) (place : Location) :
    (stepsOf text).foldl follow place = (componentsOf text).foldl follow place := by
  rw [stepsOf_eq_filter, List.foldl_filter]
  congr 1
  funext place component
  by_cases hdot : component = ['.']
  · rw [hdot, follow_dot]
    rfl
  · rw [if_pos (by simpa using hdot)]

/-- The place that the text of an absolute path names. -/
def placeOf (text : List Char) : Location := (stepsOf text).foldl follow []

theorem placeOf_eq (text : List Char) : placeOf text =
    ((componentsOf text).map fun component => Text.bytes (String.ofList component)).foldl
      FileSystem.follow [] := by
  rw [placeOf, foldl_follow_stepsOf, List.foldl_map]
  rfl

end Path

namespace FileSystem

variable {files : FileSystem}

/-- A walk along a text goes through its components, and asks for a directory if a slash ends it. -/
theorem namesOf_bytes (text : String) :
    ∃ final, (final = [] ∨ final = [[dot]] ∧ text.toList.getLast? = some '/') ∧
      namesOf (Text.bytes text) =
        ((Path.componentsOf text.toList).map fun component =>
          Text.bytes (String.ofList component)) ++ final := by
  have hslash : UInt8.ofNat '/'.toNat = slash := by decide
  have hnames : ((Text.bytes text).splitOn slash).filter (fun name => !name.isEmpty) =
      (Path.componentsOf text.toList).map fun component =>
        Text.bytes (String.ofList component) := by
    rw [Text.bytes_eq, ← hslash, Text.splitOn_encoded (by decide), List.filter_map,
      Path.componentsOf]
    have hempty (piece : List Char) :
        (!(piece.flatMap String.utf8EncodeChar).isEmpty) = decide (piece ≠ []) := by
      cases piece <;> simp
    simp only [Function.comp_def, hempty, Text.bytes_ofList]
  unfold namesOf
  simp only [hnames]
  split
  · next hfinal =>
    rw [Bool.and_eq_true, decide_eq_true_eq, Text.bytes_eq, ← hslash] at hfinal
    exact ⟨[[dot]], .inr ⟨rfl, Text.getLast?_of_bytes (by decide) hfinal.1⟩, rfl⟩
  · exact ⟨[], .inl rfl, (List.append_nil _).symm⟩

theorem isAbsolute_bytes {path : String} (h : Path.isAbsolute path = true) :
    isAbsolute (Text.bytes path) = true := by
  rw [Path.isAbsolute, String.startsWith_string_iff] at h
  obtain ⟨rest, hrest⟩ := h
  rw [isAbsolute, Text.bytes_eq, ← hrest]
  rfl

/-- The file system can be asked for an absolute path if its bytes are in order. -/
theorem locate_eq_walk {path : String} (habsolute : Path.isAbsolute path = true)
    (hzero : 0 ∉ Text.bytes path) (hlength : (Text.bytes path).length < pathLimit) :
    files.locate path = files.walk true linkLimit [] (namesOf (Text.bytes path)) := by
  have hhead := isAbsolute_bytes habsolute
  have hne : (Text.bytes path).isEmpty = false := by
    cases hbytes : Text.bytes path with
    | nil =>
      rw [hbytes] at hhead
      cases hhead
    | cons => rfl
  rw [locate, locateFrom, if_neg (by simpa using hzero), if_neg (by simp [hne]),
    if_neg (Nat.not_le.mpr hlength), if_pos hhead]

theorem bytes_of_locate {path : String} (h : files.locate path = .ok place) :
    0 ∉ Text.bytes path ∧ (Text.bytes path).length < pathLimit := by
  unfold locate locateFrom at h
  split at h
  · cases h
  next hzero =>
  split at h
  · cases h
  split at h
  · cases h
  next hlength => exact ⟨by simpa using hzero, Nat.not_le.mp hlength⟩

end FileSystem

namespace Path

/-- A name is joined to a path behind its final slash, or behind a slash of its own. -/
theorem toList_join {base name : String} (hbase : base ≠ "") (hname : isAbsolute name = false) :
    ∃ before, (join base name).toList = before ++ '/' :: name.toList ∧
      (base.toList = before ∧ ¬ ['/'] <:+ before ∨ base.toList = before ++ ['/']) := by
  have hcondition : (isAbsolute name || decide (base = "")) = false := by
    rw [hname, Bool.false_or]
    exact decide_eq_false hbase
  have hends : base.endsWith "/" = true ↔ ['/'] <:+ base.toList := by
    rw [String.endsWith_eq_endsWith_toSlice, String.Slice.endsWith_string_iff, String.copy_toSlice]
    rfl
  rw [join, hcondition]
  simp only [Bool.false_eq_true, if_false]
  split
  · next hslash =>
    obtain ⟨before, hbefore⟩ := hends.mp hslash
    exact ⟨before, by simp [← hbefore], .inr hbefore.symm⟩
  · next hslash =>
    exact ⟨base.toList, by simp, .inl ⟨rfl, fun hsuffix => hslash (hends.mpr hsuffix)⟩⟩

theorem isAbsolute_iff {path : String} :
    isAbsolute path = true ↔ ∃ rest, path.toList = '/' :: rest := by
  rw [isAbsolute, String.startsWith_string_iff]
  exact exists_congr fun rest => eq_comm

theorem isAbsolute_join {base : String} (hbase : isAbsolute base = true) (name : String) :
    isAbsolute (join base name) = true := by
  cases hname : isAbsolute name with
  | true =>
    rw [join, hname, Bool.true_or, if_pos rfl]
    exact hname
  | false =>
    obtain ⟨rest, hrest⟩ := isAbsolute_iff.mp hbase
    have hne : base ≠ "" := by
      intro hnil
      rw [hnil] at hrest
      cases hrest
    obtain ⟨before, hjoin, hbefore⟩ := toList_join hne hname
    rw [isAbsolute_iff, hjoin]
    cases before with
    | nil => exact ⟨name.toList, rfl⟩
    | cons c before =>
      have hc : c = '/' := by
        rcases hbefore with ⟨hbefore, _⟩ | hbefore <;>
        · rw [hbefore] at hrest
          exact (List.cons.inj hrest).1
      exact ⟨before ++ '/' :: name.toList, by rw [hc]; rfl⟩

theorem IsAbove.exists_componentsOf (h : IsAbove path directory count) :
    ∃ left, componentsOf path = componentsOf directory ++ left := by
  cases h with
  | here => exact ⟨[], by simp⟩
  | behind htext => exact ⟨_, by rw [htext, componentsOf_append]⟩
  | root => exact ⟨componentsOf path, rfl⟩

theorem IsAbove.ne_nil (h : IsAbove path directory count) (hpath : path ≠ []) : directory ≠ [] := by
  cases h with
  | here => exact hpath
  | behind | root => simp

theorem IsAbove.absolute {path directory : String} (h : IsAbove path.toList directory.toList count)
    (hpath : isAbsolute path = true) : isAbsolute directory = true := by
  obtain ⟨rest, hrest⟩ := isAbsolute_iff.mp hpath
  have hne : path.toList ≠ [] := by
    rw [hrest]
    exact List.cons_ne_nil _ _
  rcases h.rooted (rooted_of_isAbsolute hpath) with hnil | hrooted
  · exact absurd hnil (h.ne_nil hne)
  · exact isAbsolute_iff.mpr hrooted

theorem ne_empty_of_isAbsolute {path : String} (h : Path.isAbsolute path = true) : path ≠ "" := by
  intro hnil
  rw [hnil] at h
  cases h

theorem IsStep.isAbsolute_eq_false {name : String} (h : IsStep name.toList) :
    isAbsolute name = false := by
  rw [Bool.eq_false_iff]
  intro habsolute
  obtain ⟨rest, hrest⟩ := isAbsolute_iff.mp habsolute
  exact h.slash_notMem (hrest ▸ List.mem_cons_self)

theorem IsStep.componentsOf_eq (h : IsStep name) : componentsOf name = [name] := by
  rw [componentsOf, List.splitOn_eq_singleton h.slash_notMem]
  simp [h.ne_nil]

theorem componentsOf_join {base name : String} (hbase : isAbsolute base = true)
    (hname : IsStep name.toList) :
    componentsOf (join base name).toList = componentsOf base.toList ++ [name.toList] := by
  obtain ⟨before, hjoin, hbefore⟩ :=
    toList_join (ne_empty_of_isAbsolute hbase) hname.isAbsolute_eq_false
  have hsame : componentsOf base.toList = componentsOf before := by
    rcases hbefore with ⟨hbefore, _⟩ | hbefore
    · rw [hbefore]
    · rw [hbefore, componentsOf_append]
      exact List.append_nil _
  rw [hjoin, componentsOf_append, hname.componentsOf_eq, hsame]

/-- The text of a path begins with the directories above it. -/
theorem IsAbove.text_cases (h : IsAbove path directory count) :
    directory = path ∨ (∃ rest, path = directory ++ '/' :: rest) ∨
      directory = ['/'] := by
  cases h with
  | here => exact .inl rfl
  | behind htext => exact .inr (.inl ⟨_, htext⟩)
  | root => exact .inr (.inr rfl)

theorem IsAbove.isPrefix (h : IsAbove path directory count) (hpath : ∃ rest, path = '/' :: rest) :
    directory <+: path := by
  rcases h.text_cases with rfl | ⟨rest, rfl⟩ | rfl
  · exact List.prefix_rfl
  · exact List.prefix_append _ _
  · obtain ⟨rest, rfl⟩ := hpath
    exact ⟨rest, rfl⟩

/-- A name joined to a directory above a path makes no longer a text than one joined to the path. -/
theorem IsAbove.length_join_le {path directory name : String}
    (h : IsAbove path.toList directory.toList count) (hpath : isAbsolute path = true)
    (hname : isAbsolute name = false) :
    (Text.bytes (join directory name)).length ≤ (Text.bytes (join path name)).length := by
  obtain ⟨rest, hrest⟩ := isAbsolute_iff.mp hpath
  obtain ⟨before, hjoin, hbefore⟩ := toList_join (ne_empty_of_isAbsolute hpath) hname
  obtain ⟨above, hjoinAbove, habove⟩ :=
    toList_join (ne_empty_of_isAbsolute (h.absolute hpath)) hname
  rw [Text.bytes_eq, Text.bytes_eq, hjoin, hjoinAbove]
  have hshorter : (above.flatMap String.utf8EncodeChar).length ≤
      (before.flatMap String.utf8EncodeChar).length := by
    have hslash : (String.utf8EncodeChar '/').length = 1 := rfl
    rcases h.text_cases with hsame | ⟨more, hmore⟩ | hroot
    · rw [String.toList_inj.mp hsame, hjoin] at hjoinAbove
      exact Nat.le_of_eq (by rw [List.append_cancel_right hjoinAbove])
    · have hlength := congrArg (fun text => (text.flatMap String.utf8EncodeChar).length) hmore
      rcases habove with ⟨habove, _⟩ | habove <;> rcases hbefore with ⟨hbefore, _⟩ | hbefore <;>
      · rw [habove, hbefore] at hlength
        simp only [List.flatMap_append, List.flatMap_cons, List.flatMap_nil, List.length_append,
          hslash, List.length_nil] at hlength
        omega
    · have hnil : above = [] := by
        rw [hroot] at habove
        rcases habove with ⟨rfl, hnone⟩ | habove
        · exact absurd List.suffix_rfl hnone
        · exact List.append_cancel_right habove.symm
      rw [hnil]
      exact Nat.zero_le _
  simp only [List.flatMap_append, List.length_append]
  omega

/-- A byte that is in neither of them is not in a name joined to a directory above a path. -/
theorem IsAbove.notMem_join {path directory name : String} {byte : UInt8}
    (h : IsAbove path.toList directory.toList count) (hpath : isAbsolute path = true)
    (hname : isAbsolute name = false) (hbyte : byte ∉ Text.bytes path)
    (hbyteName : byte ∉ Text.bytes name) : byte ∉ Text.bytes (join directory name) := by
  obtain ⟨above, hjoin, habove⟩ := toList_join (ne_empty_of_isAbsolute (h.absolute hpath)) hname
  obtain ⟨rest, hrest⟩ := isAbsolute_iff.mp hpath
  rw [Text.bytes_eq] at hbyte hbyteName ⊢
  have hslash : byte ∉ String.utf8EncodeChar '/' := by
    intro hmem
    rw [hrest, List.flatMap_cons] at hbyte
    exact hbyte (List.mem_append_left _ hmem)
  have hdirectory : byte ∉ directory.toList.flatMap String.utf8EncodeChar := by
    obtain ⟨more, hmore⟩ := h.isPrefix ⟨rest, hrest⟩
    rw [← hmore, List.flatMap_append] at hbyte
    exact fun hmem => hbyte (List.mem_append_left _ hmem)
  have hbefore : byte ∉ above.flatMap String.utf8EncodeChar := by
    rcases habove with ⟨habove, _⟩ | habove
    · rwa [habove] at hdirectory
    · rw [habove, List.flatMap_append] at hdirectory
      exact fun hmem => hdirectory (List.mem_append_left _ hmem)
  rw [hjoin, List.flatMap_append, List.flatMap_cons]
  simp only [List.mem_append, hbefore, hslash, hbyteName, or_self, not_false_eq_true]

end Path

section Above

variable {files : FileSystem} {path directory name : String} {place : Location} {count : Nat}

/-- A path that leads somewhere leads to the place that its text names. -/
theorem FileSystem.eq_placeOf_of_locate (hfree : files.LinkFree)
    (hlocate : files.locate path = .ok place) (habsolute : Path.isAbsolute path = true) :
    place = Path.placeOf path.toList := by
  obtain ⟨hzero, hlength⟩ := bytes_of_locate hlocate
  rw [locate_eq_walk habsolute hzero hlength] at hlocate
  obtain ⟨final, hfinal, hnames⟩ := namesOf_bytes path
  have hplace := eq_follow_of_walk hfree hlocate
  rw [hnames, List.foldl_append, ← Path.placeOf_eq] at hplace
  rcases hfinal with rfl | ⟨rfl, _⟩
  · exact hplace
  · exact hplace

/-- A directory above a path that leads to a directory is where its own text says. -/
theorem FileSystem.walk_above (hfree : files.LinkFree)
    (hlocate : files.locate path = .ok place) (habsolute : Path.isAbsolute path = true)
    (hplace : files.node? place = some .directory)
    (habove : Path.IsAbove path.toList directory.toList count) :
    files.walk true linkLimit [] ((Path.componentsOf directory.toList).map fun component =>
        Text.bytes (String.ofList component)) = .ok (Path.placeOf directory.toList) ∧
      files.node? (Path.placeOf directory.toList) = some .directory := by
  obtain ⟨hzero, hlength⟩ := bytes_of_locate hlocate
  rw [locate_eq_walk habsolute hzero hlength] at hlocate
  obtain ⟨final, _, hnames⟩ := namesOf_bytes path
  obtain ⟨left, hleft⟩ := habove.exists_componentsOf
  rw [hnames, hleft, List.map_append, List.append_assoc] at hlocate
  obtain ⟨middle, hwalk, hrest⟩ := walk_eq_ok_of_append hfree hlocate
  have hmiddle : middle = Path.placeOf directory.toList := by
    rw [eq_follow_of_walk hfree hwalk, Path.placeOf_eq]
  rw [← hmiddle]
  refine ⟨hwalk, ?_⟩
  cases hmore : (left.map fun component => Text.bytes (String.ofList component)) ++ final with
  | nil =>
    rw [hmore, walk] at hrest
    rwa [Except.ok.inj hrest]
  | cons name more =>
    rw [hmore] at hrest
    exact directory_of_walk hrest

/-- What a name in such a directory leads to. -/
theorem FileSystem.locate_join_above (hfree : files.LinkFree)
    (hlocate : files.locate path = .ok place) (habsolute : Path.isAbsolute path = true)
    (hplace : files.node? place = some .directory)
    (habove : Path.IsAbove path.toList directory.toList count) (hname : Path.IsStep name.toList)
    (hplain : Plain (Text.bytes name)) (hzero : 0 ∉ Text.bytes name)
    (hlength : (Text.bytes (Path.join directory name)).length < pathLimit) :
    files.locate (Path.join directory name) =
      if (files.node? (Path.placeOf directory.toList ++ [Text.bytes name])).isSome then
        .ok (Path.placeOf directory.toList ++ [Text.bytes name])
      else .error .notFound := by
  have hdirectory := habove.absolute habsolute
  have hnames : namesOf (Text.bytes (Path.join directory name)) =
      ((Path.componentsOf directory.toList).map fun component =>
        Text.bytes (String.ofList component)) ++ [Text.bytes name] := by
    obtain ⟨final, hfinal, hnames⟩ := namesOf_bytes (Path.join directory name)
    obtain ⟨before, hjoin, _⟩ :=
      Path.toList_join (Path.ne_empty_of_isAbsolute hdirectory) hname.isAbsolute_eq_false
    have hnil : final = [] := by
      rcases hfinal with hnil | ⟨_, hlast⟩
      · exact hnil
      · rw [hjoin, List.append_cons, List.getLast?_append_of_ne_nil _ hname.ne_nil] at hlast
        exact absurd (List.mem_of_getLast? hlast) hname.slash_notMem
    rw [hnames, hnil, Path.componentsOf_join hdirectory hname, List.append_nil, List.map_append,
      List.map_singleton, String.ofList_toList]
  have hfine :=
    habove.notMem_join habsolute hname.isAbsolute_eq_false (bytes_of_locate hlocate).1 hzero
  obtain ⟨hwalk, hthere⟩ := walk_above hfree hlocate habsolute hplace habove
  rw [locate_eq_walk (Path.isAbsolute_join hdirectory name) hfine hlength, hnames,
    walk_append hfree, hwalk]
  exact walk_plain hfree hthere hplain

end Above

end TestSelection
