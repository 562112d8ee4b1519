import Mathlib.Logic.ExistsUnique
import TestSelection.FileSystem.Path

/-!
Directories above a path. The steps of a path are its components as the text names them: several
slashes count as one, and a single dot is no step. One parent after the other leads through the
texts that end right behind a step, each with one step less than the one before, up to the root.
-/

namespace TestSelection.Path

/-- A component that leads somewhere else; two dots are one. -/
structure IsStep (name : List Char) : Prop where
  ne_nil : name ≠ []
  ne_dot : name ≠ ['.']
  slash_notMem : '/' ∉ name

/-- The components of a path, but no single dots. -/
def stepsOf (text : List Char) : List (List Char) :=
  (text.splitOn '/').filter fun piece => piece ≠ [] ∧ piece ≠ ['.']

/-- `directory` lies `count` steps above `path`: the text of the path ends there `count` steps
earlier, right behind another step. Above all its steps is the root. -/
inductive IsAbove (path : List Char) : List Char → Nat → Prop
  | here : IsAbove path path 0
  | behind {base name rest count} (htext : path = base ++ '/' :: name ++ '/' :: rest)
      (hname : IsStep name) (hcount : (stepsOf rest).length = count + 1) :
    IsAbove path (base ++ '/' :: name) (count + 1)
  | root {count} (hcount : (stepsOf path).length = count + 1) : IsAbove path ['/'] (count + 1)

/-- A text that a slash begins, or that is empty. -/
def Rooted (text : List Char) : Prop := text = [] ∨ ∃ rest, text = '/' :: rest

/-- What is left of a text that ends right behind its last step. -/
inductive Trims : List Char → List Char → Prop
  | idle {text} (hsteps : stepsOf text = []) : Trims text []
  | behind {base name rest} (hname : IsStep name) (hrooted : Rooted rest)
      (hsteps : stepsOf rest = []) :
    Trims (base ++ '/' :: name ++ rest) (base ++ '/' :: name)

variable {text before after base name rest path directory parent : List Char} {count : Nat}

@[simp] theorem stepsOf_nil : stepsOf [] = [] := rfl

theorem stepsOf_append (before after : List Char) :
    stepsOf (before ++ '/' :: after) = stepsOf before ++ stepsOf after := by
  rw [stepsOf, List.splitOn_append_cons_self, List.filter_append]
  rfl

@[simp] theorem stepsOf_slash (text : List Char) : stepsOf ('/' :: text) = stepsOf text :=
  stepsOf_append [] text

theorem IsStep.stepsOf_eq (h : IsStep name) : stepsOf name = [name] := by
  rw [stepsOf, List.splitOn_eq_singleton h.slash_notMem]
  simp [h.ne_nil, h.ne_dot]

theorem stepsOf_behind (h : IsStep name) :
    stepsOf (base ++ '/' :: name) = stepsOf base ++ [name] := by
  rw [stepsOf_append, h.stepsOf_eq]

theorem Rooted.of_append (h : Rooted (before ++ after)) : Rooted before := by
  cases before with
  | nil => exact .inl rfl
  | cons c before =>
    rcases h with h | ⟨rest, h⟩
    · cases h
    · exact .inr ⟨before, by rw [(List.cons.inj h).1]⟩

theorem Rooted.stepsOf_append (h : Rooted after) (before : List Char) :
    stepsOf (before ++ after) = stepsOf before ++ stepsOf after := by
  rcases h with rfl | ⟨rest, rfl⟩
  · simp
  · rw [Path.stepsOf_append, stepsOf_slash]

theorem Rooted.append (hbefore : Rooted before) (hafter : Rooted after) :
    Rooted (before ++ after) := by
  rcases hbefore with rfl | ⟨rest, rfl⟩
  · exact hafter
  · exact .inr ⟨rest ++ after, rfl⟩

theorem Trims.append (h : Trims before text) (hrooted : Rooted after)
    (hsteps : stepsOf after = []) : Trims (before ++ after) text := by
  cases h with
  | idle hbefore => exact .idle (by rw [hrooted.stepsOf_append, hbefore, hsteps]; rfl)
  | behind hname hrest hidle =>
    rw [List.append_assoc]
    exact .behind hname (hrest.append hrooted) (by rw [hrooted.stepsOf_append, hidle, hsteps]; rfl)

theorem trims_trimmed (hrooted : Rooted text) : Trims text (trimmed text.reverse).reverse := by
  generalize hreversed : text.reverse = reversed
  obtain rfl : reversed.reverse = text := by rw [← hreversed, List.reverse_reverse]
  clear hreversed
  fun_induction trimmed reversed with
  | case1 more ih =>
    rw [List.reverse_cons] at hrooted ⊢
    exact (ih hrooted.of_append).append (.inr ⟨[], rfl⟩) rfl
  | case2 more ih =>
    have htext : ('.' :: '/' :: more).reverse = more.reverse ++ ['/', '.'] := by simp
    rw [htext] at hrooted ⊢
    exact (ih hrooted.of_append).append (.inr ⟨['.'], rfl⟩) rfl
  | case3 more hslash hdot =>
    rcases hrooted with hnil | ⟨rest, htext⟩
    · rw [hnil]
      exact .idle rfl
    · have hmem : '/' ∈ more := List.mem_reverse.mp (htext ▸ List.mem_cons_self)
      obtain ⟨last, before, rfl, hlast⟩ := List.eq_append_cons_of_mem hmem
      have hname : IsStep last.reverse := by
        refine ⟨?_, ?_, by simpa using hlast⟩
        · intro hnil
          rw [List.reverse_eq_nil_iff] at hnil
          exact hslash before (by rw [hnil]; rfl)
        · intro hsingle
          rw [List.reverse_eq_iff] at hsingle
          exact hdot before (by rw [hsingle]; rfl)
      have htrims : Trims (before.reverse ++ '/' :: last.reverse ++ [])
          (before.reverse ++ '/' :: last.reverse) := .behind hname (.inl rfl) rfl
      simpa using htrims

/-- What is left of a text before its last step is one step above the text. -/
theorem Trims.isAbove_one (h : Trims base before) (hname : IsStep name) (hrest : Rooted rest)
    (hidle : stepsOf rest = []) :
    IsAbove (base ++ '/' :: name ++ rest) (if before = [] then ['/'] else before) 1 := by
  have hlast : stepsOf (name ++ rest) = [name] := by
    rw [hrest.stepsOf_append, hidle, hname.stepsOf_eq]
    rfl
  cases h with
  | idle hsteps =>
    have hone : stepsOf (base ++ '/' :: name ++ rest) = [name] := by
      rw [List.append_assoc, List.cons_append, stepsOf_append, hsteps, hlast]
      rfl
    exact .root (by rw [hone, List.length_singleton])
  | @behind base earlier idle hearlier hidle' hsteps =>
    obtain ⟨more, hmore⟩ : ∃ more, idle ++ '/' :: name ++ rest = '/' :: more := by
      rcases hidle' with rfl | ⟨more, rfl⟩
      · exact ⟨name ++ rest, rfl⟩
      · exact ⟨more ++ '/' :: name ++ rest, rfl⟩
    have hone : stepsOf more = [name] := by
      rw [← stepsOf_slash, ← hmore, List.append_assoc, List.cons_append, stepsOf_append, hsteps,
        hlast]
      rfl
    rw [if_neg (by simp)]
    have htext : base ++ '/' :: earlier ++ idle ++ '/' :: name ++ rest =
        base ++ '/' :: earlier ++ '/' :: more := by
      rw [← hmore]
      simp
    exact .behind htext hearlier (by rw [hone, List.length_singleton])

/-- A path without steps has no parent, and the parent of any other path lies one step above it. -/
theorem parent?_cases {path : String} (hrooted : Rooted path.toList) :
    (stepsOf path.toList = [] ∧ parent? path = none) ∨
      ∃ parent, parent? path = some parent ∧ IsAbove path.toList parent.toList 1 := by
  have htrims := trims_trimmed hrooted
  unfold parent?
  generalize hkept : (trimmed path.toList.reverse).reverse = kept at htrims
  rw [List.reverse_eq_iff] at hkept
  generalize path.toList = text at htrims hrooted hkept ⊢
  rw [hkept]
  cases htrims with
  | idle hsteps => exact .inl ⟨hsteps, rfl⟩
  | @behind base name rest hname hrest hidle =>
    have hbase : Rooted base := by
      rw [List.append_assoc] at hrooted
      exact hrooted.of_append
    have hbefore : (base ++ '/' :: name).reverse.dropWhile (· ≠ '/') = '/' :: base.reverse := by
      have hnone : ∀ c ∈ name.reverse, decide (c ≠ '/') = true := by
        intro c hc
        have hne : c ≠ '/' := fun heq => hname.slash_notMem (heq ▸ List.mem_reverse.mp hc)
        simpa using hne
      rw [List.reverse_append, List.reverse_cons, List.append_assoc,
        List.dropWhile_append_of_pos hnone]
      simp
    have habove := (trims_trimmed hbase).isAbove_one hname hrest hidle
    refine .inr ⟨if (trimmed base.reverse).reverse = [] then "/" else
      String.ofList (trimmed base.reverse).reverse, ?_, ?_⟩
    · split
      · next hnil => simp at hnil
      · rw [hbefore]
        simp only [trimmed]
        cases trimmed base.reverse <;> simp
    · split
      · next hnil => rwa [if_pos hnil] at habove
      · next hsome =>
        rw [if_neg hsome] at habove
        rwa [String.toList_ofList]

/-- Behind any slash of a text that ends with a step there is a step. -/
theorem stepsOf_ne_nil_of_ends (hname : IsStep name)
    (h : base ++ '/' :: name = before ++ '/' :: after) : stepsOf after ≠ [] := by
  rcases List.append_eq_append_iff.mp h with ⟨more, _, hmore⟩ | ⟨more, _, hmore⟩
  · cases more with
    | nil =>
      obtain rfl : name = after := (List.cons.inj hmore).2
      simp [hname.stepsOf_eq]
    | cons c more =>
      have hslash : '/' ∈ name := by simp [(List.cons.inj hmore).2]
      exact absurd hslash hname.slash_notMem
  · cases more with
    | nil =>
      obtain rfl : after = name := (List.cons.inj hmore).2
      simp [hname.stepsOf_eq]
    | cons c more =>
      obtain rfl : after = more ++ '/' :: name := (List.cons.inj hmore).2
      simp [stepsOf_behind hname]

/-- Of two places where a text is cut behind a step, one lies before the other, with a step between
them. -/
theorem cut_cases {name' base' rest' : List Char} (hname : IsStep name) (hname' : IsStep name')
    (h : base ++ '/' :: name ++ '/' :: rest = base' ++ '/' :: name' ++ '/' :: rest') :
    (base ++ '/' :: name = base' ++ '/' :: name' ∧ rest = rest') ∨
      (∃ between, stepsOf between ≠ [] ∧ rest = between ++ '/' :: rest' ∧
        base' ++ '/' :: name' = base ++ '/' :: name ++ '/' :: between) ∨
      ∃ between, stepsOf between ≠ [] ∧ rest' = between ++ '/' :: rest ∧
        base ++ '/' :: name = base' ++ '/' :: name' ++ '/' :: between := by
  rcases List.append_eq_append_iff.mp h with ⟨more, hends, hmore⟩ | ⟨more, hends, hmore⟩
  · cases more with
    | nil => exact .inl ⟨by rw [hends, List.append_nil], (List.cons.inj hmore).2⟩
    | cons c more =>
      obtain ⟨rfl, hrest⟩ := List.cons.inj hmore
      exact .inr (.inl ⟨more, stepsOf_ne_nil_of_ends hname' hends, hrest, hends⟩)
  · cases more with
    | nil => exact .inl ⟨by rw [hends, List.append_nil], (List.cons.inj hmore).2.symm⟩
    | cons c more =>
      obtain ⟨rfl, hrest⟩ := List.cons.inj hmore
      exact .inr (.inr ⟨more, stepsOf_ne_nil_of_ends hname hends, hrest, hends⟩)

/-- The steps of a path are those of a directory above it and those that lead there. -/
theorem IsAbove.exists_stepsOf (h : IsAbove path directory count) :
    ∃ left, stepsOf path = stepsOf directory ++ left ∧ left.length = count := by
  cases h with
  | here => exact ⟨[], by simp, rfl⟩
  | behind htext _ hcount => exact ⟨_, by rw [htext, stepsOf_append], hcount⟩
  | root hcount => exact ⟨stepsOf path, rfl, hcount⟩

/-- A directory has as many steps fewer than a path as it lies above it. -/
theorem IsAbove.length_stepsOf (h : IsAbove path directory count) :
    (stepsOf path).length = (stepsOf directory).length + count := by
  obtain ⟨left, hleft, hcount⟩ := h.exists_stepsOf
  rw [hleft, List.length_append, hcount]

theorem length_stepsOf_behind_pos (base : List Char) (hname : IsStep name) :
    0 < (stepsOf (base ++ '/' :: name)).length := by
  rw [stepsOf_behind hname, List.length_append]
  exact Nat.succ_pos _

/-- What lies above a directory above a path lies above the path, as many steps further. -/
theorem IsAbove.trans {nearer : Nat} (hparent : IsAbove path parent nearer)
    (h : IsAbove parent directory count) : IsAbove path directory (count + nearer) := by
  have hlength := hparent.length_stepsOf
  cases h with
  | here => rwa [Nat.zero_add]
  | root hcount =>
    rw [Nat.add_right_comm]
    exact .root (by omega)
  | @behind base name rest _ htext hname hcount =>
    cases hparent with
    | here => exact .behind htext hname hcount
    | root _ =>
      -- The root has no step to lie behind.
      have hnone : (stepsOf ['/']).length = 0 := rfl
      rw [htext, stepsOf_append, List.length_append] at hnone
      omega
    | @behind base' name' rest' nearer htext' _ hnearer =>
      have hwhole : path = base ++ '/' :: name ++ '/' :: (rest ++ '/' :: rest') := by
        rw [htext', htext]
        simp
      rw [← Nat.add_assoc]
      refine .behind hwhole hname ?_
      rw [stepsOf_append, List.length_append, hcount, hnearer]
      omega

/-- What lies above a path, and not at its parent or below, lies above the parent. -/
theorem IsAbove.of_succ (hparent : IsAbove path parent 1) (h : IsAbove path directory (count + 1)) :
    IsAbove parent directory count := by
  have hsteps : (stepsOf parent).length = (stepsOf directory).length + count := by
    have hpath := hparent.length_stepsOf
    have hwhole := h.length_stepsOf
    omega
  have hnone : (stepsOf ['/']).length = 0 := rfl
  cases h with
  | root _ =>
    cases hparent with
    | root _ =>
      obtain rfl : count = 0 := by omega
      exact .here
    | @behind base name _ _ _ hname _ =>
      have hpos := length_stepsOf_behind_pos base hname
      obtain ⟨less, rfl⟩ := Nat.exists_eq_add_of_le' (show 1 ≤ count by omega)
      exact .root (by omega)
  | @behind base name rest _ htext hname hcount =>
    have hpos := length_stepsOf_behind_pos base hname
    cases hparent with
    | root _ => omega
    | @behind base' name' rest' _ htext' hname' hone =>
      rcases cut_cases hname hname' (htext.symm.trans htext') with
        ⟨hsame, _⟩ | ⟨between, hbetween, _, hends⟩ | ⟨between, hbetween, _, hends⟩
      · rw [hsame] at hsteps ⊢
        obtain rfl : count = 0 := by omega
        exact .here
      · have hleft : (stepsOf between).length = count := by
          rw [hends, stepsOf_append, List.length_append] at hsteps
          omega
        have hless := List.length_pos_iff.mpr hbetween
        obtain ⟨less, rfl⟩ := Nat.exists_eq_add_of_le' (show 1 ≤ count by omega)
        exact .behind hends hname hleft
      · -- A directory below the parent has more steps than the parent.
        have hmore := List.length_pos_iff.mpr hbetween
        rw [hends, stepsOf_append _ between, List.length_append] at hsteps
        omega

/-- The directories above the parent of a path are those above the path. -/
theorem isAbove_succ_iff (hparent : IsAbove path parent 1) :
    IsAbove path directory (count + 1) ↔ IsAbove parent directory count :=
  ⟨hparent.of_succ, hparent.trans⟩

theorem IsAbove.rooted (h : IsAbove path directory count) (hpath : Rooted path) :
    Rooted directory := by
  cases h with
  | here => exact hpath
  | behind htext =>
    rw [htext] at hpath
    exact hpath.of_append
  | root => exact .inr ⟨[], rfl⟩

theorem upwards_of_none {path : String} (h : parent? path = none) : upwards path = [path] := by
  rw [upwards]
  split
  · rfl
  · next hsome =>
    rw [h] at hsome
    cases hsome

theorem upwards_of_some {path parent : String} (h : parent? path = some parent) :
    upwards path = path :: upwards parent := by
  rw [upwards]
  split
  · next hnone =>
    rw [h] at hnone
    cases hnone
  · next hsome =>
    rw [h] at hsome
    cases hsome
    rfl

/-- The paths from a path upwards are the directories above it, each at the number of steps that it
lies above. -/
theorem getElem?_upwards_iff {path directory : String} (hrooted : Rooted path.toList) :
    (upwards path)[count]? = some directory ↔ IsAbove path.toList directory.toList count := by
  induction count generalizing path with
  | zero =>
    rw [upwards, List.getElem?_cons_zero, Option.some.injEq]
    constructor
    · rintro rfl
      exact .here
    · intro h
      generalize htext : directory.toList = text at h
      cases h with
      | here => exact (String.toList_inj.mp htext).symm
  | succ count ih =>
    rcases parent?_cases hrooted with ⟨hsteps, hnone⟩ | ⟨parent, hsome, hparent⟩
    · rw [upwards_of_none hnone]
      constructor
      · intro h
        cases h
      · intro h
        have hlength := h.length_stepsOf
        rw [hsteps, List.length_nil] at hlength
        omega
    · rw [upwards_of_some hsome, List.getElem?_cons_succ, ih (hparent.rooted hrooted),
        isAbove_succ_iff hparent]

theorem length_upwards {path : String} (hrooted : Rooted path.toList) :
    (upwards path).length = (stepsOf path.toList).length + 1 := by
  induction hlength : (stepsOf path.toList).length generalizing path with
  | zero =>
    rcases parent?_cases hrooted with ⟨_, hnone⟩ | ⟨parent, _, hparent⟩
    · rw [upwards_of_none hnone]
      rfl
    · have hone := hparent.length_stepsOf
      omega
  | succ length ih =>
    rcases parent?_cases hrooted with ⟨hsteps, _⟩ | ⟨parent, hsome, hparent⟩
    · rw [hsteps] at hlength
      cases hlength
    · have hone := hparent.length_stepsOf
      rw [upwards_of_some hsome, List.length_cons, ih (hparent.rooted hrooted) (by omega)]

/-- There is one directory for each number of steps, up to the number of steps of the path. -/
theorem existsUnique_isAbove_iff {path : String} (hrooted : Rooted path.toList) :
    (∃! directory : String, IsAbove path.toList directory.toList count) ↔
      count ≤ (stepsOf path.toList).length := by
  simp only [← getElem?_upwards_iff hrooted]
  rw [← Nat.lt_succ_iff, Nat.succ_eq_add_one, ← length_upwards hrooted]
  constructor
  · rintro ⟨directory, hdirectory, _⟩
    exact (List.getElem?_eq_some_iff.mp hdirectory).1
  · intro hcount
    refine ⟨(upwards path)[count], List.getElem?_eq_getElem hcount, ?_⟩
    intro other hother
    rw [List.getElem?_eq_getElem hcount] at hother
    exact (Option.some.inj hother).symm

/-- Some of the steps that lead to a path lead to a directory above it. -/
theorem exists_isAbove_of_take {path : String} {left : List (List Char)}
    (hrooted : Rooted path.toList) (hleft : stepsOf path.toList = stepsOf base ++ left)
    (taken : Nat) :
    ∃ directory : String, IsAbove path.toList directory.toList (left.length - taken) ∧
      stepsOf directory.toList = stepsOf base ++ left.take taken := by
  have hcount : left.length - taken ≤ (stepsOf path.toList).length := by
    rw [hleft, List.length_append]
    omega
  obtain ⟨directory, habove, _⟩ := (existsUnique_isAbove_iff hrooted).mpr hcount
  refine ⟨directory, habove, ?_⟩
  obtain ⟨rest, hrest, hlength⟩ := habove.exists_stepsOf
  rw [hleft, ← List.take_append_drop taken left, ← List.append_assoc] at hrest
  exact (List.append_inj' hrest (by rw [List.length_drop, hlength])).1.symm

theorem rooted_of_isAbsolute {path : String} (h : isAbsolute path = true) : Rooted path.toList := by
  rw [isAbsolute, String.startsWith_string_iff] at h
  obtain ⟨rest, hrest⟩ := h
  exact .inr ⟨rest, hrest.symm⟩

end TestSelection.Path
