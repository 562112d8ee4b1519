import TestSelection.Text.Pieces

/-!
Paths as texts. A slash separates components; several slashes count as one, and a component that
is a single dot counts only at the start of a relative path. All of this looks at the text alone and
asks no file system.
-/

namespace TestSelection.Path

def isAbsolute (path : String) : Bool := path.startsWith "/"

/-- `path` seen from `base`. An absolute path stays as it is. -/
def join (base path : String) : String :=
  if isAbsolute path || base = "" then path
  else if base.endsWith "/" then base ++ path
  else base ++ "/" ++ path

/-- The reversed text of a path without final slashes and final components that are a dot. -/
def trimmed : List Char → List Char
  | '/' :: rest => trimmed rest
  | '.' :: '/' :: rest => trimmed rest
  | rest => rest

/-- The path without its last component; the root and the empty path have nothing to leave out. -/
def parent? (path : String) : Option String :=
  match trimmed path.toList.reverse with
  | [] => none
  | text =>
    match text.dropWhile (· ≠ '/') with
    | [] => some ""
    | rest =>
      match trimmed rest with
      | [] => some "/"
      | parent => some (String.ofList parent.reverse)

theorem length_trimmed_le (text : List Char) : (trimmed text).length ≤ text.length := by
  fun_induction trimmed text with
  | case1 rest ih => exact Nat.le_succ_of_le ih
  | case2 rest ih => simp only [List.length_cons]; omega
  | case3 => exact Nat.le_refl _

theorem head?_trimmed_ne (text : List Char) : (trimmed text).head? ≠ some '/' := by
  fun_induction trimmed text with
  | case1 rest ih => exact ih
  | case2 rest ih => exact ih
  | case3 text hslash =>
    intro h
    match text, h with
    | c :: rest, h =>
      rw [List.head?_cons, Option.some.injEq] at h
      exact hslash rest (by rw [h])

theorem length_dropWhile_lt {text rest : List Char} (hhead : text.head? ≠ some '/')
    (h : text.dropWhile (· ≠ '/') = rest) (hrest : rest ≠ []) : rest.length < text.length := by
  match text, hhead with
  | [], _ => exact absurd h.symm hrest
  | c :: text, hhead =>
    have hc : c ≠ '/' := fun hc => hhead (by rw [hc]; rfl)
    rw [List.dropWhile_cons, if_pos (by simpa using hc)] at h
    rw [← h, List.length_cons]
    exact Nat.lt_succ_of_le (List.dropWhile_suffix _).length_le

theorem length_parent?_lt {path parent : String} (h : parent? path = some parent) :
    parent.length < path.length := by
  have htrim : (trimmed path.toList.reverse).length ≤ path.length := by
    simpa [String.length_toList] using length_trimmed_le path.toList.reverse
  have hhead := head?_trimmed_ne path.toList.reverse
  unfold parent? at h
  split at h
  · simp at h
  · next text htext =>
    have hpos : 0 < (trimmed path.toList.reverse).length :=
      List.length_pos_iff.mpr htext
    split at h
    · rw [← Option.some.inj h]
      exact Nat.lt_of_lt_of_le hpos htrim
    · next rest hrest =>
      have hlt := length_dropWhile_lt hhead rfl hrest
      have hle := length_trimmed_le
        ((trimmed path.toList.reverse).dropWhile (· ≠ '/'))
      have hone := List.length_pos_iff.mpr hrest
      split at h
      · rw [← Option.some.inj h]
        exact Nat.lt_of_le_of_lt (show "/".length ≤ _ from hone) (Nat.lt_of_lt_of_le hlt htrim)
      · rw [← Option.some.inj h]
        simp only [String.length_ofList, List.length_reverse]
        omega

/-- A path and its parents, as its text names them, from the path upwards. -/
def upwards (path : String) : List String :=
  path ::
    match _h : parent? path with
    | none => []
    | some parent => upwards parent
  termination_by path.length
  decreasing_by exact length_parent?_lt _h

/-- The last component, unless it is one or two dots. -/
def fileName? (path : String) : Option String :=
  let name := String.ofList ((trimmed path.toList.reverse).takeWhile (· ≠ '/')).reverse
  if name = "" || name = "." || name = ".." then none else some name

/-- What stands behind the last dot of the last component, if something stands before it. -/
def extension? (path : String) : Option String :=
  (fileName? path).bind fun name =>
    match Text.cutLast '.' name.toList with
    | some (_ :: _, ending) => some (String.ofList ending)
    | _ => none

end TestSelection.Path
