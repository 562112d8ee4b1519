import TestSelection.Document.Json
import TestSelection.Proofs.TreeTables
import TestSelection.Report.Json

/-!
Reading back what is laid out. A text between quotes gives its characters again, whatever they are,
and the digits of a count give the count as long as it is a word of 64 bits. A value is followed by
a comma or by the end of its line, so the digits of a number end where they were written to end;
from this, values of any depth are read back, by induction over the value.
-/

namespace TestSelection

/-- A count in a document. -/
def Tree.ofCount (count : Nat) : Tree := .scalar ⟨none, false, .integer count⟩

namespace Json

mutual

/-- What is delivered when a value is read. -/
def tree : Json → Tree
  | text content => .ofText content
  | number value => .ofCount value
  | list items => .sequence (treeItems items) true
  | object entries => .table (treeEntries entries)

def treeItems : List Json → List Tree
  | [] => []
  | item :: rest => item.tree :: treeItems rest

def treeEntries : List (String × Json) → List (String × Tree)
  | [] => []
  | (key, value) :: rest => (key, value.tree) :: treeEntries rest

end

theorem tree_text (content : String) : (text content).tree = .ofText content := rfl

theorem tree_list_map {α : Type} {encode : α → Json} {treeOf : α → Tree}
    (h : ∀ x, (encode x).tree = treeOf x) (xs : List α) :
    (list (xs.map encode)).tree = .sequence (xs.map treeOf) true := by
  have hitems : treeItems (xs.map encode) = xs.map treeOf := by
    induction xs with
    | nil => rfl
    | cons x rest ih => rw [List.map_cons, treeItems, h, ih, List.map_cons]
  rw [tree, hitems]

theorem tree_object (entries : List (String × Json)) :
    (object entries).tree = .table (entries.map fun entry => (entry.1, entry.2.tree)) := by
  have hentries : treeEntries entries = entries.map fun entry => (entry.1, entry.2.tree) := by
    induction entries with
    | nil => rfl
    | cons entry rest ih => rw [treeEntries, ih, List.map_cons]
  rw [tree, hentries]

/-- Every number in the value is a word of 64 bits. -/
inductive InWords : Json → Prop
  | text (content : String) : InWords (.text content)
  | number {value : Nat} (h : value ≤ JsonText.maxWord) : InWords (.number value)
  | list {items : List Json} (h : ∀ item ∈ items, InWords item) : InWords (.list items)
  | object {entries : List (String × Json)} (h : ∀ entry ∈ entries, InWords entry.2) :
      InWords (.object entries)

end Json

namespace JsonText

variable {c : Char} {fuel n count : Nat} {content digits before rest : List Char}

/-! ### Texts -/

theorem fourHex_control (h : n < 0x20) :
    fourHex ('0' :: '0' :: Json.hexDigit (n / 16) :: Json.hexDigit (n % 16) :: rest) =
      some (n, rest) := by
  have hvalue : ∀ n < 0x20,
      hexValue ['0', '0', Json.hexDigit (n / 16), Json.hexDigit (n % 16)] = some n := by
    decide
  simp [fourHex, hvalue n h]

theorem escaped_control (h : c.toNat < 0x20) :
    escaped ('u' :: '0' :: '0' :: Json.hexDigit (c.toNat / 16) :: Json.hexDigit (c.toNat % 16) ::
      rest) = some (c, rest) := by
  have hlow : ¬ 0xDC00 ≤ c.toNat := by omega
  have hhigh : ¬ 0xD800 ≤ c.toNat := by omega
  simp only [escaped, fourHex_control h, Option.bind_some, unitChar, hlow, hhigh, decide_false,
    Bool.false_and, Bool.false_eq_true, if_false, Char.ofNat_toNat]

theorem scanText_of_escaped {text : List Char} (h : escaped text = some (c, rest)) :
    scanText (fuel + 1) before ('\\' :: text) = scanText fuel (c :: before) rest := by
  rw [scanText, h]

theorem scanText_plain (hquote : c ≠ '"') (hbackslash : c ≠ '\\') (hplain : ¬ c.toNat < 0x20) :
    scanText (fuel + 1) before (c :: rest) = scanText fuel (c :: before) rest := by
  rw [scanText, if_neg hplain]
  · exact hquote
  · exact hbackslash

theorem eq_ofNat_of_toNat {n : Nat} (h : c.toNat = n) : c = Char.ofNat n := by
  rw [← h, Char.ofNat_toNat]

/-- However a character is written inside a text, it is read back. -/
theorem scanText_escapedChar (c : Char) :
    scanText (fuel + 1) before (Json.escapedChar c ++ rest) = scanText fuel (c :: before) rest := by
  unfold Json.escapedChar
  -- The characters with a letter of their own, then the other control characters, then the rest.
  split
  · next h => exact scanText_of_escaped (by rw [h]; rfl)
  split
  · next h => exact scanText_of_escaped (by rw [h]; rfl)
  split
  · next h => exact scanText_of_escaped (by rw [eq_ofNat_of_toNat h]; rfl)
  split
  · next h => exact scanText_of_escaped (by rw [eq_ofNat_of_toNat h]; rfl)
  split
  · next h => exact scanText_of_escaped (by rw [h]; rfl)
  split
  · next h => exact scanText_of_escaped (by rw [h]; rfl)
  split
  · next h => exact scanText_of_escaped (by rw [h]; rfl)
  split
  · next h => exact scanText_of_escaped (escaped_control h)
  · next hquote hbackslash _ _ _ _ _ hplain => exact scanText_plain hquote hbackslash hplain

theorem scanText_content (h : content.length < fuel) :
    scanText fuel before (content.flatMap Json.escapedChar ++ '"' :: rest) =
      some (before.reverse ++ content, rest) := by
  induction content generalizing fuel before with
  | nil =>
    obtain ⟨fuel, rfl⟩ := Nat.exists_eq_succ_of_ne_zero (Nat.ne_of_gt h)
    simp [scanText]
  | cons c content ih =>
    obtain ⟨fuel, rfl⟩ := Nat.exists_eq_succ_of_ne_zero (Nat.ne_of_gt (Nat.zero_lt_of_lt h))
    rw [List.flatMap_cons, List.append_assoc, scanText_escapedChar,
      ih (Nat.lt_of_succ_lt_succ h), List.reverse_cons, List.append_assoc]
    rfl

theorem length_le_escaped (content : List Char) :
    content.length ≤ (content.flatMap Json.escapedChar).length := by
  induction content with
  | nil => exact Nat.le_refl 0
  | cons c content ih =>
    have hpos : 1 ≤ (Json.escapedChar c).length := by
      unfold Json.escapedChar
      repeat' split
      all_goals simp
    rw [List.flatMap_cons, List.length_append, List.length_cons]
    omega

theorem writtenText_append (content : String) (rest : List Char) :
    Json.writtenText content ++ rest =
      '"' :: (content.toList.flatMap Json.escapedChar ++ '"' :: rest) := by
  simp [Json.writtenText]

/-- A written text without its opening quote is read back. -/
theorem readText_content (content : String) :
    readText (content.toList.flatMap Json.escapedChar ++ '"' :: rest) = some (content, rest) := by
  have hfuel : content.toList.length <
      (content.toList.flatMap Json.escapedChar ++ '"' :: rest).length + 1 := by
    have hle := length_le_escaped content.toList
    rw [List.length_append]
    omega
  rw [readText, scanText_content hfuel]
  simp

/-! ### Numbers -/

/-- What follows a value that stands inside of others. -/
def EndsValue (rest : List Char) : Prop := ∃ more, rest = ',' :: more ∨ rest = '\n' :: more

theorem le_ofDigitChars : n ≤ Nat.ofDigitChars 10 digits n := by
  rw [Nat.ofDigitChars_eq_ofDigitChars_zero]
  have hpos : 0 < 10 ^ digits.length := Nat.pow_pos (by decide)
  have hle : n ≤ 10 ^ digits.length * n := Nat.le_mul_of_pos_left n hpos
  omega

theorem gather_digits (hdigits : ∀ c ∈ digits, c.isDigit = true)
    (hword : Nat.ofDigitChars 10 digits n ≤ maxWord) (hrest : EndsValue rest) :
    gather n count (digits ++ rest) =
      (Nat.ofDigitChars 10 digits n, count + digits.length, 0, rest) := by
  induction digits generalizing n count with
  | nil => obtain ⟨more, rfl | rfl⟩ := hrest <;> rfl
  | cons c digits ih =>
    have hdigit : digitValue? c = some (c.toNat - 48) := if_pos (hdigits c List.mem_cons_self)
    rw [Nat.ofDigitChars_cons] at hword ⊢
    have hfits : ¬ maxWord < 10 * n + (c.toNat - 48) :=
      Nat.not_lt.mpr (Nat.le_trans le_ofDigitChars hword)
    rw [List.cons_append, gather, hdigit, List.length_cons, Nat.add_comm digits.length,
      ← Nat.add_assoc]
    simp only [if_neg hfits]
    exact ih (fun c hc => hdigits c (List.mem_cons_of_mem _ hc)) hword

theorem afterWhole_of_endsValue (hrest : EndsValue rest) :
    afterWhole false n 0 rest = some (.integer n, rest) := by
  obtain ⟨more, rfl | rfl⟩ := hrest <;> rfl

/-- A count begins with a digit, and with a zero only if it is zero. -/
theorem exists_toDigits_eq_cons (n : Nat) :
    ∃ first more, Nat.toDigits 10 n = first :: more ∧ first.isDigit = true ∧
      (0 < n → first ≠ '0') := by
  induction n using Nat.strongRecOn with
  | ind n ih =>
    by_cases hlt : n < 10
    · have hdigit : ∀ n < 10, n.digitChar.isDigit = true ∧ (0 < n → n.digitChar ≠ '0') := by
        decide
      exact ⟨n.digitChar, [], Nat.toDigits_of_lt_base hlt, hdigit n hlt⟩
    · obtain ⟨first, more, htoDigits, hdigit, hfirst⟩ := ih (n / 10) (by omega)
      rw [Nat.toDigits_of_base_le (by decide) (Nat.not_lt.mp hlt), htoDigits]
      exact ⟨first, _, rfl, hdigit, fun _ => hfirst (by omega)⟩

/-- The digits of a count that is a word of 64 bits are read back. -/
theorem unsigned_toDigits (hword : n ≤ maxWord) (hrest : EndsValue rest) :
    unsigned false (Nat.toDigits 10 n ++ rest) = some (.integer n, rest) := by
  -- A zero is read by itself, so the digits of any other number must not begin with one.
  rcases Nat.eq_zero_or_pos n with rfl | hpos
  · have hafter : afterWhole false 0 0 rest = some (.integer 0, rest) :=
      afterWhole_of_endsValue hrest
    obtain ⟨more, rfl | rfl⟩ := hrest <;> exact hafter
  · have hdigits : ∀ c ∈ Nat.toDigits 10 n, c.isDigit = true := fun c hc =>
      Nat.isDigit_of_mem_toDigits (by decide) (by decide) hc
    have hgather : gather 0 0 (Nat.toDigits 10 n ++ rest) =
        (n, 0 + (Nat.toDigits 10 n).length, 0, rest) := by
      rw [gather_digits hdigits (by rwa [Nat.ofDigitChars_ten_toDigits]) hrest,
        Nat.ofDigitChars_ten_toDigits]
    obtain ⟨first, more, htoDigits, hdigit, hfirst⟩ := exists_toDigits_eq_cons n
    rw [htoDigits, List.cons_append] at hgather ⊢
    rw [unsigned]
    simp only [hdigit, if_true, hgather]
    · exact afterWhole_of_endsValue hrest
    · exact hfirst hpos

/-! ### Values -/

section

variable {level : Nat} {space : List Char}

theorem isSpace_of_mem_lineBreak (h : c ∈ Json.lineBreak level) : isSpace c = true := by
  rcases List.mem_cons.mp h with rfl | h
  · rfl
  · rw [(List.mem_replicate.mp h).2]
    rfl

theorem skipSpace_cons (hspace : ∀ c ∈ space, isSpace c = true) (hc : isSpace c = false) :
    skipSpace (space ++ c :: rest) = c :: rest := by
  rw [skipSpace, List.dropWhile_append_of_pos hspace, List.dropWhile_cons_of_neg]
  rw [hc]
  exact Bool.false_ne_true

theorem isSpace_of_isDigit (h : c.isDigit = true) : isSpace c = false := by
  rw [Bool.eq_false_iff]
  intro hspace
  simp only [isSpace, Bool.or_eq_true, decide_eq_true_eq] at hspace
  rcases hspace with ((rfl | rfl) | rfl) | rfl <;> cases h

theorem readScalar_of_digit (h : c.isDigit = true) :
    readScalar (c :: rest) =
      (unsigned false (c :: rest)).map fun (found, after) => (scalarOf found, after) := by
  unfold readScalar
  -- No digit begins a text, one of the three words or a negative number.
  split
  · next heq => cases heq; cases h
  · next heq => cases heq; cases h
  · next heq => cases heq; cases h
  · next heq => cases heq; cases h
  · unfold readNumber
    split
    · next heq => cases heq; cases h
    · rfl

/-- A value is read back wherever it stands, if what follows ends it. Its length is fuel enough, for
each value inside it is shorter by the bracket or comma before it. -/
def ReadBack (v : Json) : Prop :=
  ∀ (level fuel : Nat) (space rest : List Char), (∀ c ∈ space, isSpace c = true) →
    (v.laidOut level).length ≤ fuel → EndsValue rest →
    value fuel (space ++ (v.laidOut level ++ rest)) = (v.tree, some rest)

theorem exists_laidOut_eq_cons (v : Json) (level : Nat) :
    ∃ first more, v.laidOut level = first :: more ∧ isSpace first = false ∧ first ≠ ']' := by
  cases v with
  | text content => exact ⟨'"', _, rfl, rfl, by decide⟩
  | number n =>
    obtain ⟨first, more, htoDigits, hdigit, _⟩ := exists_toDigits_eq_cons n
    refine ⟨first, more, htoDigits, isSpace_of_isDigit hdigit, ?_⟩
    rintro rfl
    cases hdigit
  | list items =>
    cases items with
    | nil => exact ⟨'[', _, rfl, rfl, by decide⟩
    | cons item more => exact ⟨'[', _, rfl, rfl, by decide⟩
  | object entries =>
    cases entries with
    | nil => exact ⟨'\x7b', _, rfl, rfl, by decide⟩
    | cons entry more => exact ⟨'\x7b', _, rfl, rfl, by decide⟩

theorem exists_fuel {v : Json} (h : (v.laidOut level).length ≤ fuel) :
    ∃ less, fuel = less + 1 := by
  obtain ⟨first, more, hlaidOut, _⟩ := exists_laidOut_eq_cons v level
  rw [hlaidOut, List.length_cons] at h
  exact Nat.exists_eq_succ_of_ne_zero (by omega)

theorem value_of_readScalar {tree : Tree} {after : List Char}
    (hspace : ∀ c ∈ space, isSpace c = true) (hc : isSpace c = false) (hlist : c ≠ '[')
    (hobject : c ≠ '\x7b') (hread : readScalar (c :: rest) = some (tree, after)) :
    value (fuel + 1) (space ++ c :: rest) = (tree, some after) := by
  rw [value, skipSpace_cons hspace hc]
  split
  · next heq => exact absurd (List.cons.inj heq).1 hlist
  · next heq => exact absurd (List.cons.inj heq).1 hobject
  · rw [hread]

theorem readBack_text (content : String) : ReadBack (.text content) := by
  intro level fuel space rest hspace hfuel _
  obtain ⟨fuel, rfl⟩ := exists_fuel hfuel
  rw [Json.laidOut, writtenText_append]
  refine value_of_readScalar hspace rfl (by decide) (by decide) ?_
  simp only [readScalar, readText_content, Option.map_some]
  rfl

theorem readBack_number (hword : n ≤ maxWord) : ReadBack (.number n) := by
  intro level fuel space rest hspace hfuel hrest
  obtain ⟨fuel, rfl⟩ := exists_fuel hfuel
  obtain ⟨first, more, htoDigits, hdigit, _⟩ := exists_toDigits_eq_cons n
  have hread := unsigned_toDigits hword hrest
  rw [Json.laidOut]
  rw [htoDigits, List.cons_append] at hread ⊢
  refine value_of_readScalar hspace (isSpace_of_isDigit hdigit) ?_ ?_ ?_
  · rintro rfl
    cases hdigit
  · rintro rfl
    cases hdigit
  · rw [readScalar_of_digit hdigit, hread]
    rfl

/-! ### Lists and objects -/

section Steps

variable {read : List Tree} {done : List Entry} {item : Tree} {key : String}
variable {text after more : List Char}

theorem items_closed (hitem : value fuel text = (item, some rest))
    (hend : skipSpace rest = ']' :: after) :
    items (fuel + 1) read text = (.sequence (item :: read).reverse true, some after) := by
  rw [items, hitem]
  simp only [hend]

theorem items_continued (hitem : value fuel text = (item, some rest))
    (hcomma : skipSpace rest = ',' :: more) :
    items (fuel + 1) read text = items fuel (item :: read) more := by
  rw [items, hitem]
  simp only [hcomma]

theorem skipSpace_writtenText (key : String) (text : List Char)
    (hspace : ∀ c ∈ space, isSpace c = true) :
    skipSpace (space ++ (Json.writtenText key ++ text)) =
      '"' :: (key.toList.flatMap Json.escapedChar ++ '"' :: text) := by
  rw [writtenText_append]
  exact skipSpace_cons hspace rfl

theorem entries_closed (hspace : ∀ c ∈ space, isSpace c = true)
    (hitem : value fuel text = (item, some rest)) (hend : skipSpace rest = '\x7d' :: after) :
    entries (fuel + 1) done (space ++ (Json.writtenText key ++ ':' :: text)) =
      (.record (.mk (.text key) item :: done).reverse true, some after) := by
  have hcolon : skipSpace (':' :: text) = ':' :: text := rfl
  rw [entries, skipSpace_writtenText key _ hspace]
  simp only [readText_content, hcolon, hitem, hend]

theorem entries_continued (hspace : ∀ c ∈ space, isSpace c = true)
    (hitem : value fuel text = (item, some rest)) (hcomma : skipSpace rest = ',' :: more) :
    entries (fuel + 1) done (space ++ (Json.writtenText key ++ ':' :: text)) =
      entries fuel (.mk (.text key) item :: done) more := by
  have hcolon : skipSpace (':' :: text) = ':' :: text := rfl
  rw [entries, skipSpace_writtenText key _ hspace]
  simp only [readText_content, hcolon, hitem, hcomma]

end Steps

theorem endsValue_items (more : List Json) : EndsValue (Json.laidOutItems level more ++ rest) := by
  cases more with
  | nil => exact ⟨_, Or.inr rfl⟩
  | cons item more => exact ⟨_, Or.inl rfl⟩

theorem endsValue_entries (more : List (String × Json)) :
    EndsValue (Json.laidOutEntries level more ++ rest) := by
  cases more with
  | nil => exact ⟨_, Or.inr rfl⟩
  | cons entry more => exact ⟨_, Or.inl rfl⟩

/-- The items of a list are read back one after the other, up to its bracket. -/
theorem items_laidOut {first : Json} {more : List Json} {read : List Tree}
    (hitems : ∀ item ∈ first :: more, ReadBack item) (hspace : ∀ c ∈ space, isSpace c = true)
    (hfuel : (first.laidOut (level + 1)).length + (Json.laidOutItems level more).length ≤ fuel) :
    items (fuel + 1) read
        (space ++ (first.laidOut (level + 1) ++ (Json.laidOutItems level more ++ rest))) =
      (.sequence (read.reverse ++ Json.treeItems (first :: more)) true, some rest) := by
  induction more generalizing first read space fuel with
  | nil =>
    have hend : skipSpace (Json.laidOutItems level [] ++ rest) = ']' :: rest := by
      rw [Json.laidOutItems, List.append_assoc]
      exact skipSpace_cons (fun _ => isSpace_of_mem_lineBreak) rfl
    have hfirst := hitems first List.mem_cons_self (level + 1) fuel space
      (Json.laidOutItems level [] ++ rest) hspace (by omega) (endsValue_items [])
    rw [items_closed hfirst hend]
    simp [Json.treeItems]
  | cons second more ih =>
    have hcomma : skipSpace (Json.laidOutItems level (second :: more) ++ rest) =
        ',' :: (Json.lineBreak (level + 1) ++ (second.laidOut (level + 1) ++
          (Json.laidOutItems level more ++ rest))) := by
      simp only [Json.laidOutItems, List.cons_append, List.append_assoc]
      rfl
    have hfirst := hitems first List.mem_cons_self (level + 1) fuel space
      (Json.laidOutItems level (second :: more) ++ rest) hspace (by omega)
      (endsValue_items (second :: more))
    simp only [Json.laidOutItems, List.length_append, List.length_cons] at hfuel
    obtain ⟨fuel, rfl⟩ : ∃ less, fuel = less + 1 := Nat.exists_eq_succ_of_ne_zero (by omega)
    rw [items_continued hfirst hcomma,
      ih (fun item hitem => hitems item (List.mem_cons_of_mem first hitem))
        (fun _ => isSpace_of_mem_lineBreak) (by omega)]
    simp [Json.treeItems]

/-- The entries of an object are read back one after the other, up to its bracket. -/
theorem entries_laidOut {key : String} {first : Json} {more : List (String × Json)}
    {done : List Entry} (hentries : ∀ entry ∈ (key, first) :: more, ReadBack entry.2)
    (hspace : ∀ c ∈ space, isSpace c = true)
    (hfuel : (first.laidOut (level + 1)).length + (Json.laidOutEntries level more).length ≤ fuel) :
    entries (fuel + 1) done (space ++ (Json.writtenText key ++ ':' :: ([' '] ++
        (first.laidOut (level + 1) ++ (Json.laidOutEntries level more ++ rest))))) =
      (.record (done.reverse ++ (Json.treeEntries ((key, first) :: more)).map fun field =>
        .mk (.text field.1) field.2) true, some rest) := by
  induction more generalizing key first done space fuel with
  | nil =>
    have hend : skipSpace (Json.laidOutEntries level [] ++ rest) = '\x7d' :: rest := by
      rw [Json.laidOutEntries, List.append_assoc]
      exact skipSpace_cons (fun _ => isSpace_of_mem_lineBreak) rfl
    have hfirst : ReadBack first := hentries (key, first) List.mem_cons_self
    have hread := hfirst (level + 1) fuel [' '] (Json.laidOutEntries level [] ++ rest)
      (List.forall_mem_singleton.mpr rfl) (by omega) (endsValue_entries [])
    rw [entries_closed hspace hread hend]
    simp [Json.treeEntries]
  | cons second more ih =>
    have hcomma : skipSpace (Json.laidOutEntries level (second :: more) ++ rest) =
        ',' :: (Json.lineBreak (level + 1) ++ (Json.writtenText second.1 ++ ':' :: ([' '] ++
          (second.2.laidOut (level + 1) ++ (Json.laidOutEntries level more ++ rest))))) := by
      simp only [Json.laidOutEntries, List.cons_append, List.append_assoc, List.nil_append]
      rfl
    have hfirst : ReadBack first := hentries (key, first) List.mem_cons_self
    have hread := hfirst (level + 1) fuel [' '] (Json.laidOutEntries level (second :: more) ++ rest)
      (List.forall_mem_singleton.mpr rfl) (by omega) (endsValue_entries (second :: more))
    simp only [Json.laidOutEntries, List.length_append, List.length_cons] at hfuel
    obtain ⟨fuel, rfl⟩ : ∃ less, fuel = less + 1 := Nat.exists_eq_succ_of_ne_zero (by omega)
    rw [entries_continued hspace hread hcomma,
      ih (fun entry hentry => hentries entry (List.mem_cons_of_mem _ hentry))
        (fun _ => isSpace_of_mem_lineBreak) (by omega)]
    simp [Json.treeEntries]

theorem value_list {first : Char} {text more : List Char} (hspace : ∀ c ∈ space, isSpace c = true)
    (hfirst : skipSpace text = first :: more) (hopen : first ≠ ']') :
    value (fuel + 1) (space ++ '[' :: text) = items fuel [] text := by
  rw [value, skipSpace_cons hspace rfl]
  simp only [hfirst]
  split
  · next heq => exact absurd (List.cons.inj heq).1 hopen
  · rfl

theorem value_object {text more : List Char} (hspace : ∀ c ∈ space, isSpace c = true)
    (hfirst : skipSpace text = '"' :: more) :
    value (fuel + 1) (space ++ '\x7b' :: text) = entries fuel [] text := by
  rw [value, skipSpace_cons hspace rfl]
  simp only [hfirst]
  rfl

theorem readBack_list {listed : List Json} (h : ∀ item ∈ listed, ReadBack item) :
    ReadBack (.list listed) := by
  intro level fuel space rest hspace hfuel _
  obtain ⟨fuel, rfl⟩ := exists_fuel hfuel
  cases listed with
  | nil =>
    rw [Json.laidOut, List.cons_append, List.singleton_append, value, skipSpace_cons hspace rfl]
    rfl
  | cons first more =>
    have hlaidOut : (Json.list (first :: more)).laidOut level ++ rest =
        '[' :: (Json.lineBreak (level + 1) ++ (first.laidOut (level + 1) ++
          (Json.laidOutItems level more ++ rest))) := by
      simp [Json.laidOut]
    obtain ⟨c, tail, hfirst, hspaceless, hopen⟩ := exists_laidOut_eq_cons first (level + 1)
    have hskip : skipSpace (Json.lineBreak (level + 1) ++ (first.laidOut (level + 1) ++
        (Json.laidOutItems level more ++ rest))) =
        c :: (tail ++ (Json.laidOutItems level more ++ rest)) := by
      rw [hfirst]
      exact skipSpace_cons (fun _ => isSpace_of_mem_lineBreak) hspaceless
    have hpos : 0 < (Json.lineBreak (level + 1)).length := Nat.zero_lt_succ _
    simp only [Json.laidOut, List.length_append, List.length_cons] at hfuel
    obtain ⟨fuel, rfl⟩ : ∃ less, fuel = less + 1 := Nat.exists_eq_succ_of_ne_zero (by omega)
    rw [hlaidOut, value_list hspace hskip hopen,
      items_laidOut h (fun _ => isSpace_of_mem_lineBreak) (by omega)]
    rfl

theorem readBack_object {listed : List (String × Json)} (h : ∀ entry ∈ listed, ReadBack entry.2) :
    ReadBack (.object listed) := by
  intro level fuel space rest hspace hfuel _
  obtain ⟨fuel, rfl⟩ := exists_fuel hfuel
  cases listed with
  | nil =>
    rw [Json.laidOut, List.cons_append, List.singleton_append, value, skipSpace_cons hspace rfl]
    rfl
  | cons entry more =>
    obtain ⟨key, first⟩ := entry
    have hlaidOut : (Json.object ((key, first) :: more)).laidOut level ++ rest =
        '\x7b' :: (Json.lineBreak (level + 1) ++ (Json.writtenText key ++ ':' :: ([' '] ++
          (first.laidOut (level + 1) ++ (Json.laidOutEntries level more ++ rest))))) := by
      simp [Json.laidOut]
    have hspaces : ∀ c ∈ Json.lineBreak (level + 1), isSpace c = true :=
      fun _ => isSpace_of_mem_lineBreak
    have hskip := skipSpace_writtenText key (':' :: ([' '] ++ (first.laidOut (level + 1) ++
      (Json.laidOutEntries level more ++ rest)))) hspaces
    have hpos : 0 < (Json.lineBreak (level + 1)).length := Nat.zero_lt_succ _
    simp only [Json.laidOut, List.length_append, List.length_cons] at hfuel
    obtain ⟨fuel, rfl⟩ : ∃ less, fuel = less + 1 := Nat.exists_eq_succ_of_ne_zero (by omega)
    rw [hlaidOut, value_object hspace hskip,
      entries_laidOut h hspaces (by omega)]
    rfl

/-- Every value whose numbers are words of 64 bits is read back wherever it stands. -/
theorem readBack_of_inWords {v : Json} (h : v.InWords) : ReadBack v := by
  induction h with
  | text content => exact readBack_text content
  | number h => exact readBack_number h
  | list _ ih => exact readBack_list ih
  | object _ ih => exact readBack_object ih

end

/-- What is laid out is read back as a whole. -/
theorem read_document {v : Json} (h : v.InWords) : read v.document = ⟨v.tree, true⟩ := by
  have hfuel : (v.laidOut 0).length ≤ 2 * v.document.length + 2 := by
    rw [Json.document, String.length_ofList, List.length_append]
    omega
  have hvalue := readBack_of_inWords h 0 (2 * v.document.length + 2) [] ['\n']
    (fun _ hc => absurd hc List.not_mem_nil) hfuel ⟨[], Or.inr rfl⟩
  have htext : v.document.toList = [] ++ (v.laidOut 0 ++ ['\n']) := String.toList_ofList
  rw [read, htext, hvalue]
  rfl

end JsonText

end TestSelection
