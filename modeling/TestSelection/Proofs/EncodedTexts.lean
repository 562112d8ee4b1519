import TestSelection.Text.Utf8

/-!
Encoded texts are shown as themselves. The first byte of an encoded character says how many bytes
follow and in which range the next one lies; the bytes that follow lie in these ranges, and together
they give the number of the character back. So a path that is a text is shown as this text. A byte
below 0x80 is a character of its own and no part of another, so the bytes of a text can be cut at
it in place of the text.
-/

namespace TestSelection.Text

variable {n : Nat} {rest : Bytes}

theorem opening?_single (h : n < 0x80) : opening? (UInt8.ofNat n) = some (n, 0, 0x80, 0xBF) := by
  revert n
  decide

theorem opening?_double (h : n < 0x20) (hleast : 2 ≤ n) :
    opening? (UInt8.ofNat (n + 0xC0)) = some (n, 1, 0x80, 0xBF) := by
  have hall : ∀ m < 0x1E,
      opening? (UInt8.ofNat (m + 2 + 0xC0)) = some (m + 2, 1, 0x80, 0xBF) := by decide
  obtain ⟨m, rfl⟩ := Nat.exists_eq_add_of_le' hleast
  exact hall m (by omega)

theorem opening?_triple (h : n < 0x10) :
    opening? (UInt8.ofNat (n + 0xE0)) =
      some (n, 2, if n = 0 then 0xA0 else 0x80, if n = 0xD then 0x9F else 0xBF) := by
  revert n
  decide

theorem opening?_quadruple (h : n < 5) :
    opening? (UInt8.ofNat (n + 0xF0)) =
      some (n, 3, if n = 0 then 0x90 else 0x80, if n = 4 then 0x8F else 0xBF) := by
  revert n
  decide

/-- The byte that carries six bits of a character. -/
def carrier (bits : Nat) : UInt8 := UInt8.ofNat (bits + 0x80)

theorem toNat_carrier {bits : Nat} (h : bits < 64) : (carrier bits).toNat = bits + 0x80 := by
  rw [carrier, UInt8.toNat_ofNat']
  omega

theorem continuation_carrier {missing bits : Nat} {low high : UInt8} (h : bits < 64)
    (hlow : low.toNat ≤ bits + 0x80) (hhigh : bits + 0x80 ≤ high.toNat) :
    continuation (missing + 1) low high (carrier bits :: rest) =
      carrier bits :: continuation missing 0x80 0xBF rest := by
  have hbetween : (low ≤ carrier bits && carrier bits ≤ high) = true := by
    simp only [Bool.and_eq_true, decide_eq_true_eq, UInt8.le_iff_toNat_le, toNat_carrier h]
    exact ⟨hlow, hhigh⟩
  rw [continuation, if_pos hbetween]

theorem continuation_one {bits : Nat} (h : bits < 64) :
    continuation 1 0x80 0xBF (carrier bits :: rest) = [carrier bits] := by
  rw [continuation_carrier h (Nat.le_add_left _ _) (by simp; omega)]
  rfl

theorem continuation_two {first second : Nat} {low high : UInt8} (hfirst : first < 64)
    (hsecond : second < 64) (hlow : low.toNat ≤ first + 0x80) (hhigh : first + 0x80 ≤ high.toNat) :
    continuation 2 low high (carrier first :: carrier second :: rest) =
      [carrier first, carrier second] := by
  rw [continuation_carrier hfirst hlow hhigh, continuation_one hsecond]

/-- A character is shown once the bytes that complete it are there. -/
theorem shown_of_completed {first low high : UInt8} {start missing : Nat} {taken : Bytes} {c : Char}
    (hopening : opening? first = some (start, missing, low, high))
    (htaken : continuation missing low high rest = taken) (hlength : taken.length = missing)
    (hcode : taken.foldl (fun code b => code * 64 + b.toNat % 64) start = c.toNat) :
    shown first rest = (c, missing) := by
  simp only [shown, hopening, htaken, hlength, if_true, hcode, Char.ofNat_toNat]

/-- The bytes of a character are shown as the character. -/
theorem shown_encoded (c : Char) (rest : Bytes) :
    ∃ first more, String.utf8EncodeChar c = first :: more ∧
      shown first (more ++ rest) = (c, more.length) := by
  have hvalid : c.toNat < 0xD800 ∨ 0xDFFF < c.toNat ∧ c.toNat < 0x110000 := c.valid
  have hbits {bits : Nat} (h : bits < 64) : (carrier bits).toNat % 64 = bits := by
    rw [toNat_carrier h]
    omega
  have hcode : c.val.toNat = c.toNat := rfl
  unfold String.utf8EncodeChar
  rw [hcode]
  generalize hv : c.toNat = v at *
  have hlast : v % 64 < 64 := Nat.mod_lt _ (by decide)
  have hthird : v / 64 % 64 < 64 := Nat.mod_lt _ (by decide)
  have hsecond : v / 4096 % 64 < 64 := Nat.mod_lt _ (by decide)
  by_cases hone : v ≤ 0x7F
  · refine ⟨_, [], if_pos hone, ?_⟩
    exact shown_of_completed (opening?_single (by omega)) rfl rfl hv.symm
  by_cases htwo : v ≤ 0x7FF
  · refine ⟨_, [carrier (v % 64)], (if_neg hone).trans (if_pos htwo), ?_⟩
    refine shown_of_completed (opening?_double (by omega) (by omega))
      (continuation_one hlast) rfl ?_
    simp only [List.foldl_cons, List.foldl_nil, hbits hlast]
    omega
  by_cases hthree : v ≤ 0xFFFF
  · refine ⟨_, [carrier (v / 64 % 64), carrier (v % 64)],
      (if_neg hone).trans ((if_neg htwo).trans (if_pos hthree)), ?_⟩
    refine shown_of_completed (opening?_triple (by omega))
      (continuation_two hthird hlast ?_ ?_) rfl ?_
    -- Smaller numbers have fewer bytes, and surrogates are no characters.
    · split <;> simp only [UInt8.reduceToNat] <;> omega
    · split <;> simp only [UInt8.reduceToNat] <;> omega
    · simp only [List.foldl_cons, List.foldl_nil, hbits hthird, hbits hlast]
      omega
  · refine ⟨_, [carrier (v / 4096 % 64), carrier (v / 64 % 64), carrier (v % 64)],
      (if_neg hone).trans ((if_neg htwo).trans (if_neg hthree)), ?_⟩
    have htaken {low high : UInt8} (hlow : low.toNat ≤ v / 4096 % 64 + 0x80)
        (hhigh : v / 4096 % 64 + 0x80 ≤ high.toNat) :
        continuation 3 low high
          ([carrier (v / 4096 % 64), carrier (v / 64 % 64), carrier (v % 64)] ++ rest) =
          [carrier (v / 4096 % 64), carrier (v / 64 % 64), carrier (v % 64)] := by
      rw [List.cons_append, continuation_carrier hsecond hlow hhigh, List.cons_append,
        List.cons_append, continuation_two hthird hlast (Nat.le_add_left _ _) (by simp; omega)]
    refine shown_of_completed (opening?_quadruple (by omega)) (htaken ?_ ?_) rfl ?_
    · split <;> simp only [UInt8.reduceToNat] <;> omega
    · split <;> simp only [UInt8.reduceToNat] <;> omega
    · simp only [List.foldl_cons, List.foldl_nil, hbits hsecond, hbits hthird, hbits hlast]
      omega

theorem shownChars_encoded (text : List Char) :
    shownChars (text.flatMap String.utf8EncodeChar) = text := by
  induction text with
  | nil => rw [List.flatMap_nil, shownChars]
  | cons c text ih =>
    obtain ⟨first, more, hencoded, hshown⟩ :=
      shown_encoded c (text.flatMap String.utf8EncodeChar)
    rw [List.flatMap_cons, hencoded, List.cons_append, shownChars, hshown, List.drop_left, ih]

/-- The bytes of a text are those of its characters, one after the other. -/
theorem bytes_eq (text : String) : bytes text = text.toList.flatMap String.utf8EncodeChar := by
  have hbytes : bytes text = text.toByteArray.data.toList := rfl
  rw [hbytes, ← String.utf8Encode_toList]
  simp [List.utf8Encode]

/-- The bytes of a text are shown as this text. -/
theorem ofBytes_bytes (text : String) : ofBytes (bytes text) = text := by
  rw [ofBytes, bytes_eq, shownChars_encoded, String.ofList_toList]

theorem ofUtf8?_bytes (text : String) : ofUtf8? (bytes text).toByteArray = some text := by
  have harray : (bytes text).toByteArray = text.toByteArray := by
    rw [bytes_eq, ← String.utf8Encode_toList]
    rfl
  rw [harray, ofUtf8?, String.fromUTF8?, dif_pos text.isValidUTF8]
  rfl

/-- Bytes encode a text if they are its bytes. -/
theorem ofUtf8?_eq_some_iff {encoded : Bytes} {text : String} :
    ofUtf8? encoded.toByteArray = some text ↔ bytes text = encoded := by
  constructor
  · intro h
    have hbytes : text.toByteArray = encoded.toByteArray := by
      unfold ofUtf8? String.fromUTF8? at h
      split at h
      · rw [← Option.some.inj h]
        rfl
      · cases h
    have hlist : bytes text = encoded.toByteArray.data.toList :=
      congrArg (fun array : ByteArray => array.data.toList) hbytes
    simpa using hlist
  · intro h
    rw [← h, ofUtf8?_bytes]

section Marks

variable {mark c : Char}

/-- A byte below 0x80 is a character of its own. -/
theorem encoded_of_lt (hmark : mark.toNat < 0x80) :
    String.utf8EncodeChar mark = [UInt8.ofNat mark.toNat] := by
  have hcode : mark.val.toNat = mark.toNat := rfl
  simp only [String.utf8EncodeChar, hcode]
  rw [if_pos (by omega)]

/-- No character of more bytes has a byte below 0x80. -/
theorem eq_of_mem_encoded (hmark : mark.toNat < 0x80)
    (h : UInt8.ofNat mark.toNat ∈ String.utf8EncodeChar c) : c = mark := by
  have hcode : c.val.toNat = c.toNat := rfl
  have hvalid : c.toNat < 0xD800 ∨ 0xDFFF < c.toNat ∧ c.toNat < 0x110000 := c.valid
  have hsame : c.toNat = mark.toNat := by
    unfold String.utf8EncodeChar at h
    rw [hcode] at h
    simp only at h
    repeat' split at h
    all_goals
      simp only [List.mem_cons, List.not_mem_nil, or_false, ← UInt8.toNat_inj,
        UInt8.toNat_ofNat'] at h
      omega
  rw [← Char.ofNat_toNat c, hsame, Char.ofNat_toNat]

theorem not_mem_encoded (hmark : mark.toNat < 0x80) {text : List Char} (h : mark ∉ text) :
    UInt8.ofNat mark.toNat ∉ text.flatMap String.utf8EncodeChar := by
  intro hmem
  obtain ⟨c, hc, hbyte⟩ := List.mem_flatMap.mp hmem
  exact h (eq_of_mem_encoded hmark hbyte ▸ hc)

/-- The bytes of a text are cut at the byte of such a character where the text is cut. -/
theorem splitOn_encoded (hmark : mark.toNat < 0x80) (text : List Char) :
    (text.flatMap String.utf8EncodeChar).splitOn (UInt8.ofNat mark.toNat) =
      (text.splitOn mark).map fun piece => piece.flatMap String.utf8EncodeChar := by
  induction hlength : text.length using Nat.strongRecOn generalizing text with
  | ind length ih =>
    by_cases h : mark ∈ text
    · obtain ⟨before, after, rfl, hbefore⟩ := List.eq_append_cons_of_mem h
      have hshorter : after.length < length := by
        rw [← hlength, List.length_append, List.length_cons]
        omega
      rw [List.flatMap_append, List.flatMap_cons, encoded_of_lt hmark, List.singleton_append,
        List.splitOn_append_cons_self, List.splitOn_append_cons_self,
        List.splitOn_eq_singleton (not_mem_encoded hmark hbefore),
        List.splitOn_eq_singleton hbefore, ih after.length hshorter after rfl]
      rfl
    · rw [List.splitOn_eq_singleton (not_mem_encoded hmark h), List.splitOn_eq_singleton h]
      rfl

end Marks

end TestSelection.Text
