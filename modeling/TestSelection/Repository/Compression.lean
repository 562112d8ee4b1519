import TestSelection.Repository.Digest

/-!
Compressed bytes. A compressed text is a sequence of blocks after two bytes of header; a block holds
plain bytes, or symbols in a prefix code that is fixed or described in front of it. A symbol stands
for a byte, for the end of the block, or for a repetition of bytes that came before.
-/

namespace TestSelection.Compression

/-- The bit with the given index, counted from the least significant bit of the first byte. -/
def bitAt (bytes : ByteArray) (i : Nat) : Nat := (bytes.data.getD (i / 8) 0).toNat >>> (i % 8) % 2

/-- The number in `count` bits from index `i`, least significant bit first. -/
def bitsAt (bytes : ByteArray) (i count : Nat) : Nat :=
  (List.range count).foldl (fun n k => n + bitAt bytes (i + k) <<< k) 0

/-- A prefix code: for each length the number of its words, and the symbols in order of their
words. -/
structure Code where
  counts : List Nat
  symbols : Array Nat

/-- The code in which symbol `i` has a word of the `i`-th length; length zero is no word. -/
def Code.ofLengths (lengths : List Nat) : Code :=
  let numbered := lengths.zipIdx
  let ofLength (n : Nat) : List Nat := (numbered.filter (·.1 = n)).map (·.2)
  let byLength := (List.range 15).map fun n => ofLength (n + 1)
  ⟨byLength.map List.length, byLength.flatten.toArray⟩

/-- Reads one symbol at bit `i`: the word read so far, the first word of its length, and the number
of words that are shorter. -/
def Code.symbolFrom (code : Code) (bytes : ByteArray) :
    List Nat → (word first shorter i : Nat) → Option (Nat × Nat)
  | [], _, _, _, _ => none
  | count :: rest, word, first, shorter, i =>
    let word := 2 * word + bitAt bytes i
    if word < first + count then
      (code.symbols[shorter + (word - first)]?).map fun symbol => (symbol, i + 1)
    else symbolFrom code bytes rest word (2 * (first + count)) (shorter + count) (i + 1)

def Code.symbolAt (code : Code) (bytes : ByteArray) (i : Nat) : Option (Nat × Nat) :=
  code.symbolFrom bytes code.counts 0 0 0 i

/-- The shortest repetition of each length symbol, with the number of bits that add to it. -/
def lengthTable : List (Nat × Nat) :=
  [(3, 0), (4, 0), (5, 0), (6, 0), (7, 0), (8, 0), (9, 0), (10, 0), (11, 1), (13, 1), (15, 1),
    (17, 1), (19, 2), (23, 2), (27, 2), (31, 2), (35, 3), (43, 3), (51, 3), (59, 3), (67, 4),
    (83, 4), (99, 4), (115, 4), (131, 5), (163, 5), (195, 5), (227, 5), (258, 0)]

def distanceTable : List (Nat × Nat) :=
  [(1, 0), (2, 0), (3, 0), (4, 0), (5, 1), (7, 1), (9, 2), (13, 2), (17, 3), (25, 3), (33, 4),
    (49, 4), (65, 5), (97, 5), (129, 6), (193, 6), (257, 7), (385, 7), (513, 8), (769, 8),
    (1025, 9), (1537, 9), (2049, 10), (3073, 10), (4097, 11), (6145, 11), (8193, 12), (12289, 12),
    (16385, 13), (24577, 13)]

/-- The output with `count` more bytes, each a copy of the one `distance` before it. -/
def repeated (output : ByteArray) (distance : Nat) (count : Nat) : ByteArray :=
  (List.range count).foldl (fun out _ => out.push (out.data.getD (out.size - distance) 0)) output

/-- Reads the symbols of a block up to its end. Every symbol takes a bit at least, so `fuel` is
enough when it is the number of bits. -/
def symbols (literal distance : Code) (bytes : ByteArray) :
    (fuel i : Nat) → ByteArray → Option (ByteArray × Nat)
  | 0, _, _ => none
  | fuel + 1, i, output =>
    if 8 * bytes.size < i then none
    else
      (literal.symbolAt bytes i).bind fun (symbol, i) =>
        if symbol < 256 then
          symbols literal distance bytes fuel i (output.push (UInt8.ofNat symbol))
        else if symbol = 256 then some (output, i)
        else
          (lengthTable[symbol - 257]?).bind fun (shortest, extra) =>
          let count := shortest + bitsAt bytes i extra
          (distance.symbolAt bytes (i + extra)).bind fun (symbol, i) =>
          (distanceTable[symbol]?).bind fun (nearest, extra) =>
          let back := nearest + bitsAt bytes i extra
          if output.size < back then none
          else symbols literal distance bytes fuel (i + extra) (repeated output back count)

def fixedLiteral : Code :=
  Code.ofLengths (List.replicate 144 8 ++ List.replicate 112 9 ++ List.replicate 24 7 ++
    List.replicate 8 8)

def fixedDistance : Code := Code.ofLengths (List.replicate 30 5)

/-- The order in which a block states the lengths of the code for lengths. -/
def lengthOrder : List Nat := [16, 17, 18, 0, 8, 7, 9, 6, 10, 5, 11, 4, 12, 3, 13, 2, 14, 1, 15]

/-- Reads `missing` more lengths of words; three symbols repeat a length. -/
def codeLengths (code : Code) (bytes : ByteArray) :
    (fuel missing i : Nat) → (found : List Nat) → Option (List Nat × Nat)
  | _, 0, i, found => some (found, i)
  | 0, _, _, _ => none
  | fuel + 1, missing, i, found =>
    (code.symbolAt bytes i).bind fun (symbol, i) =>
      if symbol < 16 then codeLengths code bytes fuel (missing - 1) i (found ++ [symbol])
      else
        let (length, count, i) :=
          if symbol = 16 then (found.getLast?.getD 0, 3 + bitsAt bytes i 2, i + 2)
          else if symbol = 17 then (0, 3 + bitsAt bytes i 3, i + 3)
          else (0, 11 + bitsAt bytes i 7, i + 7)
        if missing < count then none
        else codeLengths code bytes fuel (missing - count) i (found ++ List.replicate count length)

/-- Reads the description of the two codes of a block. -/
def codesAt (bytes : ByteArray) (i : Nat) : Option (Code × Code × Nat) :=
  let literals := 257 + bitsAt bytes i 5
  let distances := 1 + bitsAt bytes (i + 5) 5
  let stated := 4 + bitsAt bytes (i + 10) 4
  let short := (List.range stated).map fun k => bitsAt bytes (i + 14 + 3 * k) 3
  let lengthOf (symbol : Nat) : Nat :=
    ((lengthOrder.idxOf? symbol).bind fun k => short[k]?).getD 0
  let code := Code.ofLengths ((List.range 19).map lengthOf)
  (codeLengths code bytes (literals + distances) (literals + distances) (i + 14 + 3 * stated)
    []).map fun (lengths, i) =>
      (Code.ofLengths (lengths.take literals), Code.ofLengths (lengths.drop literals), i)

/-- Reads blocks up to the last one. -/
def blocks (bytes : ByteArray) : (fuel i : Nat) → ByteArray → Option ByteArray
  | 0, _, _ => none
  | fuel + 1, i, output =>
    let last := bitAt bytes i = 1
    let after :=
      match bitsAt bytes (i + 1) 2 with
      | 0 =>
        let start := (i + 3 + 7) / 8
        let size := bitsAt bytes (8 * start) 16
        if bytes.size < start + 4 + size then none
        else some (output ++ bytes.extract (start + 4) (start + 4 + size), 8 * (start + 4 + size))
      | 1 => symbols fixedLiteral fixedDistance bytes (8 * bytes.size) (i + 3) output
      | 2 =>
        (codesAt bytes (i + 3)).bind fun (literal, distance, i) =>
          symbols literal distance bytes (8 * bytes.size) i output
      | _ => none
    after.bind fun (output, i) => if last then some output else blocks bytes fuel i output

/-- The bytes that a compressed text stands for which begins at byte `start`. -/
def expandAt? (bytes : ByteArray) (start : Nat) : Option ByteArray :=
  if bytes.size < start + 2 || (bytes.data.getD start 0).toNat % 16 ≠ 8 then none
  else blocks bytes (8 * bytes.size) (8 * start + 16) ByteArray.empty

def expand? (bytes : ByteArray) : Option ByteArray := expandAt? bytes 0

end TestSelection.Compression
