/-!
The 160-bit digest that names a stored object. The message is filled up with one bit, zeros and its
length to blocks of 64 bytes; each block goes through eighty rounds that mix a schedule of eighty
words into five words of state.
-/

namespace TestSelection.Digest

def rotate (x : UInt32) (bits : UInt32) : UInt32 := (x <<< bits) ||| (x >>> (32 - bits))

structure State where
  a : UInt32
  b : UInt32
  c : UInt32
  d : UInt32
  e : UInt32

def initial : State := ⟨0x67452301, 0xEFCDAB89, 0x98BADCFE, 0x10325476, 0xC3D2E1F0⟩

/-- A number of up to eight bytes, most significant byte first. -/
def bigEndian (size n : Nat) : List UInt8 :=
  (List.range size).map fun i => UInt8.ofNat (n / Nat.pow 256 (size - 1 - i))

def filled (message : ByteArray) : ByteArray :=
  let zeros := (119 - message.size % 64) % 64
  message ++ (0x80 :: List.replicate zeros 0 ++ bigEndian 8 (message.size * 8)).toByteArray

def byteAt (bytes : ByteArray) (i : Nat) : UInt32 := (bytes.data.getD i 0).toUInt32

def wordAt (bytes : ByteArray) (i : Nat) : UInt32 :=
  (byteAt bytes i <<< 24) ||| (byteAt bytes (i + 1) <<< 16) ||| (byteAt bytes (i + 2) <<< 8) |||
    byteAt bytes (i + 3)

/-- The eighty words of the block that starts at `start`. -/
def schedule (bytes : ByteArray) (start : Nat) : Array UInt32 :=
  let first := (List.range 16).foldl (fun words i => words.push (wordAt bytes (start + 4 * i))) #[]
  (List.range 64).foldl (fun words i =>
    words.push (rotate (words.getD (i + 13) 0 ^^^ words.getD (i + 8) 0 ^^^ words.getD (i + 2) 0 ^^^
      words.getD i 0) 1)) first

/-- What round `i` adds: a mixture of three words, and a constant. -/
def mixture (i : Nat) (state : State) : UInt32 :=
  if i < 20 then ((state.b &&& state.c) ||| (~~~state.b &&& state.d)) + 0x5A827999
  else if i < 40 then (state.b ^^^ state.c ^^^ state.d) + 0x6ED9EBA1
  else if i < 60 then
    ((state.b &&& state.c) ||| (state.b &&& state.d) ||| (state.c &&& state.d)) + 0x8F1BBCDC
  else (state.b ^^^ state.c ^^^ state.d) + 0xCA62C1D6

def round (words : Array UInt32) (state : State) (i : Nat) : State :=
  ⟨rotate state.a 5 + mixture i state + state.e + words.getD i 0, state.a, rotate state.b 30,
    state.c, state.d⟩

def absorb (bytes : ByteArray) (state : State) (start : Nat) : State :=
  let mixed := (List.range 80).foldl (round (schedule bytes start)) state
  ⟨state.a + mixed.a, state.b + mixed.b, state.c + mixed.c, state.d + mixed.d, state.e + mixed.e⟩

/-- The twenty bytes of the digest of a message. -/
def digest (message : ByteArray) : List UInt8 :=
  let bytes := filled message
  let state := (List.range (bytes.size / 64)).foldl (fun s i => absorb bytes s (64 * i)) initial
  [state.a, state.b, state.c, state.d, state.e].flatMap fun word => bigEndian 4 word.toNat

end TestSelection.Digest
