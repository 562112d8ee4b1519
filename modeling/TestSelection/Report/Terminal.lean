import TestSelection.Report.Styled

/-!
What a terminal makes of a written text. A sequence is an escape character, an opening bracket,
parameters and the letter m. It is not shown; its parameters are in force from there on, until a
parameter of zero ends them all. Every other character is shown as it stands.

A writer marks a style by what it writes where the style is set and where styles are reset; a writer
without colour marks none.
-/

namespace TestSelection

namespace Terminal

def escape : Char := '\x1b'

def isParameterChar (c : Char) : Bool := c.isDigit || c = ';'

/-- The parameters of the sequence in front, and what follows it, if a sequence stands in front. -/
def sequence? : List Char → Option (List Char × List Char)
  | first :: '[' :: rest =>
    if first = escape then
      match rest.dropWhile isParameterChar with
      | 'm' :: after => some (rest.takeWhile isParameterChar, after)
      | _ => none
    else none
  | _ => none

/-- What a text tells a terminal: to show a character, or which parameters to take up. -/
inductive Piece
  | shown (c : Char)
  | sequence (parameters : List Char)
  deriving Repr, DecidableEq

theorem length_of_sequence? {text parameters after : List Char}
    (h : sequence? text = some (parameters, after)) : after.length < text.length := by
  unfold sequence? at h
  split at h
  · next first rest =>
    split at h
    · split at h
      · next last hdrop =>
        obtain ⟨_, rfl⟩ := Prod.mk.inj (Option.some.inj h)
        have hle := (List.dropWhile_suffix (l := rest) isParameterChar).length_le
        rw [hdrop, List.length_cons] at hle
        simp only [List.length_cons]
        omega
      · cases h
    · cases h
  · cases h

/-- A text as the pieces it is made of, sequences as long as they stand in front. -/
def pieces (text : List Char) : List Piece :=
  match text with
  | [] => []
  | c :: rest =>
    match _ : sequence? (c :: rest) with
    | some (parameters, after) => .sequence parameters :: pieces after
    | none => .shown c :: pieces rest
  termination_by text.length
  decreasing_by
    · exact length_of_sequence? ‹_›
    · simp

namespace Piece

def char? : Piece → Option Char
  | shown c => some c
  | sequence _ => none

end Piece

/-- The text with all its sequences deleted. -/
def withoutSequences (text : List Char) : List Char := (pieces text).filterMap Piece.char?

/-- A parameter as a number; one without digits is zero. -/
def parameter (digits : List Char) : Nat := Nat.ofDigitChars 10 digits 0

/-- What is in force after one more parameter. -/
def takeUp (inForce : List Nat) (parameter : Nat) : List Nat :=
  if parameter = 0 then [] else inForce ++ [parameter]

/-- What is in force after one more piece. -/
def Piece.act (inForce : List Nat) : Piece → List Nat
  | shown _ => inForce
  | sequence parameters => ((parameters.splitOn ';').map parameter).foldl takeUp inForce

/-- The parameters in force behind a text, when those of `before` are in force in front of it. -/
def inForce (before : List Nat) (text : List Char) : List Nat :=
  (pieces text).foldl Piece.act before

end Terminal

/-- What a writer writes where a style is set and where styles are reset. -/
structure Palette where
  set : Style → List Char
  reset : List Char

namespace Palette

/-- A span as it is written: its text, between setting its style and resetting it if it has one. -/
def drawn (palette : Palette) (span : Span) : List Char :=
  match span.style with
  | none => span.text.toList
  | some style => palette.set style ++ span.text.toList ++ palette.reset

def colourless : Palette := ⟨fun _ => [], []⟩

def ansi : Palette :=
  ⟨fun style => (0 :: style.parameters).flatMap Styled.escapeSequence, Styled.escapeSequence 0⟩

end Palette

end TestSelection
