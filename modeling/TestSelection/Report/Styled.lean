/-!
Styled text. A text is made of spans, plain or in a style. Without colour the spans are written
one after the other; with colour each styled span follows a reset and the codes of its style, and
a reset comes after it, so no style reaches the text behind it.
-/

namespace TestSelection

inductive Style
  | runVerdict
  | skipVerdict
  | testName
  | reason
  | changedName
  deriving Repr, DecidableEq

structure Span where
  style : Option Style
  text : String
  deriving Repr, DecidableEq

namespace Style

/-- The select-graphic-rendition parameters of a style: weight first, then the colour. -/
def parameters : Style → List Nat
  | runVerdict => [1, 32]
  | skipVerdict => [1, 33]
  | testName => [1]
  | reason => [2]
  | changedName => [36]

end Style

def plain (text : String) : Span := ⟨none, text⟩

def styled (style : Style) (text : String) : Span := ⟨some style, text⟩

namespace Styled

def escapeSequence (parameter : Nat) : List Char :=
  ['\x1b', '['] ++ Nat.toDigits 10 parameter ++ ['m']

def coloured (span : Span) : List Char :=
  match span.style with
  | none => span.text.toList
  | some style =>
    (0 :: style.parameters).flatMap escapeSequence ++ span.text.toList ++ escapeSequence 0

def uncoloured (span : Span) : List Char := span.text.toList

/-- The written form of spans, in colour or without. -/
def written (colour : Bool) (spans : List Span) : String :=
  String.ofList (spans.flatMap (if colour then coloured else uncoloured))

end Styled

end TestSelection
