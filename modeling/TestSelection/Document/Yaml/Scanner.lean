import TestSelection.Document.Yaml.Scalar
import TestSelection.Document.Yaml.Token

/-!
From the text to tokens, one construct at a time. A key is recognised by the colon behind it, so
the place where a key may have started is remembered until the colon comes or the line ends, and
its tokens are put in front of what has been read since. Outside brackets a deeper column opens a
block and a shallower one closes the blocks that are deeper.
-/

namespace TestSelection.Yaml

/-- A place where a key may have started: the number of its first token, and whether only a key may
stand there. -/
structure KeyPlace where
  required : Bool
  number : Nat
  index : Nat
  line : Nat
  column : Nat

structure Scanner where
  cursor : Cursor
  started : Bool := false
  indent : Int := -1
  outer : List Int := []
  keyAllowed : Bool := true
  /-- The place of a possible key on every level of brackets, the innermost level first. -/
  places : List (Option KeyPlace) := [none]
  queue : List Token := []
  taken : Nat := 0

namespace Scanner

def inFlow (scanner : Scanner) : Bool := 1 < scanner.places.length

def enqueue (scanner : Scanner) (token : Token) : Scanner :=
  { scanner with queue := scanner.queue ++ [token] }

def insertAt (scanner : Scanner) (number : Nat) (token : Token) : Scanner :=
  let place := number - scanner.taken
  { scanner with queue := scanner.queue.take place ++ token :: scanner.queue.drop place }

def moveTo (scanner : Scanner) (cursor : Cursor) : Scanner := { scanner with cursor := cursor }

def allowKey (scanner : Scanner) (allowed : Bool) : Scanner :=
  { scanner with keyAllowed := allowed }

/-- Whether a key can no longer have started at a place: a key ends on its line and within 1024
characters. -/
def isStale (cursor : Cursor) (place : KeyPlace) : Bool :=
  place.line < cursor.line || place.index + 1024 < cursor.index

/-- Forgets places that are out of date. It is a fault if only a key could stand at one of them. -/
def forgetStale (scanner : Scanner) : Option Scanner :=
  let stale (place : Option KeyPlace) := place.any (isStale scanner.cursor)
  if scanner.places.any fun place => stale place && place.any (·.required) then none
  else
    some { scanner with
      places := scanner.places.map fun place => if stale place then none else place }

/-- Forgets the place on the innermost level. -/
def forgetPlace (scanner : Scanner) : Option Scanner :=
  match scanner.places with
  | some place :: outer =>
    if place.required then none else some { scanner with places := none :: outer }
  | _ => some scanner

/-- Remembers that a key may start here. -/
def rememberPlace (scanner : Scanner) : Option Scanner :=
  if !scanner.keyAllowed then some scanner
  else
    scanner.forgetPlace.map fun cleared =>
      let cursor := scanner.cursor
      let required := !scanner.inFlow && scanner.indent = cursor.column
      let place : KeyPlace :=
        ⟨required, scanner.taken + scanner.queue.length, cursor.index, cursor.line, cursor.column⟩
      { cleared with places := some place :: cleared.places.drop 1 }

/-- Opens a block whose entries stand in `column`, unless one is open there. Its token goes to the
given number, or to the end. -/
def openBlock (scanner : Scanner) (column : Nat) (number : Option Nat) (token : Token) : Scanner :=
  if scanner.inFlow || (column : Int) ≤ scanner.indent then scanner
  else
    let deeper :=
      { scanner with indent := column, outer := scanner.indent :: scanner.outer }
    match number with
    | none => deeper.enqueue token
    | some number => deeper.insertAt number token

/-- Closes the blocks that are deeper than `column`. -/
def closeBlocks (column : Int) : List Int → Scanner → Scanner
  | [], scanner => scanner
  | indent :: outer, scanner =>
    if scanner.inFlow || scanner.indent ≤ column then scanner
    else closeBlocks column outer
      ({ scanner with indent := indent, outer := outer }.enqueue .blockEnd)

def closeTo (scanner : Scanner) (column : Int) : Scanner :=
  closeBlocks column scanner.outer scanner

/-- Passes over blanks, comments and line breaks. Outside brackets a new line may start a key, and
a tab may not stand where a key may. -/
def toNextToken : Nat → Scanner → Scanner
  | 0, scanner => scanner
  | fuel + 1, scanner =>
    let tabs := scanner.inFlow || !scanner.keyAllowed
    let marked :=
      if scanner.cursor.index = 0 && scanner.cursor.starts '\ufeff' then scanner.cursor.skip 1
      else scanner.cursor
    let blank := marked.skipWhile fun c => c = ' ' || (tabs && c = '\t')
    let shown := if blank.starts '#' then blank.skipWhile fun c => !isBreak c else blank
    if shown.atBreak then
      toNextToken fuel { scanner with
        cursor := shown.skipBreak, keyAllowed := scanner.keyAllowed || !scanner.inFlow }
    else scanner.moveTo shown

/-- Closes all blocks and forgets the place of a key, before a mark between documents. -/
def leaveDocument (scanner : Scanner) : Option Scanner :=
  ((scanner.closeTo (-1)).forgetPlace).map (·.allowKey false)

def takeStreamEnd (scanner : Scanner) : Option Scanner :=
  scanner.leaveDocument.map (·.enqueue .streamEnd)

def takeVersionNumber (cursor : Cursor) : Option (Nat × Cursor) :=
  let digits := cursor.rest.takeWhile Char.isDigit
  if digits.isEmpty || 9 < digits.length then none
  else some (digits.foldl (fun n c => 10 * n + (c.toNat - 48)) 0, cursor.skip digits.length)

/-- The handle of a tag: an exclamation mark, a word, and another mark or none. -/
def takeHandle (directive : Bool) (cursor : Cursor) : Option (List Char × Cursor) :=
  if !cursor.starts '!' then none
  else
    let word := (cursor.rest.drop 1).takeWhile isWord
    let next := cursor.skip (1 + word.length)
    if next.starts '!' then some ('!' :: word ++ ['!'], next.skip 1)
    else if directive && !word.isEmpty then none
    else some ('!' :: word, next)

def isUri (withMarks : Bool) (c : Char) : Bool :=
  isWord c || ";/?:@&=+$.!~*'()%".toList.contains c ||
    (withMarks && (c = ',' || c = '[' || c = ']'))

/-- The bytes written as a percent sign with two hexadecimal digits each, as far as they go. -/
def percentBytes : Nat → List Char → List Nat
  | 0, _ => []
  | fuel + 1, '%' :: a :: b :: rest =>
    match JsonText.hexValue [a, b] with
    | some byte => byte :: percentBytes fuel rest
    | none => []
  | _, _ => []

/-- The length of the character that starts with a byte. -/
def leadWidth (byte : Nat) : Nat :=
  if byte < 0x80 then 1
  else if byte / 0x20 = 6 then 2
  else if byte / 0x10 = 0xE then 3
  else if byte / 0x08 = 0x1E then 4
  else 0

/-- The character written in front as escaped bytes. -/
def takeUriEscape (cursor : Cursor) : Option (Char × Cursor) :=
  let bytes := percentBytes 4 cursor.rest
  match bytes with
  | [] => none
  | lead :: more =>
    let width := leadWidth lead
    if width = 0 || bytes.length < width then none
    else
      let tail := more.take (width - 1)
      if tail.any fun byte => byte / 0x40 ≠ 2 then none
      else
        let start := if width = 1 then lead else lead % Nat.pow 2 (7 - width)
        some (Char.ofNat (tail.foldl (fun n byte => n * 0x40 + byte % 0x40) start),
          cursor.skip (3 * width))

def takeUriRun (withMarks : Bool) : Nat → List Char → Cursor → Option (List Char × Cursor)
  | 0, _, _ => none
  | fuel + 1, read, cursor =>
    match cursor.peek with
    | none => some (read.reverse, cursor)
    | some c =>
      if !isUri withMarks c then some (read.reverse, cursor)
      else if c = '%' then
        (takeUriEscape cursor).bind fun (e, next) => takeUriRun withMarks fuel (e :: read) next
      else takeUriRun withMarks fuel (c :: read) (cursor.skip 1)

/-- The address of a tag behind the part of it that has been read as a handle. -/
def takeUri (withMarks : Bool) (head : List Char) (cursor : Cursor) : Option (List Char × Cursor) :=
  (takeUriRun withMarks (cursor.rest.length + 1) [] cursor).bind fun (run, next) =>
    if head.isEmpty && run.isEmpty then none else some (head.drop 1 ++ run, next)

def takeDirective (scanner : Scanner) : Option Scanner :=
  scanner.leaveDocument.bind fun left =>
    let cursor := left.cursor.skip 1
    let name := cursor.rest.takeWhile isWord
    let next := cursor.skip name.length
    if name.isEmpty || !next.atGap then none
    else if name = "YAML".toList then
      (takeVersionNumber (next.skipWhile isBlank)).bind fun (major, dot) =>
        if !dot.starts '.' then none
        else
          (takeVersionNumber (dot.skip 1)).bind fun (minor, tail) =>
          tail.finishLine.map fun after =>
            (left.moveTo after).enqueue (.versionDirective major minor)
    else if name = "TAG".toList then
      (takeHandle true (next.skipWhile isBlank)).bind fun (handle, gap) =>
        if !gap.atBlank then none
        else
          (takeUri true [] (gap.skipWhile isBlank)).bind fun (start, tail) =>
            if !tail.atGap then none
            else
              tail.finishLine.map fun after =>
                (left.moveTo after).enqueue
                  (.tagDirective (String.ofList handle) (String.ofList start))
    else none

def takeDocumentMark (token : Token) (scanner : Scanner) : Option Scanner :=
  scanner.leaveDocument.map fun left => (left.moveTo (left.cursor.skip 3)).enqueue token

/-- Passes over one character that is a token of its own. -/
def takeMark (scanner : Scanner) (token : Token) : Scanner :=
  (scanner.moveTo (scanner.cursor.skip 1)).enqueue token

def openFlow (token : Token) (scanner : Scanner) : Option Scanner :=
  scanner.rememberPlace.map fun kept =>
    ({ kept with places := none :: kept.places, keyAllowed := true }).takeMark token

def closeFlow (token : Token) (scanner : Scanner) : Option Scanner :=
  scanner.forgetPlace.map fun cleared =>
    let places := if cleared.inFlow then cleared.places.drop 1 else cleared.places
    ({ cleared with places := places, keyAllowed := false }).takeMark token

def takeFlowEntry (scanner : Scanner) : Option Scanner :=
  scanner.forgetPlace.map fun cleared => (cleared.allowKey true).takeMark .flowEntry

def takeBlockEntry (scanner : Scanner) : Option Scanner :=
  if !scanner.inFlow && !scanner.keyAllowed then none
  else
    (scanner.openBlock scanner.cursor.column none .blockSequenceStart).forgetPlace.map
      fun cleared => (cleared.allowKey true).takeMark .blockEntry

def takeKey (scanner : Scanner) : Option Scanner :=
  if !scanner.inFlow && !scanner.keyAllowed then none
  else
    (scanner.openBlock scanner.cursor.column none .blockMappingStart).forgetPlace.map
      fun cleared => (cleared.allowKey (!cleared.inFlow)).takeMark .key

def takeValue (scanner : Scanner) : Option Scanner :=
  match scanner.places with
  | some place :: outer =>
    let keyed := ({ scanner with places := none :: outer }).insertAt place.number .key
    let opened := keyed.openBlock place.column (some place.number) .blockMappingStart
    some ((opened.allowKey false).takeMark .value)
  | _ =>
    if !scanner.inFlow && !scanner.keyAllowed then none
    else
      let opened := scanner.openBlock scanner.cursor.column none .blockMappingStart
      some ((opened.allowKey (!opened.inFlow)).takeMark .value)

/-- Takes a construct that may be a key or the start of one. -/
def takeKeyPart (scanner : Scanner) (take : Cursor → Option (Token × Cursor)) : Option Scanner :=
  scanner.rememberPlace.bind fun kept =>
    (take kept.cursor).map fun (token, next) =>
      ((kept.allowKey false).moveTo next).enqueue token

def isAfterAnchor (c : Char) : Bool := "?:,]\x7d%@`".toList.contains c

def takeAnchor (token : String → Token) (cursor : Cursor) : Option (Token × Cursor) :=
  let name := (cursor.rest.drop 1).takeWhile isWord
  let next := cursor.skip (1 + name.length)
  if name.isEmpty || !(next.atGap || next.holdsAt 0 isAfterAnchor) then none
  else some (token (String.ofList name), next)

def tagToken (handle suffix : List Char) : Token :=
  .tag (String.ofList handle) (String.ofList suffix)

/-- A tag in angle brackets, with a handle, or with the exclamation mark alone for a handle. -/
def takeTagText (cursor : Cursor) : Option (Token × Cursor) :=
  if cursor.startsAt 1 '<' then
    (takeUri true [] (cursor.skip 2)).bind fun (suffix, next) =>
      if next.starts '>' then some (tagToken [] suffix, next.skip 1) else none
  else
    (takeHandle false cursor).bind fun (handle, next) =>
      if 2 ≤ handle.length && handle.getLast? = some '!' then
        (takeUri false [] next).map fun (suffix, after) => (tagToken handle suffix, after)
      else
        (takeUri false handle next).map fun (suffix, after) =>
          (if suffix.isEmpty then tagToken [] ['!'] else tagToken ['!'] suffix, after)

def takeTag (inFlow : Bool) (cursor : Cursor) : Option (Token × Cursor) :=
  (takeTagText cursor).bind fun (token, next) =>
    if next.atGap || (inFlow && next.starts ',') then some (token, next) else none

def takeBlockScalar (literal : Bool) (scanner : Scanner) : Option Scanner :=
  scanner.forgetPlace.bind fun cleared =>
    (takeBlock literal cleared.indent (cleared.cursor.skip 1)).map fun (content, next) =>
      ((cleared.allowKey true).moveTo next).enqueue (.scalar (String.ofList content) .block)

def takeQuotedScalar (double : Bool) (cursor : Cursor) : Option (Token × Cursor) :=
  (takeQuoted double (cursor.rest.length + 2) [] (cursor.skip 1)).map fun (content, next) =>
    (.scalar (String.ofList content) .quoted, next)

def takePlainScalar (scanner : Scanner) : Option Scanner :=
  scanner.rememberPlace.bind fun kept =>
    (takePlain kept.inFlow (kept.indent + 1).toNat (kept.cursor.rest.length + 2) [] {}
      kept.cursor).map fun (content, newLine, next) =>
        ((kept.allowKey newLine).moveTo next).enqueue (.scalar (String.ofList content) .plain)

/-- A character that starts no plain scalar. -/
def isIndicator (c : Char) : Bool := "-?:,[]\x7b\x7d#&*!|>'\"%@`".toList.contains c

def startsPlain (scanner : Scanner) (c : Char) : Bool :=
  let cursor := scanner.cursor
  !(isBlank c || isBreak c || isIndicator c) || (c = '-' && !cursor.holdsAt 1 isBlank) ||
    (!scanner.inFlow && (c = '?' || c = ':') && !cursor.isGapAt 1)

/-- Takes the construct that starts here, by its first character. -/
def takeConstruct (scanner : Scanner) (c : Char) : Option Scanner :=
  let cursor := scanner.cursor
  if cursor.column = 0 && c = '%' then scanner.takeDirective
  else if cursor.atMark '-' then scanner.takeDocumentMark .documentStart
  else if cursor.atMark '.' then scanner.takeDocumentMark .documentEnd
  else if c = '[' then scanner.openFlow .flowSequenceStart
  else if c = '\x7b' then scanner.openFlow .flowMappingStart
  else if c = ']' then scanner.closeFlow .flowSequenceEnd
  else if c = '\x7d' then scanner.closeFlow .flowMappingEnd
  else if c = ',' then scanner.takeFlowEntry
  else if c = '-' && cursor.isGapAt 1 then scanner.takeBlockEntry
  else if c = '?' && (scanner.inFlow || cursor.isGapAt 1) then scanner.takeKey
  else if c = ':' && (scanner.inFlow || cursor.isGapAt 1) then scanner.takeValue
  else if c = '*' then scanner.takeKeyPart (takeAnchor .reference)
  else if c = '&' then scanner.takeKeyPart (takeAnchor .anchor)
  else if c = '!' then scanner.takeKeyPart (takeTag scanner.inFlow)
  else if c = '|' && !scanner.inFlow then scanner.takeBlockScalar true
  else if c = '>' && !scanner.inFlow then scanner.takeBlockScalar false
  else if c = '\'' then scanner.takeKeyPart (takeQuotedScalar false)
  else if c = '"' then scanner.takeKeyPart (takeQuotedScalar true)
  else if scanner.startsPlain c then scanner.takePlainScalar
  else none

/-- Reads one more construct into the queue. -/
def fetch (scanner : Scanner) : Option Scanner :=
  if !scanner.started then some ({ scanner with started := true }.enqueue .streamStart)
  else
    (toNextToken (scanner.cursor.rest.length + 1) scanner).forgetStale.bind fun current =>
      let closed := current.closeTo current.cursor.column
      match closed.cursor.peek with
      | none => closed.takeStreamEnd
      | some c => closed.takeConstruct c

/-- Whether the token in front may still have to give way to the start of a key. -/
def headOpen (scanner : Scanner) : Bool :=
  scanner.places.any fun place => place.any (·.number = scanner.taken)

/-- Reads on until the token in front is settled. -/
def settle : Nat → Scanner → Option Scanner
  | 0, _ => none
  | fuel + 1, scanner =>
    if scanner.queue.isEmpty then scanner.fetch.bind (settle fuel)
    else
      scanner.forgetStale.bind fun current =>
        if current.headOpen then current.fetch.bind (settle fuel) else some current

def peek (scanner : Scanner) : Option (Token × Scanner) :=
  (settle (2 * scanner.cursor.rest.length + 8) scanner).bind fun settled =>
    settled.queue.head?.map fun token => (token, settled)

def drop (scanner : Scanner) : Scanner :=
  { scanner with queue := scanner.queue.drop 1, taken := scanner.taken + 1 }

def ofText (text : List Char) : Scanner := { cursor := ⟨text, 0, 0, 0⟩ }

end Scanner

end TestSelection.Yaml
