import TestSelection.Repository.Attributes
import TestSelection.Repository.Index

/-!
What is stored of the content of a working file. Lines may end with a carriage return before the
line feed in the working file and with a line feed alone in what is stored, and a name that was
filled in when the file was written is taken out again. Whether this is done is a matter of the
attributes of the file and of the settings; where nothing is said of a file, it has to look like
text.
-/

namespace TestSelection

/-- What is done with the ends of lines. -/
inductive LineEnds
  | kept
  | converted
  /-- They are converted in what looks like text and is not stored with carriage returns. -/
  | guessed
  deriving Repr, DecidableEq

namespace LineEnds

/-- What the attribute for text says. -/
def ofText : AttributeValue → Option LineEnds
  | .present => some .converted
  | .absent => some .kept
  | .unstated => none
  | .text value =>
    if value = Text.bytes "input" then some .converted
    else if value = Text.bytes "auto" then some .guessed
    else none

/-- Whether the attribute for the ends of lines names one. -/
def isNamed : AttributeValue → Bool
  | .text value => value = Text.bytes "lf" || value = Text.bytes "crlf"
  | _ => false

/-- What the settings say where the attributes say nothing. -/
def ofOptions (options : Options) : LineEnds :=
  let word := (options.text? "core.autocrlf").map fun value => value.map Options.lower
  let isInput := word = some (Text.bytes "input")
  let isOn := (options.truth? "core.autocrlf").toOption = some (some true)
  if isInput || isOn then .guessed else .kept

def ofFile (rules : AttributeRules) (options : Options) (path : Bytes) : LineEnds :=
  let stated := (ofText (rules.value path "text")).or (ofText (rules.value path "crlf"))
  match stated, isNamed (rules.value path "eol") with
  | some .kept, _ => .kept
  | some .guessed, _ => .guessed
  | some .converted, _ | none, true => .converted
  | none, false => ofOptions options

end LineEnds

namespace Conversion

def carriageReturn : UInt8 := 0x0d

/-- The content without the carriage returns that stand before a line feed. -/
def withoutReturns : Bytes → Bytes
  | [] => []
  | b :: rest =>
    if b = carriageReturn && rest.head? = some StoredObject.newline then withoutReturns rest
    else b :: withoutReturns rest

def isPrintable (b : UInt8) : Bool :=
  0x1f < b && b ≠ 0x7f || b = 0x08 || b = 0x0c || b = 0x1b

/-- Whether there is more that cannot be printed than one byte in 128. Tabs are left to the
caller. -/
def hasUnprintable (isPrinted : UInt8 → Bool) (content : Bytes) : Bool :=
  content.countP isPrinted / 128 <
    content.countP fun b => !isPrinted b && !Options.isSpace b

/-- Whether the ends of lines are not to be trusted. A final mark for the end of a file does not
count. -/
def isBinary (content : Bytes) : Bool :=
  let content := if content.getLast? = some 0x1a then content.dropLast else content
  (withoutReturns content).contains carriageReturn || content.contains 0 ||
    hasUnprintable (fun b => isPrintable b || b = 0x09 || b = 0x0b) content

/-- The marks at the beginning of texts whose characters take two or four bytes. -/
def wideMarks : List Bytes := [[0xfe, 0xff], [0xff, 0xfe], [0x00, 0x00, 0xfe, 0xff]]

/-- Whether content is no place for names that are filled in. -/
def isUnnamed (content : Bytes) : Bool :=
  let text := if Options.byteOrderMark.isPrefixOf content then content.drop 3 else content
  wideMarks.any (·.isPrefixOf content) || text.contains 0 || hasUnprintable isPrintable text

def dollar : UInt8 := 0x24

def nameStart : Bytes := Text.bytes "Id"

/-- The content without what is filled in at the first name. What stands between two of the marks
counts as a name as well, if the content ends three bytes behind the first one. -/
def withoutName? : Bytes → Option Bytes
  | [] => none
  | b :: rest =>
    if b ≠ dollar then (withoutName? rest).map (b :: ·)
    else if rest.length < 3 then none
    else if nameStart.isPrefixOf rest || rest.length = 3 then
      match (rest.drop 2).dropWhile (· ≠ dollar) with
      | [] => none
      | _ :: behind => some (dollar :: nameStart ++ dollar :: behind)
    else (withoutName? rest).map (b :: ·)

end Conversion

namespace Repository

/-- Whether what the index has at a path keeps the ends of lines as they are: it has carriage
returns, or is no file. -/
def keepsReturns (repository : Repository) (index : Index) (path : Bytes) : Bool :=
  match index.find? fun indexed => indexed.path = path && indexed.stage ≤ 1 with
  | none => false
  | some indexed =>
    !indexed.entry.mode.isPlain ||
      match repository.stored indexed.entry.id with
      | .ok (_, content) => content.data.contains Conversion.carriageReturn
      | .error _ => false

/-- What is stored of the content of the working file at a path. -/
def storedContent (repository : Repository) (rules : AttributeRules) (index : Index) (path : Bytes)
    (content : ByteArray) : ByteArray :=
  let bytes := content.data.toList
  let named :=
    if rules.value path "ident" = .present && !Conversion.isUnnamed bytes then
      (Conversion.withoutName? bytes).getD bytes
    else bytes
  let converted :=
    match LineEnds.ofFile rules repository.options path with
    | .kept => named
    | .converted => Conversion.withoutReturns named
    | .guessed =>
      if Conversion.isBinary named || keepsReturns repository index path then named
      else Conversion.withoutReturns named
  converted.toByteArray

end Repository

end TestSelection
