import TestSelection.Repository.Ignore

/-!
Attributes of files. A line has a pattern for paths and words behind it: a name says that an
attribute is there, a hyphen before it that it is not, an exclamation mark that nothing is said, and
an equals sign gives it a value. A line that begins with a mark gives a name to several attributes
instead. The last line about a path counts that names an attribute, and the files nearest to a path
come before those above it.
-/

namespace TestSelection

inductive AttributeValue
  | present
  | absent
  | unstated
  | text (value : Bytes)
  deriving Repr, DecidableEq

/-- Values by the names of attributes. Of several for one name the last one counts. -/
abbrev Attributes := List (Bytes × AttributeValue)

namespace Attributes

def value? (attributes : Attributes) (name : Bytes) : Option AttributeValue :=
  attributes.reverse.lookup name

def equals : UInt8 := 0x3d

def isMark (b : UInt8) : Bool := b = 0x2d || b = 0x21

/-- What a word says of an attribute. -/
def ofWord? (word : Bytes) : Option (Bytes × AttributeValue) :=
  let named := if word.head?.any isMark then word.drop 1 else word
  let name := named.takeWhile (· ≠ equals)
  let text := (named.dropWhile (· ≠ equals)).drop 1
  let value : AttributeValue :=
    if !text.isEmpty then .text text
    else if word.head? = some 0x2d then .absent
    else if word.head? = some 0x21 then .unstated
    else .present
  if name.isEmpty then none else some (name, value)

/-- Names for several attributes. -/
abbrev Groups := List (Bytes × Attributes)

def builtIn : Groups :=
  [(Text.bytes "binary", ["diff", "merge", "text", "crlf"].map fun name =>
    (Text.bytes name, .absent))]

/-- What the words of a line say. The name of a group says what the group does, and a word that
begins with a number sign ends the line. -/
def ofWords (groups : Groups) (text : Bytes) : Attributes :=
  let words := (text.splitOnP Options.isSpace).filter fun word => !word.isEmpty
  ((words.takeWhile fun word => word.head? ≠ some 0x23).filterMap ofWord?).flatMap
    fun (name, value) =>
      (if value = .present then (groups.lookup name).getD [] else []) ++ [(name, value)]

end Attributes

structure AttributeRule where
  pattern : Bytes
  negated : Bool
  directoryOnly : Bool
  wholePath : Bool
  attributes : Attributes
  deriving Repr, DecidableEq

namespace AttributeRule

/-- The text up to a blank that follows no backslash. -/
def upToBlank (escaped : Bool) : Bytes → Bytes
  | [] => []
  | b :: rest =>
    if Options.isSpace b && !escaped then []
    else b :: upToBlank (b = IgnoreRule.backslash && !escaped) rest

def groupMark : Bytes := Text.bytes "[attr]"

/-- The rule that a line states. Empty lines and comments state none. -/
def ofLine (groups : Attributes.Groups) (line : Bytes) : Option AttributeRule :=
  if line.head? = some 0x23 then none
  else
    let negated := line.head? = some 0x21
    let line := if negated then line.drop 1 else line
    let stated := upToBlank false line
    let attributes := Attributes.ofWords groups (line.drop stated.length)
    let slashes := stated.count FileSystem.slash
    let pattern := if stated.head? = some FileSystem.slash then stated.drop 1 else stated
    let directoryOnly := pattern.getLast? = some FileSystem.slash
    let wholePath := if directoryOnly then 1 < slashes else 0 < slashes
    if pattern.isEmpty || attributes.isEmpty then none
    else
      some ⟨IgnoreRule.unescapeBlanks (if directoryOnly then pattern.dropLast else pattern),
        negated, directoryOnly, wholePath, attributes⟩

/-- The rules of a file, and the groups that are known behind it. A file that may not name groups
has no such lines. -/
def read (mayName : Bool) (groups : Attributes.Groups) (content : Bytes) :
    Attributes.Groups × List AttributeRule :=
  (content.splitOn StoredObject.newline).foldl (fun (groups, rules) line =>
    let line := line.dropWhile Options.isSpace
    if groupMark.isPrefixOf line then
      match ofLine groups (line.drop groupMark.length) with
      | some rule => (if mayName then (rule.pattern, rule.attributes) :: groups else groups, rules)
      | none => (groups, rules)
    else (groups, rules ++ (ofLine groups line).toList)) (groups, [])

/-- Whether a rule is about a file, by its path below the directory of the rule's file. -/
def isAbout (rule : AttributeRule) (path : Bytes) : Bool :=
  let name := (path.reverse.takeWhile (· ≠ FileSystem.slash)).reverse
  let fits :=
    !rule.directoryOnly &&
      Wildcard.isMatch rule.wholePath rule.pattern (if rule.wholePath then path else name)
  fits ≠ rule.negated

/-- What the rules of a file say of an attribute. -/
def value? (rules : List AttributeRule) (path name : Bytes) : Option AttributeValue :=
  rules.reverse.findSome? fun rule =>
    if rule.isAbout path then rule.attributes.value? name else none

end AttributeRule

/-- The rules of a repository's own file, those of the directories, by their paths with a final
slash, and those of a file for all repositories. -/
structure AttributeRules where
  own : List AttributeRule
  ofDirectory : List (Bytes × List AttributeRule)
  general : List AttributeRule

namespace AttributeRules

/-- The rules of the given files. Groups are named in the files for whole repositories and in the
outermost directory. -/
def read (own general : Bytes) (ofDirectory : List (Bytes × Bytes)) : AttributeRules :=
  let (groups, general) := AttributeRule.read true Attributes.builtIn general
  let (groups, own) := AttributeRule.read true groups own
  let (outermost, others) := ofDirectory.partition fun file => file.1.isEmpty
  let (groups, top) : Attributes.Groups × List (Bytes × List AttributeRule) :=
    outermost.foldl (fun (groups, found) (_, content) =>
      let (groups, rules) := AttributeRule.read true groups content
      (groups, found ++ [([], rules)])) (groups, [])
  let below := others.map fun (directory, content) =>
    (directory, (AttributeRule.read false groups content).2)
  ⟨own, top ++ below, general⟩

/-- What the rules say of an attribute of a file. -/
def value (rules : AttributeRules) (path : Bytes) (name : String) : AttributeValue :=
  let around := (IgnoreRules.directoriesOf path).flatMap fun directory =>
    rules.ofDirectory.filter fun found => found.1 = directory
  let files : List (Bytes × List AttributeRule) :=
    ([], rules.own) :: around ++ [([], rules.general)]
  (files.findSome? fun (directory, found) =>
    AttributeRule.value? found (path.drop directory.length) (Text.bytes name)).getD .unstated

end AttributeRules

end TestSelection
