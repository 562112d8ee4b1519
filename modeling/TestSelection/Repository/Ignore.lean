import TestSelection.Repository.Basic
import TestSelection.Repository.Wildcard

/-!
Ignore rules. A rule is a pattern for paths, and a rule with an exclamation mark takes back what
earlier ones say. A pattern with a slash inside it is meant for the whole path below the directory
of its file, any other pattern for the last name alone; a final slash asks for a directory. The
rules of a directory win against those of the directories above it, and among the rules of a file
the last one wins. What no rule is about is ignored with the directory it lies in.
-/

namespace TestSelection

structure IgnoreRule where
  pattern : Bytes
  negated : Bool
  directoryOnly : Bool
  wholePath : Bool
  wildcards : Bool
  deriving Repr, DecidableEq

namespace IgnoreRule

def backslash : UInt8 := 0x5c

def isBlank (b : UInt8) : Bool := b = 0x20 || b = 0x09

def isWildcard (b : UInt8) : Bool := b = 0x2a || b = 0x3f || b = 0x5b

/-- The text up to a form feed or a vertical tab that follows no backslash. -/
def upToBreak (escaped : Bool) : Bytes → Bytes
  | [] => []
  | b :: rest =>
    if (b = 0x0b || b = 0x0c) && !escaped then []
    else b :: upToBreak (b = backslash && !escaped) rest

/-- Whether a wildcard stands in the text that follows no backslash. -/
def hasWildcard (escaped : Bool) : Bytes → Bool
  | [] => false
  | b :: rest => isWildcard b && !escaped || hasWildcard (b = backslash && !escaped) rest

/-- The reversed text without the blanks it begins with; a blank behind an odd number of backslashes
stays. -/
def dropBlanks : Bytes → Bytes
  | [] => []
  | b :: rest =>
    if isBlank b && (rest.takeWhile (· = backslash)).length % 2 = 0 then dropBlanks rest
    else b :: rest

/-- The text without the backslashes before blanks. -/
def unescapeBlanks : Bytes → Bytes
  | [] => []
  | [b] => if b = backslash then [] else [b]
  | b :: c :: rest =>
    if b = backslash then
      if Options.isSpace c then c :: unescapeBlanks rest else b :: c :: unescapeBlanks rest
    else b :: unescapeBlanks (c :: rest)

/-- The rule that a line states. Empty lines and comments state none. -/
def ofLine (line : Bytes) : Option IgnoreRule :=
  if line.head? = some 0x23 then none
  else
    let negated := line.head? = some 0x21
    let stated := upToBreak false (if negated then line.drop 1 else line)
    let slashes := stated.count FileSystem.slash
    let pattern := if stated.head? = some FileSystem.slash then stated.drop 1 else stated
    let pattern := if pattern.getLast? = some 0x0d then pattern.dropLast else pattern
    let pattern := (dropBlanks pattern.reverse).reverse
    let directoryOnly := pattern.getLast? = some FileSystem.slash
    let wholePath := if directoryOnly then 1 < slashes else 0 < slashes
    if pattern.isEmpty then none
    else
      some ⟨unescapeBlanks (if directoryOnly then pattern.dropLast else pattern), negated,
        directoryOnly, wholePath, hasWildcard false stated⟩

/-- Whether a rule with the pattern `shorter` takes back one with the pattern `longer`, or the other
way round: the two are equal, or one is the last name of the other. -/
def opposes (rule other : Bytes) : Bool :=
  let (shorter, longer) := if rule.length < other.length then (rule, other) else (other, rule)
  rule = other ||
    rule.length ≠ other.length && !shorter.contains FileSystem.slash &&
      (FileSystem.slash :: shorter).isSuffixOf longer

/-- Whether a negated rule without wildcards takes back something that `earlier` says. Both stand
in the file of the directory `directory`. -/
def negates (directory : Bytes) (rule earlier : IgnoreRule) : Bool :=
  if earlier.wildcards then
    Wildcard.isMatch earlier.wholePath (directory ++ earlier.pattern) (directory ++ rule.pattern)
  else !earlier.negated && opposes earlier.pattern rule.pattern

/-- The rules of a file. A negated rule without wildcards that takes nothing back is left out. -/
def read (directory content : Bytes) : List IgnoreRule :=
  (content.splitOn StoredObject.newline).foldl (fun rules line =>
    match ofLine line with
    | none => rules
    | some rule =>
      if rule.negated && !rule.wildcards && !rules.any (negates directory rule) then rules
      else rules ++ [rule]) []

/-- Whether a rule is about a path below the directory of its file. -/
def isAbout (rule : IgnoreRule) (path : Bytes) (isDirectory : Bool) : Bool :=
  let name := (path.reverse.takeWhile (· ≠ FileSystem.slash)).reverse
  if rule.directoryOnly && !isDirectory then
    name ≠ path && rule.pattern ≠ path && Wildcard.isMatch rule.wholePath rule.pattern path
  else Wildcard.isMatch rule.wholePath rule.pattern (if rule.wholePath then path else name)

/-- What the rules of a file say of a path: ignored, not ignored, or nothing. -/
def verdict (rules : List IgnoreRule) (path : Bytes) (isDirectory : Bool) : Option Bool :=
  (rules.reverse.find? fun rule => rule.isAbout path isDirectory).map fun rule => !rule.negated

end IgnoreRule

/-- The rules of each directory that has a file with some, by its path with a final slash, and the
rules for the whole repository. -/
structure IgnoreRules where
  ofDirectory : List (Bytes × List IgnoreRule)
  general : List (List IgnoreRule)

namespace IgnoreRules

/-- The directories that a path lies in, the nearest first, each with a final slash. -/
def directoriesOf (path : Bytes) : List Bytes :=
  ((List.range path.length).reverse.filter fun i => path[i]? = some FileSystem.slash).map
    (fun i => path.take (i + 1)) ++ [[]]

/-- What the rules say of a path alone. -/
def verdict (rules : IgnoreRules) (path : Bytes) (isDirectory : Bool) : Option Bool :=
  ((directoriesOf path).findSome? fun directory =>
    (rules.ofDirectory.lookup directory).bind fun found =>
      IgnoreRule.verdict found (path.drop directory.length) isDirectory).or
    (rules.general.findSome? fun found => IgnoreRule.verdict found path isDirectory)

/-- Whether a path is ignored: as the rules say of it, or else of the nearest directory around it
that they are about. -/
def isIgnored (rules : IgnoreRules) (path : Bytes) (isDirectory : Bool) : Bool :=
  let around := (directoriesOf path).dropLast.map fun directory => (directory.dropLast, true)
  (((path, isDirectory) :: around).findSome? fun (path, isDirectory) =>
    rules.verdict path isDirectory).getD false

end IgnoreRules

end TestSelection
