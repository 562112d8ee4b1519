/-!
The tokens of a YAML text. Indentation and the places of keys show up as tokens of their own, so
what follows need not look at columns.
-/

namespace TestSelection.Yaml

inductive ScalarStyle
  | plain
  | quoted
  | block
  deriving Repr, DecidableEq

inductive Token
  | streamStart
  | streamEnd
  | versionDirective (major minor : Nat)
  | tagDirective (handle start : String)
  | documentStart
  | documentEnd
  | blockSequenceStart
  | blockMappingStart
  | blockEnd
  | flowSequenceStart
  | flowSequenceEnd
  | flowMappingStart
  | flowMappingEnd
  | blockEntry
  | flowEntry
  | key
  | value
  | reference (anchor : String)
  | anchor (name : String)
  | tag (handle suffix : String)
  | scalar (content : String) (style : ScalarStyle)
  deriving Repr, DecidableEq

end TestSelection.Yaml
