/-
HouseBoard.Yaml.Token — the lexemes of YAML texts.
-/
import HouseBoard.Yaml.Cursor

namespace HouseBoard.Yaml

/-- How a scalar is written, as far as it matters for its meaning. -/
inductive ScalarStyle where
  | plain
  | quoted
  | literal
  | folded
  deriving DecidableEq, Repr, Inhabited

/-- A lexeme.  The starts and ends of block collections are drawn from the indentation. -/
inductive Token where
  | version (major minor : Nat)
  | tagDirective (handle replacement : String)
  | documentStart
  | documentEnd
  | streamEnd
  | blockSequenceStart
  | blockMappingStart
  | blockEnd
  | flowSequenceStart
  | flowSequenceEnd
  | flowMappingStart
  | flowMappingEnd
  | blockEntry
  | flowEntry
  | key
  | value
  | alias (name : String)
  | anchor (name : String)
  | tag (handle suffix : String)
  | scalar (text : String) (style : ScalarStyle)
  deriving DecidableEq, Repr, Inhabited

end HouseBoard.Yaml
