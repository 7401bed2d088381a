/-
HouseBoard.Yaml.Tokens — the lexemes of a YAML text, in order.

Deeper indentation opens a block collection and shallower indentation closes it.  What precedes
a colon on a line may turn out to be the key of a mapping, so each place where a key may have
begun is kept until it is known.
-/
import HouseBoard.Yaml.Scalar
import HouseBoard.Yaml.Tag

namespace HouseBoard.Yaml

/-! ## Keys that may have begun -/

/-- A place where the key of a mapping may have begun. -/
structure KeyPlace where
  /-- Whether what begins here can be nothing else. -/
  required : Bool
  /-- The number of lexemes before it. -/
  number : Nat
  index : Nat
  line : Nat
  column : Nat

/-- Whether no colon can follow any more: a key stays on its line and within 1024 characters. -/
def KeyPlace.isStale (k : KeyPlace) (c : Cursor) : Bool :=
  k.line < c.line || k.index + 1024 < c.index

/-- A place from which a key can still come; a text is at fault when a required key
has become stale. -/
def KeyPlace.settle (c : Cursor) : Option KeyPlace → Option (Option KeyPlace)
  | some k => if k.isStale c then (if k.required then none else some none) else some (some k)
  | none => some none

/-! ## The state of scanning -/

/-- What has been scanned so far. -/
structure Scan where
  cursor : Cursor
  tokens : Array Token := #[]
  /-- The columns of the open block collections, innermost first. -/
  indents : List Nat := []
  /-- Whether a key may begin here. -/
  keyAllowed : Bool := true
  /-- Where the key of the innermost collection may have begun. -/
  key : Option KeyPlace := none
  /-- The same for the collections around the open flow collections, innermost first. -/
  outer : List (Option KeyPlace) := []
  /-- Whether the text has ended. -/
  ended : Bool := false

namespace Scan

/-- Whether a flow collection is open. -/
def inFlow (s : Scan) : Bool := !s.outer.isEmpty

/-- Adds a lexeme. -/
def add (s : Scan) (t : Token) : Scan := { s with tokens := s.tokens.push t }

/-- Adds a lexeme that ends at a place. -/
def addTo (s : Scan) (t : Token) (c : Cursor) : Scan := { s.add t with cursor := c }

/-- Adds a lexeme that takes some characters. -/
def addOf (s : Scan) (t : Token) (width : Nat) : Scan := s.addTo t (s.cursor.skip width)

/-! ## Indentation -/

/-- Closes the block collections that are deeper than a column, or all of them. -/
def close (s : Scan) (column : Option Nat) : Scan :=
  if s.inFlow then s
  else
    let closed := s.indents.takeWhile fun i => column.all (· < i)
    { s with
      indents := s.indents.drop closed.length
      tokens := s.tokens ++ (closed.map fun _ => Token.blockEnd).toArray }

/-- Opens a block collection at a column deeper than the innermost one, before the
lexeme of a number. -/
def openBlock (s : Scan) (column : Nat) (t : Token) (number : Nat) : Scan :=
  if s.inFlow || s.indents.head?.any (column ≤ ·) then s
  else { s with indents := column :: s.indents,
                tokens := s.tokens.insertIdxIfInBounds number t }

/-! ## Keys -/

/-- Gives up the key that may have begun. -/
def dropKey (s : Scan) : Option Scan :=
  if s.key.any (·.required) then none else some { s with key := none }

/-- Notes that a key may begin here. -/
def saveKey (s : Scan) : Option Scan :=
  if s.keyAllowed then do
    let s ← s.dropKey
    let place : KeyPlace :=
      { required := !s.inFlow && s.indents.head? = some s.cursor.column
        number := s.tokens.size
        index := s.cursor.index
        line := s.cursor.line
        column := s.cursor.column }
    return { s with key := some place }
  else some s

/-! ## Space between lexemes -/

/-- Passes over blanks, comments and line ends. -/
def skipSpace : Nat → Scan → Scan
  | 0, s => s
  | fuel + 1, s =>
    let c := if s.cursor.index = 0 ∧ s.cursor.at? '\uFEFF' then s.cursor.next else s.cursor
    let c := c.skipWhile fun d => d = ' ' || ((s.inFlow || !s.keyAllowed) && d = '\t')
    let c := if c.at? '#' then c.skipWhile fun d => !isBreak d else c
    if c.atBreak then skipSpace fuel
      { s with cursor := c.nextLine, keyAllowed := !s.inFlow || s.keyAllowed }
    else { s with cursor := c }

/-! ## One lexeme -/

/-- The end of the text. -/
def scanEnd (s : Scan) : Option Scan := do
  let s ← (s.close none).dropKey
  return { s.add .streamEnd with ended := true }

/-- A directive. -/
def scanDirective (s : Scan) : Option Scan := do
  let s ← (s.close none).dropKey
  let (t, c) ← directive? s.cursor
  return { s.addTo t c with keyAllowed := false }

/-- A mark that separates documents. -/
def scanMark (s : Scan) (t : Token) : Option Scan := do
  let s ← (s.close none).dropKey
  return { s.addOf t 3 with keyAllowed := false }

/-- The bracket that opens a flow collection. -/
def scanOpening (s : Scan) (t : Token) : Option Scan := do
  let s ← s.saveKey
  return { s.addOf t 1 with outer := s.key :: s.outer, key := none, keyAllowed := true }

/-- The bracket that closes a flow collection. -/
def scanClosing (s : Scan) (t : Token) : Option Scan := do
  let s ← s.dropKey
  return { s.addOf t 1 with key := s.outer.head?.join, outer := s.outer.tail,
                            keyAllowed := false }

/-- The comma between the entries of a flow collection. -/
def scanComma (s : Scan) : Option Scan := do
  let s ← s.dropKey
  return { s.addOf .flowEntry 1 with keyAllowed := true }

/-- Opens a block collection for an indicator that stands here. -/
def openHere (s : Scan) (t : Token) : Option Scan :=
  if s.inFlow then some s
  else if s.keyAllowed then some (s.openBlock s.cursor.column t s.tokens.size)
  else none

/-- The hyphen of a sequence entry. -/
def scanHyphen (s : Scan) : Option Scan := do
  let s ← (← s.openHere .blockSequenceStart).dropKey
  return { s.addOf .blockEntry 1 with keyAllowed := true }

/-- The question mark of a key. -/
def scanQuestion (s : Scan) : Option Scan := do
  let s ← (← s.openHere .blockMappingStart).dropKey
  return { s.addOf .key 1 with keyAllowed := !s.inFlow }

/-- The colon before a value, which makes a key of what precedes it if a key may
have begun there. -/
def scanColon (s : Scan) : Option Scan := do
  match s.key with
  | some k =>
    let s := { s with tokens := s.tokens.insertIdxIfInBounds k.number .key, key := none }
    let s := s.openBlock k.column .blockMappingStart k.number
    return { s.addOf .value 1 with keyAllowed := false }
  | none =>
    let s ← s.openHere .blockMappingStart
    return { s.addOf .value 1 with keyAllowed := !s.inFlow }

/-- A block scalar. -/
def scanBlock (s : Scan) (isLiteral : Bool) : Option Scan := do
  let s ← s.dropKey
  let (text, c) ← block? isLiteral s.indents.head? s.cursor
  return { s.addTo (.scalar (String.ofList text) (if isLiteral then .literal else .folded)) c
           with keyAllowed := true }

/-- A lexeme with which a key may begin, and after which none may. -/
def scanWith (s : Scan) (next? : Cursor → Option (Token × Cursor)) : Option Scan := do
  let s ← s.saveKey
  let (t, c) ← next? s.cursor
  return { s.addTo t c with keyAllowed := false }

/-- A quoted scalar. -/
def scanQuoted (s : Scan) (single : Bool) : Option Scan :=
  s.scanWith fun c => (quoted? single c).map fun (text, c) =>
    (.scalar (String.ofList text) .quoted, c)

/-- A plain scalar; a key may begin on the line after it. -/
def scanPlain (s : Scan) : Option Scan := do
  let s ← s.saveKey
  let (text, broken, c) ← plain? s.inFlow (s.indents.head?.elim 0 (· + 1)) s.cursor
  return { s.addTo (.scalar (String.ofList text) .plain) c with keyAllowed := broken }

/-- Whether a character begins no plain scalar, whatever follows it. -/
def isIndicator (d : Char) : Bool :=
  d ∈ ['-', '?', ':', ',', '[', ']', '{', '}', '#', '&', '*', '!', '|', '>', '\'', '"',
    '%', '@', '\x60']

/-- Whether a plain scalar begins here. -/
def beginsPlain (s : Scan) (d : Char) : Bool :=
  !(isBlank d || isBreak d || isIndicator d)
    || (d = '-' && !(s.cursor.peek 1).any isBlank)
    || (!s.inFlow && (d = '?' || d = ':') && !s.cursor.isBoundary 1)

/-- The lexeme that begins with a character that stands here. -/
def scanFrom (s : Scan) (d : Char) : Option Scan :=
  let c := s.cursor
  let alone := c.isBoundary 1
  if c.column = 0 ∧ d = '%' then s.scanDirective
  else if c.atMark '-' then s.scanMark .documentStart
  else if c.atMark '.' then s.scanMark .documentEnd
  else if d = '[' then s.scanOpening .flowSequenceStart
  else if d = '{' then s.scanOpening .flowMappingStart
  else if d = ']' then s.scanClosing .flowSequenceEnd
  else if d = '}' then s.scanClosing .flowMappingEnd
  else if d = ',' then s.scanComma
  else if d = '-' ∧ alone then s.scanHyphen
  else if d = '?' ∧ (s.inFlow ∨ alone) then s.scanQuestion
  else if d = ':' ∧ (s.inFlow ∨ alone) then s.scanColon
  else if d = '*' then s.scanWith fun c => (anchorName? c).map fun (name, c) => (.alias name, c)
  else if d = '&' then s.scanWith fun c => (anchorName? c).map fun (name, c) =>
    (.anchor name, c)
  else if d = '!' then s.scanWith (tag? s.inFlow)
  else if d = '|' ∧ !s.inFlow then s.scanBlock true
  else if d = '>' ∧ !s.inFlow then s.scanBlock false
  else if d = '\'' then s.scanQuoted true
  else if d = '"' then s.scanQuoted false
  else if s.beginsPlain d then s.scanPlain
  else none

/-- The next lexeme. -/
def step (s : Scan) : Option Scan := do
  let s := s.skipSpace (s.cursor.rest.length + 1)
  let key ← KeyPlace.settle s.cursor s.key
  let outer ← s.outer.mapM (KeyPlace.settle s.cursor)
  let s := { s with key, outer }.close (some s.cursor.column)
  match s.cursor.peek with
  | none => s.scanEnd
  | some d => s.scanFrom d

/-- Scans to the end of the text. -/
def run : Nat → Scan → Option Scan
  | 0, _ => none
  | fuel + 1, s => if s.ended then some s else s.step.bind (run fuel)

end Scan

/-- The lexemes of a text; none if the text is at fault. -/
def Token.ofText? (text : String) : Option (List Token) :=
  if text.toList.all isAllowed then
    (Scan.run (text.length + 3) { cursor := { rest := text.toList } }).map (·.tokens.toList)
  else none

end HouseBoard.Yaml
