/-
HouseBoard.Yaml.Scalar — the scalars of YAML texts.

Each scanner gives the characters of the scalar and the place after it.  In plain and quoted
scalars a single line end becomes a space and further ones stay; a literal block keeps all of
them, a folded one those around indented lines.
-/
import HouseBoard.Yaml.Token
import HouseBoard.Text.Digits

namespace HouseBoard.Yaml

/-! ## Blanks between the words of a scalar -/

/-- The blanks and line ends between two words. -/
structure Gap where
  /-- Blanks on the line of the first word. -/
  blanks : List Char := []
  /-- The first line end. -/
  first : List Char := []
  /-- The further line ends. -/
  further : List Char := []
  /-- Whether a line has ended. -/
  broken : Bool := false

namespace Gap

/-- What a gap contributes to the text. -/
def text (g : Gap) : List Char :=
  if !g.broken then g.blanks
  else if g.first = ['\n'] then (if g.further = [] then [' '] else g.further)
  else g.first ++ g.further

/-- Takes the blanks and line ends that stand here.  Before column `tabLimit` a line
may not hold a tab. -/
def take (tabLimit : Nat) : Nat → Cursor → Gap → Option (Cursor × Gap)
  | 0, _, _ => none
  | fuel + 1, c, g =>
    match c.peek with
    | some d =>
      if isBlank d then
        if g.broken ∧ c.column < tabLimit ∧ d = '\t' then none
        else take tabLimit fuel c.next
          (if g.broken then g else { g with blanks := g.blanks ++ [d] })
      else if isBreak d then
        let g := if g.broken then { g with further := g.further ++ c.breakText }
          else { g with blanks := [], first := c.breakText, broken := true }
        take tabLimit fuel c.nextLine g
      else some (c, g)
    | none => some (c, g)

end Gap

/-! ## Plain scalars -/

/-- A character that opens or closes a flow collection. -/
def isFlowBracket (c : Char) : Bool := c = '[' || c = ']' || c = '{' || c = '}'

/-- Whether a plain scalar cannot go on here. -/
def endsPlain (inFlow : Bool) (c : Cursor) : Bool :=
  (c.at? ':' && c.isBoundary 1) || (inFlow && c.peek.any fun d => d = ',' || isFlowBracket d)

/-- A colon that a flow collection does not allow inside a plain scalar. -/
def isStrayColon (inFlow : Bool) (c : Cursor) : Bool :=
  inFlow && c.at? ':' && (c.peek 1).any fun d => d = ',' || d = '?' || isFlowBracket d

/-- A scalar as it has been scanned so far: its characters in reverse order, and the place. -/
structure Scanned where
  cursor : Cursor
  reversed : List Char
  gap : Gap := {}

/-- Takes the characters of a word of a plain scalar. -/
def plainWord (inFlow : Bool) : Nat → Scanned → Option Scanned
  | 0, _ => none
  | fuel + 1, s =>
    let c := s.cursor
    match c.peek with
    | none => some s
    | some d =>
      if isBlank d || isBreak d then some s
      else if isStrayColon inFlow c then none
      else if endsPlain inFlow c then some s
      else plainWord inFlow fuel
        { cursor := c.next, reversed := d :: (s.gap.text.reverse ++ s.reversed), gap := {} }

/-- Takes the words of a plain scalar, which on further lines stand at `indent` or deeper. -/
def plainWords (inFlow : Bool) (indent : Nat) : Nat → Scanned → Option Scanned
  | 0, _ => none
  | fuel + 1, s => do
    if s.cursor.atDocumentMark || s.cursor.at? '#' then return s
    let s ← plainWord inFlow (s.cursor.rest.length + 1) s
    if !(s.cursor.atBlank || s.cursor.atBreak) then return s
    let (c, gap) ← s.gap.take indent (s.cursor.rest.length + 1) s.cursor
    let s : Scanned := { s with cursor := c, gap }
    if !inFlow ∧ c.column < indent then return s
    plainWords inFlow indent fuel s

/-- A plain scalar; says also whether lines ended after its last word. -/
def plain? (inFlow : Bool) (indent : Nat) (c : Cursor) :
    Option (List Char × Bool × Cursor) := do
  let s ← plainWords inFlow indent (c.rest.length + 1) { cursor := c, reversed := [] }
  return (s.reversed.reverse, s.gap.broken, s.cursor)

/-! ## Quoted scalars -/

/-- The character of an escape without digits. -/
def escaped? : Char → Option Char
  | '0' => some '\x00'
  | 'a' => some '\x07'
  | 'b' => some '\x08'
  | 't' | '\t' => some '\t'
  | 'n' => some '\n'
  | 'v' => some '\x0b'
  | 'f' => some '\x0c'
  | 'r' => some '\r'
  | 'e' => some '\x1b'
  | ' ' => some ' '
  | '"' => some '"'
  | '/' => some '/'
  | '\\' => some '\\'
  | 'N' => some '\u0085'
  | '_' => some '\u00a0'
  | 'L' => some '\u2028'
  | 'P' => some '\u2029'
  | _ => none

/-- The number of hexadecimal digits of an escape with digits. -/
def escapeDigits? : Char → Option Nat
  | 'x' => some 2
  | 'u' => some 4
  | 'U' => some 8
  | _ => none

/-- The character of an escape whose backslash stands here, and the place after it. -/
def escape? (c : Cursor) : Option (Char × Cursor) := do
  let d ← c.peek 1
  let c := c.skip 2
  match escapeDigits? d with
  | some count =>
    let ds := c.rest.take count
    let n ← if ds.length = count then Digits.read? 16 ds else none
    if (0xD800 ≤ n ∧ n ≤ 0xDFFF) ∨ 0x10FFFF < n then none
    else return (Char.ofNat n, c.skip count)
  | none => return (← escaped? d, c)

/-- Takes the characters of a word of a quoted scalar; a backslash at the end of a line takes
the line end away. -/
def quotedWord (single : Bool) : Nat → Scanned → Option Scanned
  | 0, _ => none
  | fuel + 1, s =>
    let c := s.cursor
    match c.peek with
    | none => some s
    | some d =>
      if isBlank d || isBreak d then some s
      else if single && d = '\'' && c.peek 1 = some '\'' then
        quotedWord single fuel { s with cursor := c.skip 2, reversed := '\'' :: s.reversed }
      else if d = (if single then '\'' else '"') then some s
      else if !single && d = '\\' then
        if c.atBreak 1 then some { s with cursor := c.next.nextLine, gap := { broken := true } }
        else do
          let (e, c) ← escape? c
          quotedWord single fuel { s with cursor := c, reversed := e :: s.reversed }
      else quotedWord single fuel { s with cursor := c.next, reversed := d :: s.reversed }

/-- Takes the words of a quoted scalar up to the closing quote. -/
def quotedWords (single : Bool) : Nat → Scanned → Option Scanned
  | 0, _ => none
  | fuel + 1, s => do
    if s.cursor.atDocumentMark || s.cursor.atEnd then none
    let s ← quotedWord single (s.cursor.rest.length + 1) { s with gap := {} }
    if s.cursor.at? (if single then '\'' else '"') then
      return { s with cursor := s.cursor.next }
    let (c, gap) ← s.gap.take 0 (s.cursor.rest.length + 1) s.cursor
    quotedWords single fuel { cursor := c, reversed := gap.text.reverse ++ s.reversed }

/-- A quoted scalar whose opening quote stands here. -/
def quoted? (single : Bool) (c : Cursor) : Option (List Char × Cursor) := do
  let s ← quotedWords single (c.rest.length + 1) { cursor := c.next, reversed := [] }
  return (s.reversed.reverse, s.cursor)

/-! ## Block scalars -/

/-- What happens to the line ends at the end of a block. -/
inductive Chomping where
  | strip
  | clip
  | keep
  deriving DecidableEq, Repr

/-- The chomping of its indicator. -/
def Chomping.of? : Char → Option Chomping
  | '+' => some .keep
  | '-' => some .strip
  | _ => none

/-- The header of a block: its chomping and its additional indentation, zero if it is
to be found out. -/
def blockHeader? (c : Cursor) : Option (Chomping × Nat × Cursor) :=
  let digit? (c : Cursor) : Option (Nat × Cursor) :=
    match c.peek with
    | some d =>
      if d.isDigit then (if d = '0' then none else some (d.toNat - '0'.toNat, c.next))
      else some (0, c)
    | none => some (0, c)
  match c.peek.bind Chomping.of? with
  | some chomping => do
    let (increment, c) ← digit? c.next
    return (chomping, increment, c)
  | none => do
    let (increment, c) ← digit? c
    if increment = 0 then return (.clip, 0, c)
    match c.peek.bind Chomping.of? with
    | some chomping => return (chomping, increment, c.next)
    | none => return (.clip, increment, c)

/-- Takes empty lines and indentation; gives the line ends and the deepest column seen. -/
def blockBreaks (indent : Nat) :
    Nat → Cursor → List Char → Nat → Option (List Char × Nat × Cursor)
  | 0, _, _, _ => none
  | fuel + 1, c, breaks, deepest =>
    let room := indent - c.column
    let spaces := (c.taking (· = ' ')).length
    let c := c.skip (if indent = 0 then spaces else min room spaces)
    let deepest := max deepest c.column
    if (indent = 0 ∨ c.column < indent) ∧ c.at? '\t' then none
    else if c.atBreak then blockBreaks indent fuel c.nextLine (breaks ++ c.breakText) deepest
    else some (breaks, deepest, c)

/-- The lines of a block as they are taken up. -/
structure Block where
  reversed : List Char := []
  /-- The end of the last line taken. -/
  last : List Char := []
  /-- The empty lines after it. -/
  empty : List Char := []
  /-- Whether it began with a blank. -/
  indented : Bool := false

/-- Takes the lines of a block. -/
def blockLines (isLiteral : Bool) (indent : Nat) :
    Nat → Cursor → Block → Option (Block × Cursor)
  | 0, _, _ => none
  | fuel + 1, c, b =>
    if c.column ≠ indent ∨ c.atEnd then some (b, c)
    else do
      let blank := c.atBlank
      let join :=
        if !isLiteral && b.last = ['\n'] && !b.indented && !blank then
          (if b.empty = [] then [' '] else [])
        else b.last
      let line := c.taking (fun d => !isBreak d)
      let c := c.skipWhile (fun d => !isBreak d)
      let last := c.breakText
      let (empty, _, c) ← blockBreaks indent (c.rest.length + 1) c.nextLine [] 0
      let reversed := line.reverse ++ (b.empty.reverse ++ (join.reverse ++ b.reversed))
      blockLines isLiteral indent fuel c { reversed, last, empty, indented := blank }

/-- A block scalar whose indicator stands here, inside a block at `parent` columns; `none` is
the outermost level. -/
def block? (isLiteral : Bool) (parent : Option Nat) (c : Cursor) :
    Option (List Char × Cursor) := do
  let (chomping, increment, c) ← blockHeader? c.next
  let c ← c.endOfLine?
  let given := if increment = 0 then 0 else parent.getD 0 + increment
  let (empty, deepest, c) ← blockBreaks given (c.rest.length + 1) c [] 0
  let least := match parent with
    | some column => max 1 (column + 1)
    | none => 1
  let indent := if given = 0 then max deepest least else given
  let (b, c) ← blockLines isLiteral indent (c.rest.length + 1) c { empty }
  let tail := match chomping with
    | .strip => []
    | .clip => b.last
    | .keep => b.last ++ b.empty
  return (b.reversed.reverse ++ tail, c)

end HouseBoard.Yaml
