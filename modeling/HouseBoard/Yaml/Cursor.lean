/-
HouseBoard.Yaml.Cursor — a place in a YAML text.

The cursor knows what is still to be read and where it stands.  Lines end in a line feed, a
carriage return, both together, or one of three further characters; blanks are spaces and tabs.
-/

namespace HouseBoard.Yaml

/-! ## Characters -/

/-- A space or a tab. -/
def isBlank (c : Char) : Bool := c = ' ' || c = '\t'

/-- A character that ends a line. -/
def isBreak (c : Char) : Bool :=
  c = '\r' || c = '\n' || c = '\u0085' || c = '\u2028' || c = '\u2029'

/-- A letter, a digit, a hyphen or an underscore. -/
def isWordChar (c : Char) : Bool := c.isAlphanum || c = '_' || c = '-'

/-- A character that a text may contain. -/
def isAllowed (c : Char) : Bool :=
  let n := c.toNat
  n = 0x09 || n = 0x0A || n = 0x0D || (0x20 ≤ n && n ≤ 0x7E) || n = 0x85 ||
    (0xA0 ≤ n && n ≤ 0xD7FF)
    || (0xE000 ≤ n && n ≤ 0xFFFD) || (0x10000 ≤ n && n ≤ 0x10FFFF)

/-! ## Places -/

/-- A place: what follows it, how many characters precede it, and its line and column. -/
structure Cursor where
  rest : List Char
  index : Nat := 0
  line : Nat := 0
  column : Nat := 0
  deriving Inhabited

namespace Cursor

/-- The character at a distance. -/
def peek (c : Cursor) (distance : Nat := 0) : Option Char := c.rest[distance]?

/-- Whether a given character stands here. -/
def at? (c : Cursor) (expected : Char) : Bool := c.peek = some expected

/-- Whether a blank stands here. -/
def atBlank (c : Cursor) : Bool := c.peek.any isBlank

/-- Whether a line ends here. -/
def atBreak (c : Cursor) (distance : Nat := 0) : Bool := (c.peek distance).any isBreak

/-- Whether the text ends here. -/
def atEnd (c : Cursor) : Bool := c.rest.isEmpty

/-- Whether a blank stands at a distance, or a line or the text ends there. -/
def isBoundary (c : Cursor) (distance : Nat := 0) : Bool :=
  (c.peek distance).all fun d => isBlank d || isBreak d

/-- The next place on the line. -/
def next (c : Cursor) : Cursor :=
  match c.rest with
  | [] => c
  | _ :: rest => { c with rest, index := c.index + 1, column := c.column + 1 }

/-- Several places on. -/
def skip : Nat → Cursor → Cursor
  | 0, c => c
  | n + 1, c => skip n c.next

/-- The beginning of the next line, from the end of a line. -/
def nextLine (c : Cursor) : Cursor :=
  match c.rest with
  | '\r' :: '\n' :: rest => { rest, index := c.index + 2, line := c.line + 1, column := 0 }
  | _ :: rest => { rest, index := c.index + 1, line := c.line + 1, column := 0 }
  | [] => c

/-- What a line end contributes to the text of a scalar. -/
def breakText (c : Cursor) : List Char :=
  match c.rest with
  | '\u2028' :: _ => ['\u2028']
  | '\u2029' :: _ => ['\u2029']
  | d :: _ => if isBreak d then ['\n'] else []
  | [] => []

/-- The place after the characters of a class that stand here. -/
def skipWhile (p : Char → Bool) (c : Cursor) : Cursor :=
  let n := (c.rest.takeWhile p).length
  { c with rest := c.rest.drop n, index := c.index + n, column := c.column + n }

/-- The characters of a class that stand here. -/
def taking (p : Char → Bool) (c : Cursor) : List Char := c.rest.takeWhile p

/-- Whether three equal characters and a boundary stand at the beginning of a line. -/
def atMark (c : Cursor) (mark : Char) : Bool :=
  c.column = 0 && c.rest.take 3 = [mark, mark, mark] && c.isBoundary 3

/-- Whether a mark that separates documents stands here. -/
def atDocumentMark (c : Cursor) : Bool := c.atMark '-' || c.atMark '.'

/-- What follows the blanks and a comment, which must be the end of the line, and the
end of that line. -/
def endOfLine? (c : Cursor) : Option Cursor :=
  let c := c.skipWhile isBlank
  let c := if c.at? '#' then c.skipWhile (fun d => !isBreak d) else c
  if c.atBreak then some c.nextLine
  else if c.atEnd then some c
  else none

end Cursor

end HouseBoard.Yaml
