/-
HouseBoard.Json.Lexeme — numbers, strings and words of JSON texts.

Each reader takes the characters from the first of its lexeme on and gives back what follows it;
no rest means that the text breaks off inside.
-/
import HouseBoard.Json.Basic

namespace HouseBoard.Json

/-- Space, tab, line feed and carriage return. -/
def isBlank (c : Char) : Bool := c = ' ' || c = '\n' || c = '\t' || c = '\r'

/-- What follows the blanks. -/
def dropBlanks (cs : List Char) : List Char := cs.dropWhile isBlank

/-! ## Numbers -/

/-- A number as it is spelled. -/
structure Spelling where
  negative : Bool
  whole : List Char
  /-- The digits after the point, if there is one. -/
  part : Option (List Char)
  /-- The sign and the digits of the exponent, if there is one. -/
  exponent : Option (Bool × List Char)

/-- The fraction of a number, at least one digit after a point. -/
def fraction? : List Char → Option (Option (List Char) × List Char)
  | '.' :: cs =>
    match Binary64.splitDigits cs with
    | ([], _) => none
    | (ds, rest) => some (some ds, rest)
  | cs => some (none, cs)

/-- The exponent of a number, at least one digit after the letter and an optional sign. -/
def exponent? : List Char → Option (Option (Bool × List Char) × List Char)
  | [] => some (none, [])
  | c :: cs =>
    if c = 'e' ∨ c = 'E' then
      let (negative, ds) := match cs with
        | '+' :: ds => (false, ds)
        | '-' :: ds => (true, ds)
        | ds => (false, ds)
      match Binary64.splitDigits ds with
      | ([], _) => none
      | (ds, rest) => some (some (negative, ds), rest)
    else some (none, c :: cs)

/-- The spelling of a number; a zero in front stands alone. -/
def spelling? (cs : List Char) : Option (Spelling × List Char) := do
  let (negative, cs) := match cs with
    | '-' :: ds => (true, ds)
    | ds => (false, ds)
  let (whole, rest) := Binary64.splitDigits cs
  if whole = [] ∨ (1 < whole.length ∧ whole.head? = some '0') then none
  else
    let (part, rest) ← fraction? rest
    let (exponent, rest) ← exponent? rest
    return (⟨negative, whole, part, exponent⟩, rest)

/-- Takes digits up while the significand stays below 2^64; gives the significand and how
many were taken. -/
def takeDigits (significand taken : Nat) : List Char → Nat × Nat
  | [] => (significand, taken)
  | c :: cs =>
    let next := significand * 10 + (c.toNat - '0'.toNat)
    if next < UInt64.size then takeDigits next (taken + 1) cs else (significand, taken)

/-- The number that a spelling stands for; none when it is out of range.  An integer stays one
while it fits 64 bits, and minus zero is no integer. -/
def Spelling.number? (s : Spelling) : Option Number :=
  let (significand, taken) := takeDigits 0 0 s.whole
  let before : Int := s.whole.length - taken
  match s.part, s.exponent with
  | none, none =>
    if before ≠ 0 then (Binary64.ofParts? s.negative significand before).map .real
    else if !s.negative then some (.int significand)
    else if 0 < significand ∧ 2 * significand ≤ UInt64.size then some (.int (-significand))
    else some (.real (Binary64.ofNat significand).neg)
  | part, exponent =>
    let (significand, taken) := takeDigits significand 0 (part.getD [])
    let scale : Int := match exponent with
      | none => 0
      | some (negative, ds) =>
        let n : Int := (Digits.read? 10 ds).getD 0
        if negative then -n else n
    (Binary64.ofParts? s.negative significand (before - taken + scale)).map .real

/-! ## Strings -/

/-- One unit of a string: a character, or half of a surrogate pair. -/
inductive Unit16 where
  | char (c : Char)
  | high (n : Nat)
  | low (n : Nat)

/-- The unit of four hexadecimal digits. -/
def Unit16.ofCode (n : Nat) : Unit16 :=
  if 0xD800 ≤ n ∧ n ≤ 0xDBFF then .high (n - 0xD800)
  else if 0xDC00 ≤ n ∧ n ≤ 0xDFFF then .low (n - 0xDC00)
  else .char (Char.ofNat n)

/-- The units of a string up to its closing quote, and what follows. -/
def units? : List Char → Option (List Unit16 × List Char)
  | [] => none
  | '"' :: cs => some ([], cs)
  | '\\' :: 'u' :: a :: b :: c :: d :: cs => do
    let n ← Digits.extend? 16 0 [a, b, c, d]
    let (us, rest) ← units? cs
    return (.ofCode n :: us, rest)
  | '\\' :: c :: cs => do
    let c ← match c with
      | '"' => some '"'
      | '\\' => some '\\'
      | '/' => some '/'
      | 'b' => some '\x08'
      | 'f' => some '\x0c'
      | 'n' => some '\n'
      | 'r' => some '\r'
      | 't' => some '\t'
      | _ => none
    let (us, rest) ← units? cs
    return (.char c :: us, rest)
  | c :: cs =>
    if c.toNat < 0x20 ∨ c = '\\' then none
    else do
      let (us, rest) ← units? cs
      return (.char c :: us, rest)

/-- The characters of a string; half a surrogate pair has none. -/
def joinUnits? : List Unit16 → Option (List Char)
  | [] => some []
  | .char c :: us => (joinUnits? us).map (c :: ·)
  | .high h :: .low l :: us => (joinUnits? us).map (Char.ofNat (0x10000 + h * 0x400 + l) :: ·)
  | _ => none

/-- The text of a string whose opening quote has been taken, if it has one, and what follows. -/
def string? (cs : List Char) : Option (Option String × List Char) :=
  (units? cs).map fun (us, rest) => ((joinUnits? us).map String.ofList, rest)

/-! ## Words -/

/-- The value of a word in front, and what follows. -/
def word? : List Char → Option (Json × List Char)
  | 'n' :: 'u' :: 'l' :: 'l' :: cs => some (.null, cs)
  | 't' :: 'r' :: 'u' :: 'e' :: cs => some (.bool true, cs)
  | 'f' :: 'a' :: 'l' :: 's' :: 'e' :: cs => some (.bool false, cs)
  | _ => none

/-- A value that is no container, and what follows. -/
def scalar? : List Char → Option (Json × List Char)
  | '"' :: cs => (string? cs).map fun (s, rest) => ((s.map Json.str).getD .unread, rest)
  | c :: cs =>
    if c = '-' ∨ c.isDigit then
      (spelling? (c :: cs)).map fun (s, rest) => ((s.number?.map Json.num).getD .unread, rest)
    else word? (c :: cs)
  | [] => none

end HouseBoard.Json
