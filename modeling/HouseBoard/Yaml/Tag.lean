/-
HouseBoard.Yaml.Tag — names in YAML texts: anchors, tags and directives.

A tag is written in full between angle brackets, or as a handle and a suffix; a directive at the
head of a document says what a handle stands for.  Each scanner gives the lexeme and the place
after it.
-/
import HouseBoard.Yaml.Token
import HouseBoard.Yaml.Cursor
import HouseBoard.Text.Digits

namespace HouseBoard.Yaml

/-! ## Anchors -/

/-- The name behind the indicator that stands here. -/
def anchorName? (c : Cursor) : Option (String × Cursor) :=
  let name := c.next.taking isWordChar
  let c := c.next.skipWhile isWordChar
  let ends := c.isBoundary || c.peek.any fun d =>
    d ∈ ['?', ':', ',', ']', '}', '%', '@', '\x60']
  if name = [] ∨ !ends then none else some (String.ofList name, c)

/-! ## Characters of tags -/

/-- A character that a tag may contain; the brackets and the comma only in some. -/
def isTagChar (bracketed : Bool) (c : Char) : Bool :=
  isWordChar c ||
    c ∈ [';', '/', '?', ':', '@', '&', '=', '+', '$', '.', '!', '~', '*', '\'', '(', ')']
    || (bracketed && c ∈ [',', '[', ']'])

/-- The octet written as a percent sign and two digits. -/
def octet? (c : Cursor) : Option (Nat × Cursor) :=
  match c.rest with
  | '%' :: high :: low :: _ => (Digits.read? 16 [high, low]).map fun n => (n, c.skip 3)
  | _ => none

/-- The number of octets that follow the first one of a character. -/
def octetsAfter? (first : Nat) : Option Nat :=
  if first < 0x80 then some 0
  else if 0xC0 ≤ first ∧ first < 0xE0 then some 1
  else if 0xE0 ≤ first ∧ first < 0xF0 then some 2
  else if 0xF0 ≤ first ∧ first < 0xF8 then some 3
  else none

/-- Takes the further octets of a character. -/
def furtherOctets : Nat → Cursor → List UInt8 → Option (List UInt8 × Cursor)
  | 0, c, octets => some (octets, c)
  | n + 1, c, octets => do
    let (octet, c) ← octet? c
    if 0x80 ≤ octet ∧ octet < 0xC0 then furtherOctets n c (octets ++ [octet.toUInt8]) else none

/-- The character written in octets here. -/
def escapedTagChar? (c : Cursor) : Option (List Char × Cursor) := do
  let (first, c) ← octet? c
  let (octets, c) ← furtherOctets (← octetsAfter? first) c [first.toUInt8]
  return (((String.fromUTF8? ⟨octets.toArray⟩).getD "\uFFFD").toList, c)

/-- Takes the characters of a tag. -/
def tagChars (bracketed : Bool) : Nat → Cursor → List Char → Option (List Char × Cursor)
  | 0, _, _ => none
  | fuel + 1, c, taken =>
    match c.peek with
    | some '%' => do
      let (chars, c) ← escapedTagChar? c
      tagChars bracketed fuel c (taken ++ chars)
    | some d =>
      if isTagChar bracketed d then tagChars bracketed fuel c.next (taken ++ [d])
      else some (taken, c)
    | none => some (taken, c)

/-- The characters of a tag, of which there is at least one. -/
def tagText? (bracketed : Bool) (c : Cursor) : Option (String × Cursor) := do
  let (taken, after) ← tagChars bracketed (c.rest.length + 1) c []
  if after.index = c.index then none else return (String.ofList taken, after)

/-- An exclamation mark, the word after it, and the exclamation mark that closes a handle. -/
def handle? (c : Cursor) : Option (List Char × Cursor) :=
  if !c.at? '!' then none
  else
    let word := '!' :: c.next.taking isWordChar
    let c := c.next.skipWhile isWordChar
    if c.at? '!' then some (word ++ ['!'], c.next) else some (word, c)

/-! ## Tags -/

/-- A tag between angle brackets. -/
def fullTag? (c : Cursor) : Option (Token × Cursor) := do
  let (text, c) ← tagText? true (c.skip 2)
  if c.at? '>' then return (.tag "" text, c.next) else none

/-- A tag of a handle and a suffix.  A lone exclamation mark is a tag of its own. -/
def shortTag? (c : Cursor) : Option (Token × Cursor) := do
  let (handle, c) ← handle? c
  if 2 ≤ handle.length ∧ handle.getLast? = some '!' then
    let (suffix, c) ← tagText? false c
    return (.tag (String.ofList handle) suffix, c)
  let (rest, c) ← tagChars false (c.rest.length + 1) c []
  match handle.drop 1 ++ rest with
  | [] => return (.tag "" "!", c)
  | suffix => return (.tag "!" (String.ofList suffix), c)

/-- The tag that begins here; inside a flow collection a comma may follow it at once. -/
def tag? (inFlow : Bool) (c : Cursor) : Option (Token × Cursor) := do
  let (token, c) ← if c.peek 1 = some '<' then fullTag? c else shortTag? c
  if c.isBoundary || (inFlow && c.at? ',') then return (token, c) else none

/-! ## Directives -/

/-- A version number of at most nine digits. -/
def versionNumber? (c : Cursor) : Option (Nat × Cursor) := do
  let digits := c.taking Char.isDigit
  if 9 < digits.length then none else return (← Digits.read? 10 digits, c.skip digits.length)

/-- The version of a document. -/
def versionDirective? (c : Cursor) : Option (Token × Cursor) := do
  let (major, c) ← versionNumber? (c.skipWhile isBlank)
  if !c.at? '.' then none
  let (minor, c) ← versionNumber? c.next
  return (.version major minor, c)

/-- What a handle stands for. -/
def tagDirective? (c : Cursor) : Option (Token × Cursor) := do
  let (handle, c) ← handle? (c.skipWhile isBlank)
  if handle ≠ ['!'] ∧ (handle.length < 2 ∨ handle.getLast? ≠ some '!') then none
  if !c.atBlank then none
  let (replacement, c) ← tagText? true (c.skipWhile isBlank)
  if !c.isBoundary then none
  return (.tagDirective (String.ofList handle) replacement, c)

/-- The directive whose percent sign stands here, and the beginning of the next line. -/
def directive? (c : Cursor) : Option (Token × Cursor) := do
  let name := c.next.taking isWordChar
  let c := c.next.skipWhile isWordChar
  if !c.isBoundary then none
  let (token, c) ← match String.ofList name with
    | "YAML" => versionDirective? c
    | "TAG" => tagDirective? c
    | _ => none
  return (token, ← c.endOfLine?)

end HouseBoard.Yaml
