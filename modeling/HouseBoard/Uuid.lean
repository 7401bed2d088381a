/-
HouseBoard.Uuid — universally unique identifiers.

An identifier is a number of 128 bits.  It is written as 32 hexadecimal digits in five groups;
it is read from that text, from the digits alone, from the groups between braces, and from the
groups behind `urn:uuid:`.
-/
import HouseBoard.Text.Digits

namespace HouseBoard

/-- A number of 128 bits. -/
structure Uuid where
  number : Nat
  deriving DecidableEq, Repr, Inhabited

namespace Uuid

/-- How many identifiers there are. -/
def count : Nat := Nat.pow 2 128

/-- The lengths of the groups. -/
def groups : List Nat := [8, 4, 4, 4, 12]

/-- Characters with a hyphen between the groups. -/
def grouped : List Nat → List Char → List Char
  | [], cs => cs
  | [_], cs => cs
  | n :: ns, cs => cs.take n ++ '-' :: grouped ns (cs.drop n)

/-- The characters of groups that have hyphens between them. -/
def ungrouped? : List Nat → List Char → Option (List Char)
  | [], cs => if cs = [] then some [] else none
  | [n], cs => if cs.length = n then some cs else none
  | n :: ns, cs =>
    match cs.drop n with
    | '-' :: rest => (ungrouped? ns rest).map (cs.take n ++ ·)
    | _ => none

/-- The 32 digits of an identifier. -/
def digits (u : Uuid) : List Char :=
  let ds := Nat.toDigits 16 (u.number % count)
  List.replicate (32 - ds.length) '0' ++ ds

/-- The text of an identifier. -/
def text (u : Uuid) : String := String.ofList (grouped groups u.digits)

/-- Reads 32 digits. -/
def ofDigits? (cs : List Char) : Option Uuid :=
  if cs.length = 32 then (Digits.read? 16 cs).map Uuid.mk else none

/-- Reads digits in groups. -/
def ofGroups? (cs : List Char) : Option Uuid := do ofDigits? (← ungrouped? groups cs)

/-- What the name of an identifier as a resource begins with. -/
def resourcePrefix : List Char := "urn:uuid:".toList

/-- Reads an identifier in any of its forms. -/
def ofText? (s : String) : Option Uuid :=
  let cs := s.toList
  match cs with
  | '{' :: rest => if rest.getLast? = some '}' then ofGroups? rest.dropLast else none
  | _ =>
    if cs.length = 32 then ofDigits? cs
    else if resourcePrefix.isPrefixOf cs then ofGroups? (cs.drop resourcePrefix.length)
    else ofGroups? cs

end Uuid

end HouseBoard
