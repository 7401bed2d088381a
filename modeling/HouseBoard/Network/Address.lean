/-
HouseBoard.Network.Address — internet addresses and sockets.

An address of the fourth version is four numbers with points between them; one of the sixth is
eight groups of hexadecimal digits with colons between them, where two colons may stand for one
or more groups of zeros and the last two groups may be an address of the fourth version.
-/
import HouseBoard.Text.Digits

namespace HouseBoard

/-- An internet address, as a number of 32 or 128 bits. -/
inductive Address where
  | v4 (number : Nat)
  | v6 (number : Nat)
  deriving DecidableEq, Repr

namespace Address

/-! ## Version four -/

/-- The parts of a text between the occurrences of a character. -/
def parts (separator : Char) (cs : List Char) : List (List Char) := cs.splitOn separator

/-- A number of one to three digits, at most 255 and without leading zeros. -/
def octet? (cs : List Char) : Option Nat :=
  if 3 < cs.length ∨ (1 < cs.length ∧ cs.head? = some '0') then none
  else (Digits.read? 10 cs).filter (· ≤ 255)

/-- Reads an address of the fourth version. -/
def v4? (cs : List Char) : Option Nat := do
  let octets ← (parts '.' cs).mapM octet?
  if octets.length = 4 then return octets.foldl (fun n octet => n * 256 + octet) 0 else none

/-! ## Version six -/

/-- A group of one to four hexadecimal digits. -/
def group? (cs : List Char) : Option Nat := if 4 < cs.length then none else Digits.read? 16 cs

/-- The groups of a text; an address of the fourth version makes the last two of
them if `closing`. -/
def groups? (closing : Bool) (cs : List Char) : Option (List Nat) :=
  if cs = [] then some []
  else
    let ps := parts ':' cs
    match closing, ps.getLast?.bind v4? with
    | true, some n => (ps.dropLast.mapM group?).map (· ++ [n / 65536, n % 65536])
    | _, _ => ps.mapM group?

/-- What precedes and what follows the first two colons in a row. -/
def splitColons : List Char → Option (List Char × List Char)
  | ':' :: ':' :: rest => some ([], rest)
  | c :: rest => (splitColons rest).map fun (before, after) => (c :: before, after)
  | [] => none

/-- The number of some groups. -/
def ofGroups (groups : List Nat) : Nat := groups.foldl (fun n group => n * 65536 + group) 0

/-- Reads an address of the sixth version. -/
def v6? (cs : List Char) : Option Nat :=
  match splitColons cs with
  | none => ((groups? true cs).filter (·.length = 8)).map ofGroups
  | some (before, after) => do
    let head ← groups? false before
    let tail ← groups? true after
    if 7 < head.length + tail.length then none
    else return ofGroups (head ++ List.replicate (8 - head.length - tail.length) 0 ++ tail)

/-! ## Which addresses a machine has -/

/-- Whether an address stands for all of a machine's own addresses, or for the
machine itself. -/
def isOwn : Address → Bool
  | .v4 n => n = 0 || n / 16777216 = 127
  | .v6 n => n ≤ 1

end Address

/-- An address and the number of a service there. -/
structure Socket where
  address : Address
  service : Nat
  deriving DecidableEq, Repr

namespace Socket

/-- Reads the number of a service. -/
def service? (cs : List Char) : Option Nat := (Digits.read? 10 cs).filter (· < 65536)

/-- What follows an address of the sixth version inside its brackets: the number of
an interface. -/
def isScope : List Char → Bool
  | [] => true
  | '%' :: digits => ((Digits.read? 10 digits).filter (· < UInt32.size)).isSome
  | _ => false

/-- Reads an address, a colon and the number of a service. -/
def ofText? (text : String) : Option Socket :=
  match text.toList with
  | '[' :: cs =>
    let inner := cs.takeWhile (· ≠ ']')
    let address := inner.takeWhile (· ≠ '%')
    match cs.drop inner.length with
    | ']' :: ':' :: service =>
      if isScope (inner.drop address.length) then do
        return ⟨.v6 (← Address.v6? address), ← service? service⟩
      else none
    | _ => none
  | cs =>
    let address := cs.takeWhile (· ≠ ':')
    match cs.drop address.length with
    | ':' :: service => do return ⟨.v4 (← Address.v4? address), ← service? service⟩
    | _ => none

end Socket

end HouseBoard
