/-
HouseBoard.Network.Url — addresses of the web to which a request can be sent.

A request can be sent to an address with the scheme of plain or of secure transfer and a host.
Slashes before the host count for nothing; a host that ends in a number is an address of the
fourth version in one of its older forms.
-/
import HouseBoard.Network.Address

namespace HouseBoard.Url

/-- The characters that matter: without control characters and blanks at the ends, and without
line ends and tabs. -/
def significant (text : String) : List Char :=
  let isOuter (c : Char) : Bool := c.toNat ≤ 0x20
  let cs := ((text.toList.dropWhile isOuter).reverse.dropWhile isOuter).reverse
  cs.filter fun c => c ≠ '\t' && c ≠ '\n' && c ≠ '\r'

/-- What follows one of the two schemes. -/
def afterScheme? (cs : List Char) : Option (List Char) :=
  let scheme := (cs.takeWhile (· ≠ ':')).map Char.toLower
  if scheme = "http".toList ∨ scheme = "https".toList then
    match cs.drop scheme.length with
    | ':' :: rest => some rest
    | _ => none
  else none

/-- A character that no host has. -/
def isForbidden (c : Char) : Bool :=
  c.toNat ≤ 0x20 || c.toNat = 0x7F ||
    c ∈ ['#', '/', ':', '<', '>', '?', '@', '[', '\\', ']', '^', '|', '%']

/-! ## Hosts that are numbers -/

/-- A number in base sixteen, eight or ten, by the way it begins. -/
def number? : List Char → Option Nat
  | ['0', 'x'] | ['0', 'X'] => some 0
  | '0' :: 'x' :: digits | '0' :: 'X' :: digits => Digits.read? 16 digits
  | '0' :: digits => if digits = [] then some 0 else Digits.read? 8 digits
  | digits => Digits.read? 10 digits

/-- The labels of a host, without the empty one after a closing point. -/
def labels (host : List Char) : List (List Char) :=
  let ls := Address.parts '.' host
  if ls.getLast? = some [] ∧ 1 < ls.length then ls.dropLast else ls

/-- Whether a label is written as a number. -/
def isNumeric (label : List Char) : Bool :=
  (label ≠ [] && label.all Char.isDigit) || (number? label).isSome

/-- Whether labels are the parts of an address: each but the last below 256, and the last
within what is left. -/
def isAddress (labels : List (List Char)) : Bool :=
  match labels.mapM number? with
  | none => false
  | some numbers =>
    numbers.length ≤ 4 && numbers.dropLast.all (· < 256)
      && numbers.getLast?.all (· < Nat.pow 256 (5 - numbers.length))

/-- Whether characters are a host. -/
def isHost (host : List Char) : Bool :=
  host ≠ [] && !host.any isForbidden
    && (!((labels host).getLast?.any isNumeric) || isAddress (labels host))

/-! ## Addresses -/

/-- Whether nothing follows a host but the number of a service. -/
def isServicePart : List Char → Bool
  | [] => true
  | ':' :: digits => digits = [] || (Socket.service? digits).isSome
  | _ => false

/-- Whether characters are a host with or without the number of a service. -/
def isHostAndService : List Char → Bool
  | '[' :: cs =>
    let inner := cs.takeWhile (· ≠ ']')
    match cs.drop inner.length with
    | ']' :: rest => (Address.v6? inner).isSome && isServicePart rest
    | _ => false
  | cs =>
    let host := cs.takeWhile (· ≠ ':')
    isHost host && isServicePart (cs.drop host.length)

/-- What follows the last at sign. -/
def withoutUser (authority : List Char) : List Char :=
  (authority.reverse.takeWhile (· ≠ '@')).reverse

/-- Whether a request can be sent to an address. -/
def isReachable (text : String) : Bool :=
  match afterScheme? (significant text) with
  | none => false
  | some rest =>
    let rest := rest.dropWhile fun c => c = '/' || c = '\\'
    isHostAndService (withoutUser (rest.takeWhile fun c => c ∉ ['/', '\\', '?', '#']))

end HouseBoard.Url
