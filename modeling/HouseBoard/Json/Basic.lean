/-
HouseBoard.Json.Basic — JSON documents as they were read.

Members keep their order and their repetitions.  Two kinds of place have no value of their own:
`unread`, a well-formed part that no reader can use (a number out of range, a string with half a
surrogate pair, a container more than 127 levels deep), and `broken`, the place where the text
stops being JSON.  A part that is skipped may hold the first kind but not the second; so one
tree serves both the reading of whole texts and the question which fault of a text comes first.
-/
import HouseBoard.Number.Reading
import HouseBoard.Number.Shortest

namespace HouseBoard

/-- A number: an integer that fits 64 bits, or a floating point value. -/
inductive Json.Number where
  | int (value : Int)
  | real (value : Binary64)
  deriving DecidableEq, Repr

/-- A JSON document. -/
inductive Json where
  | null
  | bool (value : Bool)
  | num (value : Json.Number)
  | str (value : String)
  | arr (items : List Json)
  | obj (members : List (String × Json))
  | unread
  | broken
  deriving Inhabited

namespace Json

/-- A document as text holds it: a value, and whether nothing but blanks follows it. -/
structure Document where
  root : Json
  closed : Bool
  deriving Inhabited

/-! ## Parts that cannot be used -/

mutual

/-- No part of the value is the place where the text breaks off. -/
def intact : Json → Bool
  | .broken => false
  | .arr items => intactItems items
  | .obj members => intactMembers members
  | _ => true

/-- `intact` for every item. -/
def intactItems : List Json → Bool
  | [] => true
  | v :: vs => v.intact && intactItems vs

/-- `intact` for every member. -/
def intactMembers : List (String × Json) → Bool
  | [] => true
  | (_, v) :: ms => v.intact && intactMembers ms

end

mutual

/-- Every part of the value has a value of its own. -/
def legible : Json → Bool
  | .broken => false
  | .unread => false
  | .arr items => legibleItems items
  | .obj members => legibleMembers members
  | _ => true

/-- `legible` for every item. -/
def legibleItems : List Json → Bool
  | [] => true
  | v :: vs => v.legible && legibleItems vs

/-- `legible` for every member. -/
def legibleMembers : List (String × Json) → Bool
  | [] => true
  | (_, v) :: ms => v.legible && legibleMembers ms

end

/-! ## Looking things up -/

/-- The value of the last member with a name. -/
def member? (name : String) : Json → Option Json
  | .obj members => (members.reverse.find? (·.1 = name)).map (·.2)
  | _ => none

/-- The value of a member, absent counting as null. -/
def member (v : Json) (name : String) : Json := (v.member? name).getD .null

/-! ## Writing values -/

/-- The number of a natural number. -/
def nat (n : Nat) : Json := .num (.int n)

/-- The number of an integer. -/
def int (i : Int) : Json := .num (.int i)

/-- A finite value as a number; what is not finite has no number and is null. -/
def real (x : Binary64) : Json := if x.isFinite then .num (.real x) else .null

/-- Null for nothing. -/
def ofOption {α : Type} (write : α → Json) : Option α → Json
  | none => .null
  | some a => write a

/-- An array of written items. -/
def ofList {α : Type} (write : α → Json) (items : List α) : Json := .arr (items.map write)

/-- A member that is left out when there is nothing to write. -/
def optional (name : String) : Option Json → List (String × Json)
  | none => []
  | some v => [(name, v)]

end Json

end HouseBoard
