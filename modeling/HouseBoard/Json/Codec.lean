/-
HouseBoard.Json.Codec — how values are read from documents and written to them.

A codec pairs a reader with a writer.  A reader goes through a document in the order of its text
and reports the first fault it meets: the text is malformed there, or what stands there does not
fit the type.
-/
import HouseBoard.Json.Reader

namespace HouseBoard

/-- Why a document holds no value of a type. -/
inductive Json.Fault where
  /-- The text is no JSON, or not JSON that can be read. -/
  | malformed
  /-- The text is JSON of another shape. -/
  | mismatch
  deriving DecidableEq, Repr

/-- A reader and a writer for one type. -/
structure Codec (α : Type) where
  read : Json → Except Json.Fault α
  write : α → Json

namespace Codec

/-- The fault of a value that is not of the expected kind. -/
def refuse {α : Type} : Json → Except Json.Fault α
  | .unread | .broken => .error .malformed
  | _ => .error .mismatch

/-- Reads a whole text. -/
def readText {α : Type} (c : Codec α) (text : String) : Except Json.Fault α := do
  let document := Json.read text
  let a ← c.read document.root
  if document.closed then return a else .error .malformed

/-! ## Scalars -/

/-- Strings. -/
def text : Codec String where
  read
    | .str s => .ok s
    | v => refuse v
  write := .str

/-- Truth values. -/
def flag : Codec Bool where
  read
    | .bool b => .ok b
    | v => refuse v
  write := .bool

/-- Natural numbers up to a bound. -/
def upTo (bound : Nat) : Codec Nat where
  read
    | .num (.int i) => if 0 ≤ i ∧ i ≤ bound then .ok i.toNat else .error .mismatch
    | v => refuse v
  write := Json.nat

/-- Integers between bounds. -/
def between (lo hi : Int) : Codec Int where
  read
    | .num (.int i) => if lo ≤ i ∧ i ≤ hi then .ok i else .error .mismatch
    | v => refuse v
  write := Json.int

/-- Floating point values; an integer stands for the nearest one. -/
def real : Codec Binary64 where
  read
    | .num (.int i) => .ok (Binary64.ofInt i)
    | .num (.real x) => .ok x
    | v => refuse v
  write := Json.real

/-- A text form of a type, given by its reader and its writer. -/
def spelled {α : Type} (read? : String → Option α) (write : α → String) : Codec α where
  read
    | .str s => match read? s with
      | some a => .ok a
      | none => .error .mismatch
    | v => refuse v
  write a := .str (write a)

/-! ## Containers -/

/-- Null for nothing. -/
def optional {α : Type} (c : Codec α) : Codec (Option α) where
  read
    | .null => .ok none
    | v => (c.read v).map some
  write := Json.ofOption c.write

/-- Arrays. -/
def listOf {α : Type} (c : Codec α) : Codec (List α) where
  read
    | .arr vs => vs.mapM c.read
    | v => refuse v
  write := Json.ofList c.write

/-! ## Words -/

/-- Looks a word up. -/
def lookUp {α : Type} (words : List (String × α)) (s : String) : Except Json.Fault α :=
  match words.find? (·.1 = s) with
  | some (_, a) => .ok a
  | none => .error .mismatch

/-- One of a list of words, as a string or as the only name of an object that holds null.  A
number, a list or a truth value in its place is called a mismatch, though a reader that goes
through the text would call it malformed; no answer tells the two apart. -/
def word {α : Type} (words : List (String × α)) (write : α → String) : Codec α where
  read
    | .str s => lookUp words s
    | .obj ((k, v) :: ms) => do
      let a ← lookUp words k
      match v, ms with
      | .null, [] => return a
      | .null, _ :: _ => .error .malformed
      | v, _ => refuse v
    | .obj [] => .error .malformed
    | v => refuse v
  write a := .str (write a)

/-- A word inside a tagged object, where the object that names it may hold an empty
object too. -/
def taggedWord {α : Type} (words : List (String × α)) (write : α → String) : Codec α where
  read
    | .str s => lookUp words s
    | .obj [(k, v)] => do
      let a ← lookUp words k
      match v with
      | .null | .obj [] => return a
      | _ => .error .mismatch
    | _ => .error .mismatch
  write a := .str (write a)

end Codec

end HouseBoard
