/-
HouseBoard.Yaml.Value — how values are read from YAML nodes.

A plain scalar is read by its text whatever its tag; a literal block is read as a number or a
truth value only when its tag says so.  Nothing written stands for a section or a list without
entries.
-/
import HouseBoard.Yaml.Node
import HouseBoard.Text.Digits

namespace HouseBoard.Yaml

/-- A reader of one type. -/
abbrev Reader (α : Type) := Document → Node → Option α

/-! ## Scalars -/

/-- The tags of the standard types. -/
def standardTag (name : String) : String := "tag:yaml.org,2002:" ++ name

/-- The text of a scalar that can be of a standard type. -/
def Node.bare? (type : String) : Node → Option String
  | .scalar text .plain _ => some text
  | .scalar text .literal (some tag) => if tag = standardTag type then some text else none
  | _ => none

/-- Whether a node is a plain scalar without text. -/
def Node.isEmpty : Node → Bool
  | .scalar text style _ => text = "" && style = .plain
  | _ => false

/-- The words for nothing. -/
def nullWords : List String := ["null", "Null", "NULL", "~"]

/-- The words for truth values. -/
def flagWords : List (String × Bool) :=
  [("true", true), ("True", true), ("TRUE", true), ("false", false), ("False", false),
    ("FALSE", false)]

/-- The number that a text writes: in base ten without leading zeros, or with a
base's mark in front. -/
def naturalOf? (text : List Char) : Option Nat :=
  let unsigned := match text with
    | '+' :: rest => rest
    | rest => rest
  match unsigned with
  | '0' :: 'x' :: digits => Digits.read? 16 digits
  | '0' :: 'o' :: digits => Digits.read? 8 digits
  | '0' :: 'b' :: digits => Digits.read? 2 digits
  | ['0'] => some 0
  | '0' :: _ => none
  | digits => Digits.read? 10 digits

namespace Reader

/-- Any scalar, as text. -/
def text : Reader String := fun d n =>
  match d.resolve n with
  | .scalar text _ _ => some text
  | _ => none

/-- A truth value. -/
def flag : Reader Bool := fun d n => do flagWords.lookup (← (d.resolve n).bare? "bool")

/-- A natural number up to a bound. -/
def upTo (bound : Nat) : Reader Nat := fun d n => do
  (naturalOf? (← (d.resolve n).bare? "int").toList).filter (· ≤ bound)

/-- Text, or nothing: a plain word for it, or no word at all. -/
def optionalText : Reader (Option String) := fun d n =>
  match d.resolve n with
  | .scalar text .plain none =>
    some (if text = "" ∨ nullWords.contains text then none else some text)
  | .scalar text .plain (some tag) =>
    if tag = standardTag "null" then (if nullWords.contains text then some none else none)
    else some (some text)
  | .scalar text _ _ => some (some text)
  | _ => none

/-! ## Collections -/

/-- The items of a sequence. -/
def listOf {α : Type} (item : Reader α) : Reader (List α) := fun d n =>
  match d.resolve n with
  | .sequence items => items.mapM (item d)
  | n => if n.isEmpty then some [] else none

end Reader

/-- An entry that a section may have: its name, and what it does to the value of the section. -/
structure Entry (σ : Type) where
  name : String
  read : Document → Node → σ → Option σ

/-- The entry that sets a part of a section's value. -/
def Entry.of {α σ : Type} (name : String) (reader : Reader α) (put : α → σ → σ) : Entry σ :=
  ⟨name, fun d n s => (reader d n).map (put · s)⟩

namespace Reader

/-- Takes the entries of a section one after another.  Entries of other names are passed over;
none is given twice. -/
def takeEntries {σ : Type} (known : List (Entry σ)) (d : Document) :
    List (Node × Node) → List String → σ → Option σ
  | [], _, s => some s
  | (key, value) :: rest, taken, s => do
    let name ← text d key
    match known.find? (·.name = name) with
    | none => takeEntries known d rest taken s
    | some entry =>
      if taken.contains name then none
      else takeEntries known d rest (name :: taken) (← entry.read d value s)

/-- A section: what its entries make of the value that stands when it has none. -/
def ofEntries {σ : Type} (known : List (Entry σ)) (absent : σ) : Reader σ := fun d n =>
  match d.resolve n with
  | .mapping entries => takeEntries known d entries [] absent
  | n => if n.isEmpty then some absent else none

end Reader

/-- Reads a whole text; the given value stands when it holds no document. -/
def Reader.readText? {α : Type} (reader : Reader α) (absent : α) (text : String) :
    Option α := do
  let d ← Document.read? text
  match d.root with
  | none => return absent
  | some root => reader d root

end HouseBoard.Yaml
