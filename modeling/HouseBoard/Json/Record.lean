/-
HouseBoard.Json.Record — records, described once.

A record type is described by its fields in order, each with a name, a codec and, if it may be
missing, the value it then takes.  Reading and writing both follow from the description.  A
record is read from an object, whose members come in any order and may include others, or from
an array of its fields in order, the last of which may be missing where they have a value to
take.
-/
import HouseBoard.Json.Codec

namespace HouseBoard

/-! ## Descriptions -/

/-- A field of a record. -/
structure Field (β : Type) where
  name : String
  codec : Codec β
  /-- The value taken when the field is missing; none makes it required. -/
  absent : Option β := none
  /-- Whether a value is written at all. -/
  shown : β → Bool := fun _ => true

/-- The fields of a record, one for each type of the list. -/
inductive Fields : List Type → Type 1 where
  | nil : Fields []
  | cons {β : Type} {βs : List Type} (field : Field β) (rest : Fields βs) : Fields (β :: βs)

/-- One value for each type of the list. -/
@[reducible] def Tuple : List Type → Type
  | [] => Unit
  | β :: βs => β × Tuple βs

/-- At most one value for each type of the list. -/
@[reducible] def Slots : List Type → Type
  | [] => Unit
  | β :: βs => Option β × Slots βs

namespace Fields

/-! ## Reading -/

/-- No slot filled. -/
def blank : {βs : List Type} → Fields βs → Slots βs
  | _, .nil => ()
  | _, .cons _ rest => (none, rest.blank)

/-- Fills the slot of a name; none when no field has that name, and a fault when the slot
is filled already. -/
def put : {βs : List Type} → Fields βs → Slots βs → String → Json →
    Except Json.Fault (Option (Slots βs))
  | _, .nil, (), _, _ => .ok none
  | _, .cons field rest, (slot, slots), name, v =>
    if field.name = name then
      match slot with
      | some _ => .error .mismatch
      | none => (field.codec.read v).map fun b => some (some b, slots)
    else (rest.put slots name v).map fun filled => filled.map fun slots => (slot, slots)

/-- Reads one member; a member of another name is passed over if its value is whole. -/
def readMember {βs : List Type} (fields : Fields βs) (slots : Slots βs)
    (member : String × Json) :
    Except Json.Fault (Slots βs) := do
  match ← fields.put slots member.1 member.2 with
  | some slots => return slots
  | none => if member.2.intact then return slots else .error .malformed

/-- The values of the slots, missing ones replaced. -/
def complete : {βs : List Type} → Fields βs → Slots βs → Except Json.Fault (Tuple βs)
  | _, .nil, () => .ok ()
  | _, .cons field rest, (slot, slots) =>
    match slot <|> field.absent with
    | some b => (rest.complete slots).map fun bs => (b, bs)
    | none => .error .mismatch

/-- Reads the members of an object. -/
def readMembers {βs : List Type} (fields : Fields βs) (members : List (String × Json)) :
    Except Json.Fault (Tuple βs) := do
  fields.complete (← members.foldlM fields.readMember fields.blank)

/-- Reads the items of an array. -/
def readItems : {βs : List Type} → Fields βs → List Json → Except Json.Fault (Tuple βs)
  | _, .nil, [] => .ok ()
  | _, .nil, _ :: _ => .error .malformed
  | _, .cons field rest, v :: vs => do
    let b ← field.codec.read v
    let bs ← rest.readItems vs
    return (b, bs)
  | _, .cons field rest, [] =>
    match field.absent with
    | some b => (rest.readItems []).map fun bs => (b, bs)
    | none => .error .mismatch

/-- Reads an object or an array. -/
def read {βs : List Type} (fields : Fields βs) : Json → Except Json.Fault (Tuple βs)
  | .obj members => fields.readMembers members
  | .arr items => fields.readItems items
  | v => Codec.refuse v

/-! ## Writing -/

/-- The members of a record in the order of its fields. -/
def members : {βs : List Type} → Fields βs → Tuple βs → List (String × Json)
  | _, .nil, () => []
  | _, .cons field rest, (b, bs) =>
    if field.shown b then (field.name, field.codec.write b) :: rest.members bs
    else rest.members bs

end Fields

/-- The description of a record type: its fields, and how a record is put together
and taken apart. -/
structure Record (σ : Type) where
  kinds : List Type
  fields : Fields kinds
  make : Tuple kinds → σ
  split : σ → Tuple kinds

/-- The codec of a described record type. -/
def Record.codec {σ : Type} (r : Record σ) : Codec σ where
  read v := (r.fields.read v).map r.make
  write s := .obj (r.fields.members (r.split s))

/-! ## Kinds of fields -/

namespace Field

/-- A field that must be there. -/
def required {β : Type} (name : String) (codec : Codec β) : Field β := { name, codec }

/-- A field that takes a value when it is missing. -/
def defaulted {β : Type} (name : String) (codec : Codec β) (value : β) : Field β :=
  { name, codec, absent := some value }

/-- A field that may be missing or null. -/
def nullable {β : Type} (name : String) (codec : Codec β) : Field (Option β) :=
  { name, codec := codec.optional, absent := some none }

/-- A field that may be missing or null, and is not written when there is nothing to say. -/
def omittable {β : Type} (name : String) (codec : Codec β) : Field (Option β) :=
  { name, codec := codec.optional, absent := some none, shown := Option.isSome }

end Field

end HouseBoard
