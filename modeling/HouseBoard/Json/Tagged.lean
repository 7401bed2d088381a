/-
HouseBoard.Json.Tagged — sums, each alternative under its tag.

The alternative is named by the member `"type"`, which may stand anywhere in the object; the
other members are its fields, and further members are passed over.  An array holds the tag first
and then exactly the fields in order.  The parts beside the tag are read only after all of them
have been seen, so none of them may be without a value.
-/
import HouseBoard.Json.Record

namespace HouseBoard

/-- An alternative of a sum: its tag, and its readers from members and from items. -/
structure Variant (σ : Type) where
  tag : String
  ofMembers : List (String × Json) → Except Json.Fault σ
  ofItems : List Json → Except Json.Fault σ

namespace Variant

/-- The name of the member that holds the tag. -/
def tagName : String := "type"

/-- Once all parts have been seen, every fault is one of shape. -/
def shaped {α β : Type} (make : α → β) : Except Json.Fault α → Except Json.Fault β
  | .ok a => .ok (make a)
  | .error _ => .error .mismatch

/-- The alternative with the given fields. -/
def ofFields {σ : Type} {βs : List Type} (tag : String) (fields : Fields βs)
    (make : Tuple βs → σ) : Variant σ where
  tag
  ofMembers members := shaped make (fields.readMembers members)
  ofItems items := shaped make (fields.readItems items)

/-- An alternative without fields. -/
def plain {σ : Type} (tag : String) (value : σ) : Variant σ := ofFields tag .nil fun () => value

/-- The alternative of a tag. -/
def named {σ : Type} (variants : List (Variant σ)) : Json → Except Json.Fault (Variant σ)
  | .str tag => match variants.find? (·.tag = tag) with
    | some variant => .ok variant
    | none => .error .mismatch
  | v => Codec.refuse v

/-- What is known after some members: the alternative, and the members beside the tag,
the last one first. -/
structure Collected (σ : Type) where
  variant : Option (Variant σ)
  others : List (String × Json)

/-- Takes one member up. -/
def collect {σ : Type} (variants : List (Variant σ)) (seen : Collected σ)
    (member : String × Json) : Except Json.Fault (Collected σ) :=
  if member.1 = tagName then
    match seen.variant with
    | some _ => .error .mismatch
    | none => (named variants member.2).map fun variant => { seen with variant := some variant }
  else if member.2.legible then .ok { seen with others := member :: seen.others }
  else .error .malformed

/-- Reads a sum. -/
def read {σ : Type} (variants : List (Variant σ)) : Json → Except Json.Fault σ
  | .obj members => do
    let seen ← members.foldlM (collect variants) { variant := none, others := [] }
    match seen.variant with
    | some variant => variant.ofMembers seen.others.reverse
    | none => .error .mismatch
  | .arr (tag :: items) => do
    let variant ← named variants tag
    if Json.legibleItems items then variant.ofItems items else .error .malformed
  | .arr [] => .error .mismatch
  | v => Codec.refuse v

end Variant

/-- A tagged object. -/
def Json.tagged (tag : String) (members : List (String × Json)) : Json :=
  .obj ((Variant.tagName, .str tag) :: members)

end HouseBoard
