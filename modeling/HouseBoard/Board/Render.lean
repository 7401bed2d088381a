/-
HouseBoard.Board.Render — the views as callers see them.
-/
import HouseBoard.Board.Basic
import HouseBoard.View.Model

namespace HouseBoard

/-- A view as it is told to a caller: its route, and its model once something is known. -/
structure ViewResponse where
  route : String
  /-- When the model was learned, in milliseconds counted from 1970. -/
  polledAt : Option Int
  model : Option ViewModel

namespace ViewResponse

/-- Whether nothing is known yet. -/
def loading (r : ViewResponse) : Bool := r.model.isNone

/-- A view as a document; what is not known is left out. -/
def toJson (r : ViewResponse) : Json :=
  .obj <| [("route", .str r.route), ("loading", .bool r.loading)]
    ++ Json.optional "polled_at" (r.polledAt.map fun t => .str (Timestamp.ofMillis t).text)
    ++ Json.optional "model" (r.model.map ViewModel.toJson)

end ViewResponse

namespace Board

/-- What rendering depends on at some seconds after a snapshot. -/
def context (b : Board) (offset : Nat) : ViewContext where
  policy := b.policy
  seasonAdjusted := b.season.isSummer (Timestamp.ofMillis b.wall).date
  debug := b.debug
  offset

/-- The view of a number, rendered for a kind; a number without a slot has nothing to show. -/
def render (b : Board) (kind : ViewKind) (id : ViewId) : ViewResponse :=
  match b.store.get? id with
  | none => ⟨kind.route, none, none⟩
  | some slot =>
    ⟨kind.route, slot.polledAt, slot.snapshot.map fun s => s.render (b.context slot.offset)⟩

end Board

end HouseBoard
