/-
HouseBoard.Board.Store — what is known of the mounted views.

Each mounted view has a slot under its number.  A slot keeps the last state that was learned,
and the seconds since.
-/
import HouseBoard.View.Kind
import HouseBoard.View.Snapshot
import HouseBoard.Liveness

namespace HouseBoard

/-- The number of a mounted view. -/
abbrev ViewId := Nat

/-- What is known of a mounted view. -/
structure Slot where
  kind : ViewKind
  snapshot : Option Snapshot := none
  /-- The seconds since the snapshot was taken. -/
  offset : Nat := 0
  /-- When it was taken, in milliseconds counted from 1970. -/
  polledAt : Option Int := none
  deriving DecidableEq, Repr

namespace Slot

/-- A slot with a state that is learned at an instant. -/
def commit (s : Slot) (wall : Int) (snapshot : Snapshot) : Slot :=
  { s with snapshot := some snapshot, offset := 0, polledAt := some wall }

/-- A slot one second later. -/
def tick (s : Slot) : Slot := { s with offset := addSeconds s.offset 1 }

end Slot

/-- The slots by their numbers. -/
structure Store where
  slots : List (ViewId × Slot) := []
  deriving DecidableEq, Repr

namespace Store

/-- The slot of a number. -/
def get? (s : Store) (id : ViewId) : Option Slot := s.slots.lookup id

/-- Takes a slot away. -/
def remove (s : Store) (id : ViewId) : Store := ⟨s.slots.filter fun e => e.1 ≠ id⟩

/-- Puts a slot under a number, in the place of the one that was there. -/
def put (s : Store) (id : ViewId) (slot : Slot) : Store :=
  ⟨(s.remove id).slots ++ [(id, slot)]⟩

/-- Changes the slot of a number, if there is one. -/
def update (s : Store) (id : ViewId) (f : Slot → Slot) : Store :=
  ⟨s.slots.map fun e => if e.1 = id then (e.1, f e.2) else e⟩

/-- The number of slots with a snapshot. -/
def withData (s : Store) : Nat := s.slots.countP fun e => e.2.snapshot.isSome

end Store

end HouseBoard
