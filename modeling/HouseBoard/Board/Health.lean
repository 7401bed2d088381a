/-
HouseBoard.Board.Health — how the polling fares.
-/
import HouseBoard.Board.Store
import HouseBoard.Rpc

namespace HouseBoard

/-- Counts of views and of polls, and the last failure.  The counts have no bound here: a
dashboard is taken to have fewer than 2 ^ 32 views and fewer than 2 ^ 64 polls of either
outcome, which is where counters of 32 and of 64 bits would start from zero again. -/
structure Health where
  mounted : Nat := 0
  succeeded : Nat := 0
  failed : Nat := 0
  lastError : Option String := none
  deriving DecidableEq, Repr

namespace Health

/-- A view was mounted. -/
def mount (h : Health) : Health := { h with mounted := h.mounted + 1 }

/-- A view was unmounted; there are never fewer than none. -/
def unmount (h : Health) : Health := { h with mounted := h.mounted - 1 }

/-- A poll succeeded. -/
def succeed (h : Health) : Health := { h with succeeded := h.succeeded + 1 }

/-- A poll failed. -/
def fail (h : Health) (e : RpcError) : Health :=
  { h with failed := h.failed + 1, lastError := some e.text }

/-- The counts as a document, with the number of views that have data and the seconds
since the start. -/
def toJson (h : Health) (store : Store) (uptime : Nat) : Json :=
  .obj [("uptime_seconds", Json.nat uptime), ("views_mounted", Json.nat h.mounted),
    ("views_with_data", Json.nat store.withData), ("polls_ok", Json.nat h.succeeded),
    ("polls_failed", Json.nat h.failed), ("last_error", Json.ofOption .str h.lastError)]

end Health

end HouseBoard
