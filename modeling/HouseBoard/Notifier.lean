/-
HouseBoard.Notifier — short messages that expire.

A notifier keeps at most a fixed number of messages, and each for a fixed time.  When there is
no more room the oldest one leaves.  Failures of calls become messages, except those of an
unknown kind, which are the noise of calls that were given up.
-/
import HouseBoard.Rpc
import HouseBoard.Uuid
import HouseBoard.Settings.Basic
import HouseBoard.Calendar.Timestamp

namespace HouseBoard

/-! ## Toasts -/

/-- Whether a message tells of a success or an error. -/
inductive ToastLevel where
  | success
  | error
  deriving DecidableEq, Repr, Inhabited

namespace ToastLevel

/-- The word of a level. -/
def word : ToastLevel → String
  | .success => "success"
  | .error => "error"

/-- Levels as words. -/
def codec : Codec ToastLevel := .word [("success", .success), ("error", .error)] word

end ToastLevel

/-- A message with the milliseconds, counted from 1970, between which it is shown. -/
structure Toast where
  id : Uuid
  level : ToastLevel
  message : String
  description : Option String
  createdAt : Int
  expiresAt : Int
  deriving DecidableEq, Repr

namespace Toast

/-- The seconds for which a message is shown. -/
def lifetime (t : Toast) : Int := (t.expiresAt - t.createdAt) / 1000

/-- A message as a document; a missing description is left out. -/
def toJson (t : Toast) : Json :=
  .obj <| [("id", .str t.id.text), ("level", .str t.level.word), ("message", .str t.message)]
    ++ Json.optional "description" (t.description.map .str)
    ++ [("created_at", .str (Timestamp.ofMillis t.createdAt).text),
      ("expires_at", .str (Timestamp.ofMillis t.expiresAt).text)]

end Toast

/-! ## Notifiers -/

/-- Messages, oldest first, with the limits on them. -/
structure Notifier where
  capacity : Nat
  /-- The seconds for which messages are shown. -/
  lifetime : Int
  /-- The identifier of the next message. -/
  nextId : Uuid
  toasts : List Toast := []
  deriving DecidableEq, Repr

namespace Notifier

/-- A notifier without messages; it has room for one at least. -/
def start (s : NotificationSettings) (firstId : Uuid) : Notifier where
  capacity := max s.capacity 1
  lifetime := Timestamp.signedSeconds s.durationSecs
  nextId := firstId

/-- Adds a message that is created at an instant. -/
def push (n : Notifier) (now : Int) (level : ToastLevel) (message : String)
    (description : Option String) :
    Except Overflow (Uuid × Notifier) := do
  let expiresAt ← Timestamp.after now n.lifetime
  let toast : Toast :=
    { id := n.nextId, level, message, description, createdAt := now, expiresAt }
  let kept := n.toasts.drop (n.toasts.length + 1 - n.capacity)
  return (toast.id,
    { n with toasts := kept ++ [toast], nextId := ⟨(n.nextId.number + 1) % Uuid.count⟩ })

/-- Lets the messages go that have expired at an instant. -/
def expire (n : Notifier) (now : Int) : Notifier :=
  { n with toasts := n.toasts.filter fun t => now < t.expiresAt }

/-- Takes a message away; says whether it was there. -/
def dismiss (n : Notifier) (id : Uuid) : Bool × Notifier :=
  (n.toasts.any (·.id = id), { n with toasts := n.toasts.filter (·.id ≠ id) })

/-- Tells of a failed call; says whether a message was added. -/
def reportError (n : Notifier) (now : Int) (e : RpcError) : Except Overflow (Bool × Notifier) :=
  if e.code = .unknown then .ok (false, n)
  else (n.push now .error e.code.name (some e.message)).map fun (_, n) => (true, n)

end Notifier

end HouseBoard
