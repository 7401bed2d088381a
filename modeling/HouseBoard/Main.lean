/-
HouseBoard.Main — the dashboard as a program.

The program looks at its surroundings, tells why it does not start, or answers requests one
after the other.  Requests come from standard input and responses go to standard output, so that
whatever takes the connections can be put in front of it.  Nothing here reaches a controller:
every call to one is refused.
-/
import HouseBoard.Board.Answer
import HouseBoard.Http.Wire
import HouseBoard.Launch.Plan
import Std.Time.DateTime.Timestamp

namespace HouseBoard.Program

/-- The present, in milliseconds counted from 1970. -/
def present : IO Int := do
  return (← Std.Time.Timestamp.now).toMillisecondsSinceUnixEpoch.val

/-- Whether a path can be followed to its end. -/
def leads (path : String) : IO Bool := do
  try
    let _ ← IO.FS.realPath path
    return true
  catch _ => return false

/-- What stands at a path.  A file that cannot be opened is closed if its path leads to it, and
hidden otherwise; a path that is too long or leads in a circle is itself at fault, wherever it
leads. -/
def look (path : String) : IO SettingsFile := do
  let seen ← leads path
  try
    return .bytes (← IO.FS.readBinFile path)
  catch
    | .noFileOrDirectory .. => return .absent
    | .invalidArgument .. => return .hidden
    | e@(.inappropriateType ..) => return if seen then .closed (toString e) else .absent
    | e => return if seen then .closed (toString e) else .hidden

/-- What the program finds. -/
def surroundings : IO Surroundings := do
  let given := match ← IO.getEnv Surroundings.pathVariable with
    | some value => [(Surroundings.pathVariable, value)]
    | none => []
  let variableFile ← match ← look ".env" with
    | .bytes content => pure (String.fromUTF8? content)
    | _ => pure none
  let bare : Surroundings :=
    { given, variableFile, file := fun _ => .absent,
      isFree := fun socket => socket.address.isOwn }
  let found ← look bare.settingsPath
  return { bare with file := fun path => if path = bare.settingsPath then found else .absent }

/-- A number that nobody can guess. -/
def secret : IO Uuid := do
  return ⟨(← IO.getRandomBytes 16).foldl (fun n octet => n * 256 + octet.toNat) 0⟩

/-- Reads header fields up to an empty line. -/
partial def readFields (input : IO.FS.Stream) (fields : List (String × String)) :
    IO (List (String × String)) := do
  match Request.field? (← input.getLine) with
  | some field => readFields input (fields ++ [field])
  | none => return fields

/-- Answers one request after the other, until there is none. -/
partial def serve (input output : IO.FS.Stream) (started : Nat) (b : Board) : IO Unit := do
  let line ← input.getLine
  if line.isEmpty then return
  let fields ← readFields input []
  let body ← input.read (Request.bodyLength fields).toUSize
  let request := do
    let (method, target) ← Request.line? line
    Request.of? method target fields (← String.fromUTF8? body)
  let b := { b with wall := ← present }.advance ((← IO.monoMsNow) - started - b.now)
  let (response, b) := match request with
    | some r => b.respond r
    | none => b.answer 400
  output.putStr (response.toOption.getD ⟨500, .empty⟩).wire
  output.flush
  serve input output started b.settle

/-- Tells why the dashboard does not start. -/
def complain (e : BoardError) : IO UInt32 := do
  IO.eprintln e.headline
  if let some cause := e.cause? then IO.eprintln ("\nCaused by:\n    " ++ cause)
  return 1

/-- Starts the dashboard. -/
def run : IO UInt32 := do
  match (← surroundings).plan with
  | .error e => complain e
  | .ok (settings, _) =>
    match Board.launch settings (← present) (← secret) (Gateway.offline settings.gateway) with
    | .error e => complain (.settings e)
    | .ok b =>
      serve (← IO.getStdin) (← IO.getStdout) (← IO.monoMsNow) b
      return 0

end HouseBoard.Program

/-- Starts the dashboard; says whether it could be started. -/
def main : IO UInt32 := HouseBoard.Program.run
