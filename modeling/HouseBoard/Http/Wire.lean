/-
HouseBoard.Http.Wire — messages as they are sent.
-/
import HouseBoard.Http.Message
import HouseBoard.Http.Reason
import HouseBoard.Json.Writer
import HouseBoard.Text.Space

namespace HouseBoard

/-! ## Requests -/

/-- The method and the target of the first line of a request. -/
def Request.line? (line : String) : Option (String × String) :=
  match (line.toList.map fun c => if Space.isSpace c then ' ' else c).splitOn ' ' with
  | method :: target :: _ => some (String.ofList method, String.ofList target)
  | _ => none

/-- The name and the value of a header field. -/
def Request.field? (line : String) : Option (String × String) :=
  let name := line.toList.takeWhile (· ≠ ':')
  match line.toList.drop name.length with
  | ':' :: value => some (String.ofList name, String.ofList (Space.trim value))
  | _ => none

/-- The length of the body that header fields announce. -/
def Request.bodyLength (headers : List (String × String)) : Nat :=
  ((headers.find? fun h => h.1.toLower = "content-length").bind fun h =>
    Digits.read? 10 h.2.toList).getD 0

/-! ## Responses -/

/-- The type and the content of a body. -/
def Body.content : Body → Option (String × String)
  | .empty => none
  | .text content => some ("text/plain; charset=utf-8", content)
  | .json content => some ("application/json", content.text)

/-- The text of a response. -/
def Response.wire (r : Response) : String :=
  let (fields, content) := match r.body.content with
    | some (type, content) => ([("content-type", type)], content)
    | none => ([], "")
  let fields := fields ++ [("content-length", Digits.text content.utf8ByteSize)]
  "HTTP/1.1 " ++ Reason.text r.status ++ "\r\n"
    ++ String.join (fields.map fun (name, value) => name ++ ": " ++ value ++ "\r\n") ++
    "\r\n" ++ content

end HouseBoard
