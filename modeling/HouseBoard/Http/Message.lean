/-
HouseBoard.Http.Message — requests and responses.

A request exists only if its method, its target and its header fields are made of the characters
that they may have.
-/
import HouseBoard.Http.MediaType
import HouseBoard.Http.Target
import HouseBoard.Json.Codec

namespace HouseBoard

/-! ## Requests -/

/-- A request. -/
structure Request where
  method : String
  /-- The path of the target, before any percent sign is taken for what it stands for. -/
  path : List Char
  /-- The header fields in order; the names in lower case. -/
  headers : List (String × String)
  body : String
  deriving DecidableEq, Repr

namespace Request

/-- Whether a text can be the value of a header field. -/
def isFieldValue (text : String) : Bool :=
  text.toList.all fun c => (0x20 ≤ c.toNat && c.toNat ≠ 0x7F) || c = '\t'

/-- Whether a text is a method or the name of a header field. -/
def isName (text : String) : Bool := text ≠ "" && text.toList.all MediaType.isToken

/-- The request of some parts, if there is one. -/
def of? (method target : String) (headers : List (String × String)) (body : String) :
    Option Request := do
  let path ← Target.path? target
  if isName method && headers.all fun (name, value) => isName name && isFieldValue value then
    return {
      method, path, headers := headers.map fun (name, value) => (name.toLower, value), body }
  else none

/-- The first value of a header field, if it is made of visible characters. -/
def header? (r : Request) (name : String) : Option String :=
  (r.headers.lookup name).filter fun value => value.toList.all fun c =>
    (0x20 ≤ c.toNat && c.toNat < 0x7F) || c = '\t'

/-- Whether the body is said to be JSON. -/
def saysJson (r : Request) : Bool := (r.header? "content-type").any MediaType.isJson

end Request

/-! ## Responses -/

/-- The body of a response. -/
inductive Body where
  | empty
  | text (content : String)
  | json (content : Json)

/-- A response. -/
structure Response where
  status : Nat
  body : Body := .empty

namespace Response

/-- A document with which all is well. -/
def ok (v : Json) : Response := ⟨200, .json v⟩

/-- The same response without its body. -/
def headOnly (r : Response) : Response := { r with body := .empty }

end Response

/-- The value of a request's body, or the response to a body that holds none: one that does not
say that it is JSON, one that is not, or one of another shape. -/
def Request.read {α : Type} (r : Request) (codec : Codec α) : Except Response α :=
  if !r.saysJson then .error ⟨415, .empty⟩
  else match codec.readText r.body with
    | .ok a => .ok a
    | .error .malformed => .error ⟨400, .empty⟩
    | .error .mismatch => .error ⟨422, .empty⟩

end HouseBoard
