/-
HouseBoard.Rpc — how calls to the controller fail.

A failure is a code and a message.  The code comes from the HTTP status of the controller's
answer; the dashboard in turn answers its own callers with a status that tells the controller's
refusals from theirs.
-/
import HouseBoard.Json.Codec

namespace HouseBoard

/-- What went wrong with a call. -/
inductive RpcCode where
  | unknown
  | notFound
  | unavailable
  | deadlineExceeded
  | invalidArgument
  | unauthenticated
  | permissionDenied
  | resourceExhausted
  | unimplemented
  | internal
  deriving DecidableEq, Repr, Inhabited

namespace RpcCode

/-- The codes in the order of their declaration. -/
def all : List RpcCode :=
  [.unknown, .notFound, .unavailable, .deadlineExceeded, .invalidArgument, .unauthenticated,
    .permissionDenied,
    .resourceExhausted, .unimplemented, .internal]

/-- The name that is shown. -/
def name : RpcCode → String
  | .unknown => "Unknown"
  | .notFound => "NotFound"
  | .unavailable => "Unavailable"
  | .deadlineExceeded => "DeadlineExceeded"
  | .invalidArgument => "InvalidArgument"
  | .unauthenticated => "Unauthenticated"
  | .permissionDenied => "PermissionDenied"
  | .resourceExhausted => "ResourceExhausted"
  | .unimplemented => "Unimplemented"
  | .internal => "Internal"

/-- The word of the payload format. -/
def word : RpcCode → String
  | .unknown => "unknown"
  | .notFound => "not_found"
  | .unavailable => "unavailable"
  | .deadlineExceeded => "deadline_exceeded"
  | .invalidArgument => "invalid_argument"
  | .unauthenticated => "unauthenticated"
  | .permissionDenied => "permission_denied"
  | .resourceExhausted => "resource_exhausted"
  | .unimplemented => "unimplemented"
  | .internal => "internal"

/-- Codes as words. -/
def codec : Codec RpcCode := .word (all.map fun code => (code.word, code)) word

/-- The code of an answer that is no success.  `unknown` is left to failures without
a status. -/
def ofStatus (status : Nat) : RpcCode :=
  match status with
  | 401 => .unauthenticated
  | 403 => .permissionDenied
  | 429 => .resourceExhausted
  | 501 => .unimplemented
  | 404 => .notFound
  | 400 | 422 => .invalidArgument
  | 502 | 503 => .unavailable
  | 408 | 504 => .deadlineExceeded
  | status => if 400 ≤ status ∧ status < 500 then .invalidArgument else .internal

/-- The status with which the dashboard passes a failure on; what the controller refuses to the
dashboard is no fault of the dashboard's caller. -/
def status : RpcCode → Nat
  | .notFound => 404
  | .invalidArgument => 400
  | .unavailable => 503
  | .deadlineExceeded => 504
  | .resourceExhausted => 503
  | .unimplemented => 501
  | .unauthenticated | .permissionDenied => 502
  | .internal | .unknown => 502

end RpcCode

/-- A failed call. -/
structure RpcError where
  code : RpcCode
  message : String
  deriving DecidableEq, Repr, Inhabited

/-- The name of the code and the message. -/
def RpcError.text (e : RpcError) : String := e.code.name ++ ": " ++ e.message

end HouseBoard
