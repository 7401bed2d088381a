/-
HouseBoard.Json.Writer — documents to texts.

The text is compact.  A quote, a backslash and the control characters are escaped, the five that
have a letter of their own with it; floating point values are written with the fewest digits
that read back.
-/
import HouseBoard.Json.Basic

namespace HouseBoard.Json

/-! ## Scalars -/

/-- The characters of one character of a string. -/
def escaped (c : Char) : List Char :=
  match c with
  | '"' => ['\\', '"']
  | '\\' => ['\\', '\\']
  | '\x08' => ['\\', 'b']
  | '\x0c' => ['\\', 'f']
  | '\n' => ['\\', 'n']
  | '\r' => ['\\', 'r']
  | '\t' => ['\\', 't']
  | c => if c.toNat < 0x20 then '\\' :: 'u' :: Digits.hexQuad c.toNat else [c]

/-- A string between quotes. -/
def quoted (s : String) : String :=
  "\"" ++ String.ofList (s.toList.flatMap escaped) ++ "\""

/-- The text of a number; what is not finite is null. -/
def Number.text : Number → String
  | .int i => Digits.intText i
  | .real (.finite n s u) => Binary64.shortestText n s u
  | .real _ => "null"

/-! ## Containers -/

mutual

/-- The text of a document; a part without a value is null. -/
def text : Json → String
  | .null => "null"
  | .bool b => if b then "true" else "false"
  | .num n => n.text
  | .str s => quoted s
  | .arr [] => "[]"
  | .arr (v :: vs) => "[" ++ v.text ++ textItems vs ++ "]"
  | .obj [] => "{}"
  | .obj ((k, v) :: ms) => r"{" ++ quoted k ++ ":" ++ v.text ++ textMembers ms ++ r"}"
  | .unread => "null"
  | .broken => "null"

/-- Each item after a comma. -/
def textItems : List Json → String
  | [] => ""
  | v :: vs => "," ++ v.text ++ textItems vs

/-- Each member after a comma. -/
def textMembers : List (String × Json) → String
  | [] => ""
  | (k, v) :: ms => "," ++ quoted k ++ ":" ++ v.text ++ textMembers ms

end

end HouseBoard.Json
