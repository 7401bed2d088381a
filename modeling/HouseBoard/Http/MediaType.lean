/-
HouseBoard.Http.MediaType — which bodies are JSON.

A media type is a type, a slash and a subtype, followed by parameters between semicolons.
Letters count in either case.  A subtype may end in a suffix behind a plus sign.
-/

namespace HouseBoard.MediaType

/-- A character of names. -/
def isToken (c : Char) : Bool :=
  c.isAlphanum ||
    c ∈ ['!', '#', '$', '%', '&', '\'', '*', '+', '-', '.', '^', '_', '\x60', '|', '~']

/-- A character inside quotes. -/
def isQuotable (c : Char) : Bool := 31 < c.toNat && c.toNat ≠ 127

/-! ## Parameters -/

/-- What is expected next among the parameters. -/
inductive Part where
  /-- The name of a parameter, of which some characters may have been read. -/
  | name (isEmpty : Bool)
  /-- Its value without quotes. -/
  | value (isEmpty : Bool)
  /-- Its value inside quotes. -/
  | quoted (isEmpty : Bool)
  /-- The semicolon after quotes. -/
  | afterQuotes

/-- Whether characters are well-formed parameters. -/
def areParameters : Part → List Char → Bool
  | .name isEmpty, [] => isEmpty
  | .name isEmpty, c :: cs =>
    if c = ' ' ∧ isEmpty then areParameters (.name true) cs
    else if c = '=' ∧ !isEmpty then areParameters (.value true) cs
    else isToken c && areParameters (.name false) cs
  | .value _, [] => true
  | .value isEmpty, c :: cs =>
    if c = '"' ∧ isEmpty then areParameters (.quoted true) cs
    else if c = ';' ∧ !isEmpty then areParameters (.name true) cs
    else isToken c && areParameters (.value false) cs
  | .quoted _, [] => false
  | .quoted isEmpty, c :: cs =>
    if c = '"' ∧ !isEmpty then areParameters .afterQuotes cs
    else isQuotable c && areParameters (.quoted false) cs
  | .afterQuotes, [] => true
  | .afterQuotes, c :: cs =>
    if c = ';' then areParameters (.name true) cs
    else c = ' ' && areParameters .afterQuotes cs

/-! ## Types -/

/-- What precedes the last plus sign that is not the first character, and what follows it. -/
def splitSuffix (subtype : List Char) : List Char × Option (List Char) :=
  let suffix := (subtype.reverse.takeWhile (· ≠ '+')).reverse
  let stem := subtype.take (subtype.length - suffix.length - 1)
  if suffix.length < subtype.length ∧ stem ≠ [] then (stem, some suffix) else (subtype, none)

/-- Whether a media type says that a body is JSON. -/
def isJson (text : String) : Bool :=
  let cs := text.toList.map Char.toLower
  let type := cs.takeWhile isToken
  match cs.drop type.length with
  | '/' :: rest =>
    let subtype := rest.takeWhile isToken
    let isWellFormed := match rest.drop subtype.length with
      | [] => true
      | ';' :: parameters => subtype ≠ [] && areParameters (.name true) parameters
      | _ => false
    let (stem, suffix) := splitSuffix subtype
    isWellFormed && type = "application".toList &&
      (stem = "json".toList || suffix = some "json".toList)
  | _ => false

end HouseBoard.MediaType
