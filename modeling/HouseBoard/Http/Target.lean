/-
HouseBoard.Http.Target — what requests are aimed at.

A target is a path with an optional query, the authority of a machine alone, a scheme with an
authority and perhaps a path, or an asterisk.  Only its path matters to the dashboard; every
other part has to be made of the characters that it may have.
-/

namespace HouseBoard.Target

/-! ## Paths and queries -/

/-- A character of a path. -/
def isPathChar (c : Char) : Bool :=
  let n := c.toNat
  n = 0x21 || n = 0x22 || (0x24 ≤ n && n ≤ 0x3B) || n = 0x3D || (0x40 ≤ n && n ≤ 0x5F) ||
    (0x61 ≤ n && n ≤ 0x7E)
    || 0x7F ≤ n

/-- A character of a query. -/
def isQueryChar (c : Char) : Bool :=
  let n := c.toNat
  n = 0x21 || (0x24 ≤ n && n ≤ 0x3B) || n = 0x3D || (0x3F ≤ n && n ≤ 0x7E) || 0x7F ≤ n

/-- What precedes a query or a fragment; the fragment may hold anything. -/
def pathPart? (cs : List Char) : Option (List Char) :=
  let path := cs.takeWhile isPathChar
  match cs.drop path.length with
  | [] | '#' :: _ => some path
  | '?' :: query =>
    match query.dropWhile isQueryChar with
    | [] | '#' :: _ => some path
    | _ => none
  | _ => none

/-! ## Authorities -/

/-- A character of an authority, beside the percent sign. -/
def isAuthorityChar (c : Char) : Bool :=
  c.isAlphanum
    || c ∈ ['!', '$', '&', '\'', '(', ')', '*', '+', ',', '-', '.', ':', ';', '=', '@', '[',
      ']', '_', '~']

/-- What has been seen of an authority: colons and percent signs since the last at sign or
bracket, and brackets. -/
structure Seen where
  colons : Nat := 0
  percent : Bool := false
  opened : Bool := false
  closed : Bool := false

/-- Goes on to the next character; none where it cannot stand. -/
def Seen.step (s : Seen) (c : Char) : Option Seen :=
  if c = ':' then if s.colons < 8 then some { s with colons := s.colons + 1 } else none
  else if c = '[' then if s.percent || s.opened then none else some { s with opened := true }
  else if c = ']' then
    if s.opened && !s.closed then some { s with closed := true, colons := 0, percent := false }
    else none
  else if c = '@' then some { s with colons := 0, percent := false }
  else if c = '%' then some { s with percent := true }
  else if isAuthorityChar c then some s
  else none

/-- Whether characters are an authority: brackets in a pair, one colon at most after them and
after the last at sign, percent signs only before, and something after the at sign. -/
def isAuthority (cs : List Char) : Bool :=
  match cs.foldlM Seen.step {} with
  | none => false
  | some s => s.opened == s.closed && s.colons ≤ 1 && !s.percent && cs.getLast? ≠ some '@'

/-! ## Targets -/

/-- A character of a scheme. -/
def isSchemeChar (c : Char) : Bool := c.isAlphanum || c ∈ ['+', '-', '.', '~']

/-- What follows a scheme, if there is one. -/
def afterScheme? (cs : List Char) : Option (List Char) :=
  let scheme := cs.takeWhile isSchemeChar
  match cs.drop scheme.length with
  | ':' :: '/' :: '/' :: rest => if scheme.length ≤ 64 then some rest else none
  | _ => none

/-- The path of a target: a machine without a scheme has none, a machine with a scheme has
at least a slash. -/
def path? (target : String) : Option (List Char) :=
  match target.toList with
  | [] => none
  | ['*'] => some ['*']
  | '/' :: cs => pathPart? ('/' :: cs)
  | cs =>
    match afterScheme? cs with
    | none => if isAuthority cs then some [] else none
    | some rest =>
      let authority := rest.takeWhile (· ∉ ['/', '?', '#'])
      if authority ≠ [] && isAuthority authority then
        (pathPart? (rest.drop authority.length)).map fun path =>
          if path = [] then ['/'] else path
      else none

end HouseBoard.Target
