/-
HouseBoard.Launch.Variables — files of variables.

Each line gives a variable a value; blank lines and comments say nothing.  A value ends at a
blank, unless it is quoted.  Single quotes keep everything, double quotes keep all but
backslashes and dollar signs.  A dollar sign stands in front of the name of a variable whose
value is meant.  What follows a line at fault is not read.
-/
import HouseBoard.Text.Space

namespace HouseBoard.Variables

/-- Variables with their values. -/
abbrev Values := List (String × String)

/-! ## Values -/

/-- Where in a value one is. -/
inductive Place where
  | bare
  | single
  | double
  /-- After a backslash. -/
  | escaped (quoted : Bool)
  /-- In a name behind a dollar sign. -/
  | name (quoted : Bool) (reversed : List Char)
  /-- In a name between braces. -/
  | braced (quoted : Bool) (reversed : List Char)
  /-- After the value. -/
  | ended

/-- Outside or inside double quotes. -/
def Place.around (quoted : Bool) : Place := if quoted then .double else .bare

/-- The value of a variable, nothing if there is none. -/
def valueOf (values : Values) (reversed : List Char) : List Char :=
  ((values.lookup (String.ofList reversed.reverse)).getD "").toList

/-- Reads a value; `taken` is what has been read of it, in reverse order. -/
def value? (values : Values) : Place → List Char → List Char → Option String
  | .bare, taken, [] => some (String.ofList taken.reverse)
  | .ended, taken, [] => some (String.ofList taken.reverse)
  | .escaped false, taken, [] => some (String.ofList taken.reverse)
  | .name false reversed, taken, [] =>
    some (String.ofList (taken.reverse ++ valueOf values reversed))
  | _, _, [] => none
  | .ended, taken, c :: cs =>
    if c = ' ' ∨ c = '\t' then value? values .ended taken cs
    else if c = '#' then some (String.ofList taken.reverse)
    else none
  | .escaped quoted, taken, c :: cs =>
    if c = 'n' then value? values (.around quoted) ('\n' :: taken) cs
    else if c ∈ ['\\', '\'', '"', '$', ' '] then value? values (.around quoted) (c :: taken) cs
    else none
  | .single, taken, c :: cs =>
    if c = '\'' then value? values .bare taken cs else value? values .single (c :: taken) cs
  | .braced quoted reversed, taken, c :: cs =>
    if c = '}' then value? values (.around quoted)
      ((valueOf values reversed).reverse ++ taken) cs
    else value? values (.braced quoted (c :: reversed)) taken cs
  | .name quoted reversed, taken, c :: cs =>
    if c.isAlphanum then value? values (.name quoted (c :: reversed)) taken cs
    else if c = '{' ∧ reversed = [] then value? values (.braced quoted []) taken cs
    else
      let taken := (valueOf values reversed).reverse ++ taken
      if c = '$' then value? values (.name quoted []) taken cs
      else value? values (.around quoted) (c :: taken) cs
  | .double, taken, c :: cs =>
    if c = '$' then value? values (.name true []) taken cs
    else if c = '"' then value? values .bare taken cs
    else if c = '\\' then value? values (.escaped true) taken cs
    else value? values .double (c :: taken) cs
  | .bare, taken, c :: cs =>
    if c = '$' then value? values (.name false []) taken cs
    else if c = '\'' then value? values .single taken cs
    else if c = '"' then value? values .double taken cs
    else if c = '\\' then value? values (.escaped false) taken cs
    else if c = ' ' ∨ c = '\t' then value? values .ended taken cs
    else value? values .bare (c :: taken) cs

/-! ## Lines -/

/-- Reads the name of a variable and the blanks after it. -/
def name? (cs : List Char) : Option (String × List Char) :=
  let name := cs.takeWhile fun c => c.isAlphanum || c = '_' || c = '.'
  if name.head?.any fun c => c.isAlpha || c = '_' then
    some (String.ofList name, (cs.drop name.length).dropWhile Space.isSpace)
  else none

/-- Reads an equals sign and the blanks after it. -/
def equals? : List Char → Option (List Char)
  | '=' :: cs => some (cs.dropWhile Space.isSpace)
  | _ => none

/-- Reads a name and an equals sign; the word `export` may stand in front. -/
def assignment? (cs : List Char) : Option (String × List Char) := do
  let (name, rest) ← name? cs
  match name, equals? rest with
  | _, some value => return (name, value)
  | "export", none =>
    let (name, rest) ← name? rest
    return (name, ← equals? rest)
  | _, none => none

/-- Reads a line: nothing for a line at fault, and no variable for one that says nothing. -/
def line? (values : Values) (cs : List Char) : Option (Option (String × String)) :=
  match cs.dropWhile Space.isSpace with
  | [] => some none
  | '#' :: _ => some none
  | cs => do
    let (name, rest) ← assignment? cs
    match rest with
    | [] => return some (name, "")
    | '#' :: _ => return some (name, "")
    | rest => return some (name, ← value? values .bare [] rest)

/-- The variables and those that lines give; one that has a value keeps it. -/
def takeLines (values : Values) : List (List Char) → Values
  | [] => values
  | cs :: rest =>
    match line? values cs with
    | none => values
    | some none => takeLines values rest
    | some (some (name, value)) =>
      takeLines (if (values.lookup name).isSome then values else values ++ [(name, value)]) rest

/-- A line without the carriage return at its end. -/
def withoutReturn (cs : List Char) : List Char :=
  if cs.getLast? = some '\r' then cs.dropLast else cs

/-- The variables and those that a file gives. -/
def withFile (values : Values) (text : String) : Values :=
  takeLines values ((text.toList.splitOn '\n').map withoutReturn)

end HouseBoard.Variables
