/-
HouseBoard.Json.Reader — texts to documents.

`Json.read` never fails: where the text stops being JSON the tree holds `broken` and ends.
Containers nested more than 127 levels deep are passed over without being kept, so that their
depth costs neither stack nor memory.
-/
import HouseBoard.Json.Lexeme

namespace HouseBoard.Json

/-- The deepest level of nesting that is kept. -/
def maxDepth : Nat := 127

/-! ## Passing over a value

The list of open containers says of each whether it is an array. -/

mutual

/-- Passes over a value and whatever closes with it. -/
def skipValue : Nat → List Bool → List Char → Option (List Char)
  | 0, _, _ => none
  | fuel + 1, opened, cs =>
    match dropBlanks cs with
    | '[' :: cs =>
      match dropBlanks cs with
      | ']' :: cs => skipAfter fuel opened cs
      | cs => skipValue fuel (true :: opened) cs
    | '{' :: cs =>
      match dropBlanks cs with
      | '}' :: cs => skipAfter fuel opened cs
      | cs => skipKey fuel (false :: opened) cs
    | cs =>
      match scalar? cs with
      | some (_, rest) => skipAfter fuel opened rest
      | none => none

/-- Passes over what follows a value. -/
def skipAfter : Nat → List Bool → List Char → Option (List Char)
  | 0, _, _ => none
  | _ + 1, [], cs => some cs
  | fuel + 1, true :: opened, cs =>
    match dropBlanks cs with
    | ',' :: cs => skipValue fuel (true :: opened) cs
    | ']' :: cs => skipAfter fuel opened cs
    | _ => none
  | fuel + 1, false :: opened, cs =>
    match dropBlanks cs with
    | ',' :: cs => skipKey fuel (false :: opened) cs
    | '}' :: cs => skipAfter fuel opened cs
    | _ => none

/-- Passes over a name, its colon and its value. -/
def skipKey : Nat → List Bool → List Char → Option (List Char)
  | 0, _, _ => none
  | fuel + 1, opened, cs =>
    match dropBlanks cs with
    | '"' :: cs =>
      match string? cs with
      | some (_, rest) =>
        match dropBlanks rest with
        | ':' :: cs => skipValue fuel opened cs
        | _ => none
      | none => none
    | _ => none

end

/-! ## Keeping a value

No rest means that the text broke off inside; the tree then ends at that place. -/

/-- The members of an object, and whether every name could be read. -/
structure Members where
  list : List (String × Json)
  named : Bool

/-- What is kept of a value that was passed over. -/
def passedOver : Option (List Char) → Json × Option (List Char)
  | some rest => (.unread, some rest)
  | none => (.broken, none)

mutual

/-- A value, with `room` levels of nesting left. -/
def value : Nat → Nat → List Char → Json × Option (List Char)
  | 0, _, _ => (.broken, none)
  | fuel + 1, room, cs =>
    match dropBlanks cs, room with
    | '[' :: cs, 0 => passedOver (skipValue fuel [] ('[' :: cs))
    | '{' :: cs, 0 => passedOver (skipValue fuel [] ('{' :: cs))
    | '[' :: cs, room + 1 =>
      match dropBlanks cs with
      | ']' :: cs => (.arr [], some cs)
      | cs => let (vs, rest) := items fuel room cs; (.arr vs, rest)
    | '{' :: cs, room + 1 =>
      match dropBlanks cs with
      | '}' :: cs => (.obj [], some cs)
      | cs =>
        match members fuel room cs with
        | (ms, some rest) => (if ms.named then .obj ms.list else .unread, some rest)
        | (ms, none) => (.obj ms.list, none)
    | cs, _ =>
      match scalar? cs with
      | some (v, rest) => (v, some rest)
      | none => (.broken, none)

/-- The items of an array from the first of them on. -/
def items : Nat → Nat → List Char → List Json × Option (List Char)
  | 0, _, _ => ([.broken], none)
  | fuel + 1, room, cs =>
    match value fuel room cs with
    | (v, none) => ([v], none)
    | (v, some rest) =>
      match dropBlanks rest with
      | ',' :: cs => let (vs, rest) := items fuel room cs; (v :: vs, rest)
      | ']' :: cs => ([v], some cs)
      | _ => ([v, .broken], none)

/-- The members of an object from the first of them on; a break outside a value stands
under an empty name. -/
def members : Nat → Nat → List Char → Members × Option (List Char)
  | 0, _, _ => (⟨[("", .broken)], true⟩, none)
  | fuel + 1, room, cs =>
    match dropBlanks cs with
    | '"' :: cs =>
      match string? cs with
      | none => (⟨[("", .broken)], true⟩, none)
      | some (name, rest) =>
        let key := name.getD ""
        match dropBlanks rest with
        | ':' :: cs =>
          match value fuel room cs with
          | (v, none) => (⟨[(key, v)], name.isSome⟩, none)
          | (v, some rest) =>
            match dropBlanks rest with
            | ',' :: cs =>
              let (ms, rest) := members fuel room cs
              (⟨(key, v) :: ms.list, name.isSome && ms.named⟩, rest)
            | '}' :: cs => (⟨[(key, v)], name.isSome⟩, some cs)
            | _ => (⟨[(key, v), ("", .broken)], name.isSome⟩, none)
        | _ => (⟨[(key, .broken)], name.isSome⟩, none)
    | _ => (⟨[("", .broken)], true⟩, none)

end

/-- Reads a text. -/
def read (text : String) : Document :=
  let cs := text.toList
  match value (2 * cs.length + 4) maxDepth cs with
  | (v, some rest) => ⟨v, (dropBlanks rest).isEmpty⟩
  | (v, none) => ⟨v, false⟩

end HouseBoard.Json
