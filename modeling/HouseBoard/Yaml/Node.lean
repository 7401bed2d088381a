/-
HouseBoard.Yaml.Node — the document of a YAML text.

A node is a scalar, a sequence, a mapping, or an alias, which stands for the node that last took
the number of the alias's anchor.  Reading goes through the lexemes by the grammar of the
language: block collections, the sequences in mappings that need no further indentation, flow
collections, and the empty scalars that stand where nothing is written.
-/
import HouseBoard.Yaml.Tokens

namespace HouseBoard.Yaml

/-! ## Nodes -/

/-- A node. -/
inductive Node where
  | scalar (text : String) (style : ScalarStyle) (tag : Option String)
  | sequence (items : List Node)
  | mapping (entries : List (Node × Node))
  | alias (number : Nat)
  deriving Inhabited

/-- A document: its root, none when the text holds nothing, and the nodes that
aliases stand for. -/
structure Document where
  root : Option Node
  anchored : List (Nat × Node)

/-- The node that a node stands for. -/
def Document.resolve (d : Document) : Node → Node
  | .alias number => (d.anchored.lookup number).getD (.alias number)
  | n => n

/-! ## The state of reading -/

/-- What is still to be read, and the anchors so far. -/
structure Reading where
  tokens : List Token
  /-- What each handle stands for. -/
  handles : List (String × String) := []
  /-- The number that each anchor took last. -/
  numbers : List (String × Nat) := []
  /-- How many anchored nodes have begun. -/
  begun : Nat := 0
  /-- For each number, which anchored node took it last. -/
  holders : List (Nat × Nat) := []
  /-- The anchored nodes that are complete. -/
  finished : List (Nat × Node) := []

/-- A step of reading. -/
abbrev Read := StateT Reading Option

namespace Read

/-- The next lexeme. -/
def peek : Read Token := do return (← get).tokens.headD .streamEnd

/-- Passes over the next lexeme. -/
def skip : Read Unit := modify fun r => { r with tokens := r.tokens.tail }

/-- Gives up. -/
def fault {α : Type} : Read α := fun _ => none

/-- An entry with its key replaced, or a new one in front. -/
def assign {α β : Type} [BEq α] (a : α) (b : β) (entries : List (α × β)) : List (α × β) :=
  (a, b) :: entries.filter fun e => !(e.1 == a)

/-! ## Anchors and aliases -/

/-- Notes that an anchored node begins: it takes the count of distinct anchors for
its number. -/
def begin? (anchor : Option String) : Read (Option Nat) := do
  match anchor with
  | none => return none
  | some name =>
    let r ← get
    let number := r.numbers.length
    set { r with
      numbers := assign name number r.numbers
      begun := r.begun + 1
      holders := assign number r.begun r.holders }
    return some r.begun

/-- Keeps a node that is complete. -/
def finish (started : Option Nat) (n : Node) : Read Node := do
  if let some i := started then modify fun r => { r with finished := (i, n) :: r.finished }
  return n

/-- The alias of an anchor, which must have been seen. -/
def refer (name : String) : Read Node := do
  match (← get).numbers.lookup name with
  | some number => return .alias number
  | none => fault

/-! ## Properties of nodes -/

/-- The tag that a handle and a suffix make up. -/
def tagOf (handle suffix : String) : Read String := do
  if handle = "" then return suffix
  match (← get).handles.lookup handle with
  | some replacement => return replacement ++ suffix
  | none => fault

/-- The anchor and the tag in front of a node, in either order. -/
def properties : Read (Option String × Option String) := do
  match ← peek with
  | .anchor name =>
    skip
    match ← peek with
    | .tag handle suffix => skip; return (some name, some (← tagOf handle suffix))
    | _ => return (some name, none)
  | .tag handle suffix =>
    skip
    match ← peek with
    | .anchor name => skip; return (some name, some (← tagOf handle suffix))
    | _ => return (none, some (← tagOf handle suffix))
  | _ => return (none, none)

/-- The scalar that stands where nothing is written. -/
def emptyScalar : Node := .scalar "" .plain none

/-- What comes next when nothing is written: one of the given lexemes. -/
def isNext (ends : List Token) : Read Bool := do return ends.contains (← peek)

/-! ## Nodes -/

mutual

/-- A node.  A block collection may begin only where `inBlock`, a sequence without indentation
only where `bare`. -/
def node (inBlock bare : Bool) : Nat → Read Node
  | 0 => fault
  | fuel + 1 => do
    if let .alias name ← peek then
      skip
      return ← refer name
    let (anchor, tag) ← properties
    match ← peek, inBlock, bare with
    | .blockEntry, _, true =>
      let started ← begin? anchor
      finish started (.sequence (← bareItems fuel))
    | .scalar text style, _, _ =>
      skip
      let started ← begin? anchor
      finish started (.scalar text style (tag.filter (· ≠ "!")))
    | .flowSequenceStart, _, _ =>
      skip
      let started ← begin? anchor
      finish started (.sequence (← flowItems fuel true))
    | .flowMappingStart, _, _ =>
      skip
      let started ← begin? anchor
      finish started (.mapping (← flowEntries fuel true))
    | .blockSequenceStart, true, _ =>
      skip
      let started ← begin? anchor
      finish started (.sequence (← blockItems fuel))
    | .blockMappingStart, true, _ =>
      skip
      let started ← begin? anchor
      finish started (.mapping (← blockEntries fuel))
    | _, _, _ =>
      if anchor.isNone && tag.isNone then fault
      let started ← begin? anchor
      finish started (.scalar "" .plain tag)

/-- A node, or the empty scalar before one of the given lexemes. -/
def nodeBefore (inBlock bare : Bool) (ends : List Token) : Nat → Read Node
  | 0 => fault
  | fuel + 1 => do if ← isNext ends then return emptyScalar else node inBlock bare fuel

/-- The items of a block sequence. -/
def blockItems : Nat → Read (List Node)
  | 0 => fault
  | fuel + 1 => do
    match ← peek with
    | .blockEntry =>
      skip
      let item ← nodeBefore true false [.blockEntry, .blockEnd] fuel
      return item :: (← blockItems fuel)
    | .blockEnd => skip; return []
    | _ => fault

/-- The items of a sequence that is not indented. -/
def bareItems : Nat → Read (List Node)
  | 0 => fault
  | fuel + 1 => do
    match ← peek with
    | .blockEntry =>
      skip
      let item ← nodeBefore true false [.blockEntry, .key, .value, .blockEnd] fuel
      return item :: (← bareItems fuel)
    | _ => return []

/-- The entries of a block mapping. -/
def blockEntries : Nat → Read (List (Node × Node))
  | 0 => fault
  | fuel + 1 => do
    match ← peek with
    | .key =>
      skip
      let k ← nodeBefore true true [.key, .value, .blockEnd] fuel
      let v ← if ← isNext [.value] then do
          skip
          nodeBefore true true [.key, .value, .blockEnd] fuel
        else pure emptyScalar
      return (k, v) :: (← blockEntries fuel)
    | .blockEnd => skip; return []
    | _ => fault

/-- The items of a flow sequence; an item that is a key with its value makes a
mapping of one entry. -/
def flowItems : Nat → Bool → Read (List Node)
  | 0, _ => fault
  | fuel + 1, isFirst => do
    if ← isNext [.flowSequenceEnd] then skip; return []
    if !isFirst then
      if ← isNext [.flowEntry] then skip else fault
    match ← peek with
    | .key =>
      skip
      let entry ← flowPair fuel
      return .mapping [entry] :: (← flowItems fuel false)
    | .flowSequenceEnd => skip; return []
    | _ =>
      let item ← node false false fuel
      return item :: (← flowItems fuel false)

/-- The only entry of a mapping inside a flow sequence.  What stands where the key should
be is passed over. -/
def flowPair : Nat → Read (Node × Node)
  | 0 => fault
  | fuel + 1 => do
    let k ← if ← isNext [.value, .flowEntry, .flowSequenceEnd] then do skip; pure emptyScalar
      else node false false fuel
    let v ← if ← isNext [.value] then do
        skip
        nodeBefore false false [.flowEntry, .flowSequenceEnd] fuel
      else pure emptyScalar
    return (k, v)

/-- The entries of a flow mapping. -/
def flowEntries : Nat → Bool → Read (List (Node × Node))
  | 0, _ => fault
  | fuel + 1, isFirst => do
    if ← isNext [.flowMappingEnd] then skip; return []
    if !isFirst then
      if ← isNext [.flowEntry] then skip else fault
    match ← peek with
    | .key =>
      skip
      let k ← nodeBefore false false [.value, .flowEntry, .flowMappingEnd] fuel
      let v ← if ← isNext [.value] then do
          skip
          nodeBefore false false [.flowEntry, .flowMappingEnd] fuel
        else pure emptyScalar
      return (k, v) :: (← flowEntries fuel false)
    | .flowMappingEnd => skip; return []
    | _ =>
      let k ← node false false fuel
      return (k, emptyScalar) :: (← flowEntries fuel false)

end

/-! ## Documents -/

/-- Reads the directives of a document.  The version is 1.1 or 1.2, given once, and each
handle is given once. -/
def directives : Nat → Bool → Read Unit
  | 0, _ => fault
  | fuel + 1, versioned => do
    match ← peek with
    | .version major minor =>
      if versioned || major ≠ 1 || (minor ≠ 1 && minor ≠ 2) then fault
      skip
      directives fuel true
    | .tagDirective handle replacement =>
      let r ← get
      if (r.handles.lookup handle).isSome then fault
      set { r with handles := (handle, replacement) :: r.handles, tokens := r.tokens.tail }
      directives fuel versioned
    | _ => return

/-- The handles that every document has unless it gives them another meaning. -/
def standardHandles : List (String × String) := [("!", "!"), ("!!", "tag:yaml.org,2002:")]

/-- Passes over the marks that end a document. -/
def documentEnds : Nat → Read Unit
  | 0 => fault
  | fuel + 1 => do if ← isNext [.documentEnd] then skip; documentEnds fuel

/-- The root of the only document. -/
def root (fuel : Nat) : Read (Option Node) := do
  match ← peek with
  | .streamEnd => return none
  | .version .. | .tagDirective .. | .documentStart =>
    directives fuel false
    if !(← isNext [.documentStart]) then fault
    skip
    modify fun r => { r with handles := r.handles ++ standardHandles }
    match ← peek with
    | .version .. | .tagDirective .. | .documentStart | .documentEnd | .streamEnd =>
      return some emptyScalar
    | _ => return some (← node true false fuel)
  | _ =>
    modify fun r => { r with handles := standardHandles }
    return some (← node true false fuel)

/-- The document that makes up the whole text. -/
def document (fuel : Nat) : Read Document := do
  let root ← root fuel
  documentEnds fuel
  if !(← isNext [.streamEnd]) then fault
  let r ← get
  let anchored := r.holders.filterMap fun (number, i) => (r.finished.lookup i).map (number, ·)
  return { root, anchored }

end Read

/-- The document made of lexemes. -/
def Document.ofTokens? (tokens : List Token) : Option Document :=
  ((Read.document (4 * tokens.length + 16)).run { tokens }).map (·.1)

/-- The only document of a text; none if the text is at fault. -/
def Document.read? (text : String) : Option Document := do
  Document.ofTokens? (← Token.ofText? text)

end HouseBoard.Yaml
