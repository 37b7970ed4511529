import Docking.Yaml.Token.Stream

/-! The tree of the one document of a YAML text, read from its tokens. Aliases refer to anchored
nodes by number. -/
namespace Docking.Yaml

inductive Node where
  | scalar (style : Style) (tag : Option String) (text : String)
  | aliasTo (anchor : Nat)
  | sequence (items : List Node)
  | mapping (entries : List (Node × Node))
  | anchored (anchor : Nat) (node : Node)

namespace Node

def absent : Node := scalar .plain none ""

mutual

/-- How many marks the node is made of: collections have a start and an end. -/
def weight : Node → Nat
  | scalar .. | aliasTo _ => 1
  | sequence items => 2 + weightOfItems items
  | mapping entries => 2 + weightOfEntries entries
  | anchored _ node => node.weight

def weightOfItems : List Node → Nat
  | [] => 0
  | item :: rest => item.weight + weightOfItems rest

def weightOfEntries : List (Node × Node) → Nat
  | [] => 0
  | (key, value) :: rest => key.weight + value.weight + weightOfEntries rest

end

mutual

def anchors : Node → List (Nat × Node)
  | scalar .. | aliasTo _ => []
  | sequence items => anchorsOfItems items
  | mapping entries => anchorsOfEntries entries
  | anchored anchor node => (anchor, node) :: node.anchors

def anchorsOfItems : List Node → List (Nat × Node)
  | [] => []
  | item :: rest => item.anchors ++ anchorsOfItems rest

def anchorsOfEntries : List (Node × Node) → List (Nat × Node)
  | [] => []
  | (key, value) :: rest => key.anchors ++ value.anchors ++ anchorsOfEntries rest

end

def bare : Node → Node
  | anchored _ node => node.bare
  | node => node

end Node

structure Reading where
  tokens : List Token
  /-- The number of each anchor name. A name given again gets the number that the next new name
  would have got. -/
  names : List (String × Nat) := []
  handles : List (String × String) := []

abbrev Read := StateT Reading Option

namespace Read

def peek : Read (Option Token) := do return (← get).tokens.head?

def skip : Read Unit := modify fun r => { r with tokens := r.tokens.drop 1 }

def sees (ts : List Token) : Read Bool := do return (← peek).any ts.contains

def pass (t : Token) : Read Bool := do
  if ← sees [t] then
    skip
    return true
  return false

def expect (t : Token) : Read Unit := do
  if !(← pass t) then failure

def anchorNumber (name : String) : Read Nat :=
  modifyGet fun r =>
    let number := r.names.length
    (number, { r with names := (name, number) :: r.names.filter fun n => n.1 ≠ name })

def aliasNumber (name : String) : Read Nat := do
  match (← get).names.find? fun n => n.1 = name with
  | some (_, number) => return number
  | none => failure

def fullTag (handle suffix : String) : Read String := do
  if handle.isEmpty then return suffix
  match (← get).handles.find? fun h => h.1 = handle with
  | some (_, start) => return start ++ suffix
  | none => failure

/-- An anchor and a tag in either order, each at most once. -/
def properties : Read (Option Nat × Option String) := do
  match ← peek with
  | some (.anchor name) =>
    skip
    let number ← anchorNumber name
    match ← peek with
    | some (.tag handle suffix) =>
      skip
      return (some number, some (← fullTag handle suffix))
    | _ => return (some number, none)
  | some (.tag handle suffix) =>
    skip
    let tag ← fullTag handle suffix
    match ← peek with
    | some (.anchor name) =>
      skip
      return (some (← anchorNumber name), some tag)
    | _ => return (none, some tag)
  | _ => return (none, none)

def withAnchor (anchor : Option Nat) (node : Node) : Node :=
  match anchor with
  | some number => .anchored number node
  | none => node

/-- Where a node may stand: inside flow collections, in block context, or as a value of a block
mapping, whose sequences need no indentation. -/
inductive Place where
  | flow
  | block
  | blockValue
  deriving DecidableEq

mutual

def node : Nat → Place → Read Node
  | 0, _ => failure
  | fuel + 1, place => do
    if let some (.aliasTo name) ← peek then
      skip
      return .aliasTo (← aliasNumber name)
    let (anchor, tag) ← properties
    let inBlock := place ≠ .flow
    match ← peek with
    | some .entry =>
      if place = .blockValue then
        return withAnchor anchor (.sequence (← looseItems fuel))
      else empty anchor tag
    | some (.scalar style text) =>
      skip
      return withAnchor anchor (.scalar style tag text)
    | some .flowSequence =>
      skip
      return withAnchor anchor (.sequence (← flowItems fuel true))
    | some .flowMapping =>
      skip
      return withAnchor anchor (.mapping (← flowEntries fuel true))
    | some .blockSequence =>
      if inBlock then
        skip
        return withAnchor anchor (.sequence (← blockItems fuel))
      else empty anchor tag
    | some .blockMapping =>
      if inBlock then
        skip
        return withAnchor anchor (.mapping (← blockEntries fuel))
      else empty anchor tag
    | _ => empty anchor tag
where
  /-- A node with properties alone is an empty scalar; nothing at all is no node. -/
  empty (anchor : Option Nat) (tag : Option String) : Read Node :=
    if anchor.isNone && tag.isNone then failure
    else return withAnchor anchor (.scalar .plain tag "")

def optional : Nat → Place → List Token → Read Node
  | 0, _, _ => failure
  | fuel + 1, place, ends => do
    if ← sees ends then return .absent
    node fuel place

def blockItems : Nat → Read (List Node)
  | 0 => failure
  | fuel + 1 => do
    if ← pass .entry then
      let item ← optional fuel .block [.entry, .blockEnd]
      return item :: (← blockItems fuel)
    expect .blockEnd
    return []

/-- Items at the indentation of the mapping around them. -/
def looseItems : Nat → Read (List Node)
  | 0 => failure
  | fuel + 1 => do
    if ← pass .entry then
      let item ← optional fuel .block [.entry, .key, .value, .blockEnd]
      return item :: (← looseItems fuel)
    return []

def blockEntries : Nat → Read (List (Node × Node))
  | 0 => failure
  | fuel + 1 => do
    if ← pass .key then
      let key ← optional fuel .blockValue [.key, .value, .blockEnd]
      let value ←
        if ← pass .value then optional fuel .blockValue [.key, .value, .blockEnd]
        else pure .absent
      return (key, value) :: (← blockEntries fuel)
    expect .blockEnd
    return []

def flowItems : Nat → Bool → Read (List Node)
  | 0, _ => failure
  | fuel + 1, first => do
    if ← pass .flowSequenceEnd then return []
    if !first then
      expect .comma
    if ← pass .flowSequenceEnd then return []
    if ← pass .key then
      let pair ← flowPair fuel
      return .mapping [pair] :: (← flowItems fuel false)
    let item ← node fuel .flow
    return item :: (← flowItems fuel false)

/-- A pair inside a flow sequence. Where its key is left out, the token there is passed over. -/
def flowPair : Nat → Read (Node × Node)
  | 0 => failure
  | fuel + 1 => do
    if ← sees [.value, .comma, .flowSequenceEnd] then
      skip
      return (.absent, ← flowValue fuel .flowSequenceEnd)
    let key ← node fuel .flow
    return (key, ← flowValue fuel .flowSequenceEnd)

def flowValue : Nat → Token → Read Node
  | 0, _ => failure
  | fuel + 1, closing => do
    if ← pass .value then optional fuel .flow [.comma, closing]
    else return .absent

def flowEntries : Nat → Bool → Read (List (Node × Node))
  | 0, _ => failure
  | fuel + 1, first => do
    if ← pass .flowMappingEnd then return []
    if !first then
      expect .comma
    if ← pass .flowMappingEnd then return []
    if ← pass .key then
      let key ← optional fuel .flow [.value, .comma, .flowMappingEnd]
      let value ← flowValue fuel .flowMappingEnd
      return (key, value) :: (← flowEntries fuel false)
    let key ← node fuel .flow
    return (key, .absent) :: (← flowEntries fuel false)

end

/-- Directives in front of a document, the version and each handle at most once. Tells whether there
were any. -/
def directives : Nat → Bool → Bool → Read Bool
  | 0, _, found => return found
  | fuel + 1, versioned, found => do
    match ← peek with
    | some (.version major minor) =>
      skip
      if versioned || major ≠ 1 || minor ≠ 1 && minor ≠ 2 then failure
      directives fuel true true
    | some (.tagHandle handle start) =>
      skip
      if (← get).handles.any fun h => h.1 = handle then failure
      modify fun r => { r with handles := r.handles ++ [(handle, start)] }
      directives fuel versioned true
    | _ => return found

def addUsualHandles : Read Unit :=
  modify fun r => { r with handles := r.handles ++ [("!", "!"), ("!!", "tag:yaml.org,2002:")] }

/-- A document with directives needs its start to be marked. -/
def document (fuel : Nat) : Read Node := do
  let found ← directives fuel false false
  addUsualHandles
  if ← pass .documentStart then
    match ← peek with
    | none | some (.version ..) | some (.tagHandle ..) | some .documentStart | some .documentEnd =>
      return .absent
    | _ => node fuel .block
  else if found then failure
  else node fuel .block

end Read

structure Document where
  root : Option Node

/-- Marks of the end may follow the document, another document may not. -/
def Document.ofTokens? (tokens : List Token) : Option Document :=
  if tokens.isEmpty then some ⟨none⟩
  else do
    let (root, rest) ← (Read.document (4 * tokens.length + 8)).run { tokens := tokens }
    if rest.tokens.all fun t => t = .documentEnd then some ⟨some root⟩ else none

def Document.ofText? (text : String) : Option Document := (tokens? text).bind Document.ofTokens?

structure Anchors where
  /-- The anchored nodes with their numbers, the last one first. -/
  nodes : List (Nat × Node)
  /-- How often aliases may be followed. -/
  limit : Nat

/-- Of several nodes with one number the last one counts. -/
def Anchors.node? (a : Anchors) (number : Nat) : Option Node :=
  (a.nodes.find? fun n => n.1 = number).map Prod.snd

def Node.anchorsBelow (root : Node) : Anchors := ⟨root.anchors.reverse, 100 * root.weight⟩

end Docking.Yaml
