import Docking.Yaml.Core
import Docking.Yaml.Node

/-! Reading values out of a YAML document. Aliases stand for their nodes, and following them too
often is an error. -/
namespace Docking.Yaml

/-- A reading counts the aliases it follows. -/
abbrev Decode := ReaderT Anchors (StateT Nat Option)

namespace Decode

def follow (number : Nat) : Decode Node := do
  let anchors ← read
  let followed ← modifyGet fun n => (n + 1, n + 1)
  if anchors.limit < followed then failure
  else
    match anchors.node? number with
    | some node => return node.bare
    | none => failure

def resolve (n : Node) : Decode Node :=
  match n.bare with
  | .aliasTo number => follow number
  | node => return node

/-- Any scalar is a text, whatever its style and tag. -/
def text (n : Node) : Decode String := do
  match ← resolve n with
  | .scalar _ _ text => return text
  | _ => failure

/-- A scalar read by the rules of a core type: a plain one, or a literal block with its tag. -/
def core {α : Type} (tag : String) (read? : String → Option α) (n : Node) : Decode α := do
  match ← resolve n with
  | .scalar .plain _ text => (read? text).getDM failure
  | .scalar .literal (some t) text => if t = tag then (read? text).getDM failure else failure
  | _ => failure

def bool (n : Node) : Decode Bool := core (Core.tag "bool") Core.bool? n

def int32 (n : Node) : Decode Int := core (Core.tag "int") Core.int32? n

def pixels (n : Node) : Decode Size := do
  return (← core (Core.tag "float") Core.float? n).convert .single

/-- An empty plain scalar is an empty list. -/
def items (n : Node) : Decode (List Node) := do
  match ← resolve n with
  | .sequence items => return items
  | .scalar .plain _ "" => return []
  | _ => failure

def list {α : Type} (read : Node → Decode α) (n : Node) : Decode (List α) := do
  (← items n).mapM read

def fields (n : Node) : Decode (List (String × Node)) := do
  match ← resolve n with
  | .mapping entries => entries.mapM fun (key, value) => return (← text key, value)
  | .scalar .plain _ "" => return []
  | _ => failure

/-- A field given twice is an error; a field that is not asked for may be anything. -/
def field? {α : Type} (key : String) (read : Node → Decode α) (fields : List (String × Node)) :
    Decode (Option α) :=
  match fields.filter fun f => f.1 = key with
  | [] => return none
  | [(_, value)] => return some (← read value)
  | _ => failure

/-- The words for nothing and an empty plain scalar give none. With the tag of nothing only the
words do, with any other tag no scalar does. -/
def optional {α : Type} (read : Node → Decode α) (n : Node) : Decode (Option α) := do
  match ← resolve n with
  | .scalar .plain tag text =>
    let node : Node := .scalar .plain tag text
    match tag with
    | some t =>
      if t = Core.tag "null" then if Core.isNull text then return none else failure
      else return some (← read node)
    | none => if text.isEmpty || Core.isNull text then return none else return some (← read node)
  | node => return some (← read node)

def optionalField {α : Type} (key : String) (read : Node → Decode α)
    (fields : List (String × Node)) : Decode (Option α) := do
  return (← field? key (optional read) fields).join

end Decode

def decode? {α : Type} (nothing : α) (read : Node → Decode α) (text : String) : Option α := do
  let d ← Document.ofText? text
  match d.root with
  | none => return nothing
  | some root => return (← (read root root.anchorsBelow).run 0).1

end Docking.Yaml
