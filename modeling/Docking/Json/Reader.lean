import Docking.Json.Scalar

/-! JSON values and reading them from texts, strictly: no trailing text, no comma without a value
behind it, and at most 127 arrays and objects inside one another. Members keep the order and the
repetitions of the text. -/
namespace Docking

inductive Json where
  | null
  | bool (value : Bool)
  | number (value : Wide)
  | string (value : String)
  | array (items : List Json)
  | object (members : List (String × Json))

namespace Json

/-- A repeated key stands for its last value. -/
def member? (key : String) : Json → Option Json
  | object members => (members.reverse.find? fun m => m.1 == key).map Prod.snd
  | _ => none

def bool? : Json → Option Bool
  | bool value => some value
  | _ => none

def number? : Json → Option Wide
  | number value => some value
  | _ => none

def string? : Json → Option String
  | string value => some value
  | _ => none

def array? : Json → Option (List Json)
  | array items => some items
  | _ => none

def isBlank (c : Char) : Bool := c = ' ' || c = '\t' || c = '\n' || c = '\r'

def skipBlanks (cs : List Char) : List Char := cs.dropWhile isBlank

def takeWord (word cs : List Char) : Option (List Char) :=
  if word.isPrefixOf cs then some (cs.drop word.length) else none

mutual

/-- A value, with blanks allowed in front. `depth` counts the arrays and objects that may still be
opened, `fuel` bounds the characters. -/
def readValue : Nat → Nat → List Char → Option (Json × List Char)
  | 0, _, _ => none
  | fuel + 1, depth, cs =>
    match skipBlanks cs with
    | '"' :: rest => (readString rest).map fun (s, rest) => (.string s, rest)
    | '[' :: rest =>
      match depth with
      | 0 => none
      | depth + 1 =>
        match skipBlanks rest with
        | ']' :: rest => some (.array [], rest)
        | rest => (readItems fuel depth rest).map fun (items, rest) => (.array items, rest)
    | '\x7b' :: rest =>
      match depth with
      | 0 => none
      | depth + 1 =>
        match skipBlanks rest with
        | '\x7d' :: rest => some (.object [], rest)
        | rest => (readMembers fuel depth rest).map fun (members, rest) => (.object members, rest)
    | 't' :: rest => (takeWord ['r', 'u', 'e'] rest).map (.bool true, ·)
    | 'f' :: rest => (takeWord ['a', 'l', 's', 'e'] rest).map (.bool false, ·)
    | 'n' :: rest => (takeWord ['u', 'l', 'l'] rest).map (.null, ·)
    | rest => (readNumber rest).map fun (x, rest) => (.number x, rest)

def readItems : Nat → Nat → List Char → Option (List Json × List Char)
  | 0, _, _ => none
  | fuel + 1, depth, cs => do
    let (item, rest) ← readValue fuel depth cs
    match skipBlanks rest with
    | ',' :: rest =>
      let (items, rest) ← readItems fuel depth rest
      return (item :: items, rest)
    | ']' :: rest => return ([item], rest)
    | _ => none

def readMembers : Nat → Nat → List Char → Option (List (String × Json) × List Char)
  | 0, _, _ => none
  | fuel + 1, depth, cs =>
    match skipBlanks cs with
    | '"' :: rest => do
      let (key, rest) ← readString rest
      match skipBlanks rest with
      | ':' :: rest =>
        let (value, rest) ← readValue fuel depth rest
        match skipBlanks rest with
        | ',' :: rest =>
          let (members, rest) ← readMembers fuel depth rest
          return ((key, value) :: members, rest)
        | '\x7d' :: rest => return ([(key, value)], rest)
        | _ => none
      | _ => none
    | _ => none

end

def depthLimit : Nat := 127

def ofText? (text : String) : Option Json :=
  let cs := text.toList
  match readValue (2 * cs.length + 1) depthLimit cs with
  | some (value, rest) => if (skipBlanks rest).isEmpty then some value else none
  | none => none

end Json

end Docking
