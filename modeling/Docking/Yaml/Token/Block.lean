import Docking.Yaml.Basic

/-! Block scalars: indented lines kept as they are or folded, with a rule for the line breaks at
the end. -/
namespace Docking.Yaml

inductive Chomp where
  | strip
  | clip
  | keep
  deriving DecidableEq, Repr

/-- The part of a block scalar on its first line; an indentation of zero is found out from the
lines. -/
structure BlockHeader where
  chomp : Chomp := .clip
  indent : Nat := 0

def chompOf? : Char → Option Chomp
  | '-' => some .strip
  | '+' => some .keep
  | _ => none

def indentOf? (c : Char) : Option Nat :=
  if '1' ≤ c && c ≤ '9' then some (c.toNat - '0'.toNat) else none

def readSigns (c : Cursor) : Option (BlockHeader × Cursor) :=
  match c.rest with
  | a :: rest =>
    match chompOf? a with
    | some chomp =>
      match rest.head? with
      | some b =>
        if b.isDigit then (indentOf? b).map fun indent => (⟨chomp, indent⟩, c.advance 2)
        else some (⟨chomp, 0⟩, c.advance 1)
      | none => some (⟨chomp, 0⟩, c.advance 1)
    | none =>
      if a.isDigit then do
        let indent ← indentOf? a
        match rest.head?.bind chompOf? with
        | some chomp => some (⟨chomp, indent⟩, c.advance 2)
        | none => some (⟨.clip, indent⟩, c.advance 1)
      else some ({}, c)
  | [] => some ({}, c)

def skipComment (c : Cursor) : Cursor :=
  let c := c.skipWhile isBlank
  if c.peek? = some '#' then c.skipWhile fun b => !isBreak b else c

/-- Empty lines and the indentation of the next line, with the widest indentation met. A tab may
not stand where indentation is expected. -/
def readIndent (indent : Nat) : Nat → Nat → Cursor → Option (Nat × List Char × Cursor)
  | 0, widest, c => some (widest, [], c)
  | fuel + 1, widest, c =>
    let spaces := (c.rest.takeWhile fun b => b = ' ').length
    let c := c.advance (if indent = 0 then spaces else min spaces (indent - c.column))
    let widest := max widest c.column
    if (indent = 0 || c.column < indent) && c.peek? = some '\t' then none
    else
      match c.takeBreak? with
      | none => some (widest, [], c)
      | some (b, c) => do
        let (widest, breaks, c) ← readIndent indent fuel widest c
        return (widest, b :: breaks, c)

structure BlockBody where
  text : List Char
  last : Option Char
  empty : List Char
  after : Cursor

/-- Lines of one indentation. Folding joins two lines by a space unless one of them begins with a
blank or empty lines lie between them. -/
def readLines (literal : Bool) (indent : Nat) :
    Nat → Option Char → List Char → Bool → Cursor → Option BlockBody
  | 0, last, empty, _, c => some ⟨[], last, empty, c⟩
  | fuel + 1, last, empty, afterBlank, c =>
    if c.column ≠ indent || c.rest.isEmpty then some ⟨[], last, empty, c⟩
    else do
      let blank := c.peek?.any isBlank
      let joint :=
        if !literal && last = some '\n' && !afterBlank && !blank then
          if empty.isEmpty then [' '] else []
        else last.toList
      let line := c.rest.takeWhile fun b => !isBreak b
      let c := c.advance line.length
      let (last, c) :=
        match c.takeBreak? with
        | some (b, c) => (some b, c)
        | none => (none, c)
      let (_, lines, c) ← readIndent indent c.size 0 c
      let body ← readLines literal indent fuel last lines blank c
      return { body with text := joint ++ empty ++ line ++ body.text }

def readBlock (literal : Bool) (parent : Nat) (c : Cursor) : Option (List Char × Cursor) := do
  let (header, c) ← readSigns (c.advance 1)
  let c := skipComment c
  if !c.rest.isEmpty && !c.peek?.any isBreak then none
  else
    let c := (c.takeBreak?.map Prod.snd).getD c
    let written := if header.indent = 0 then 0 else (parent - 1) + header.indent
    let (widest, empty, c) ← readIndent written (c.size + 1) 0 c
    let indent := if written = 0 then max widest (max parent 1) else written
    let body ← readLines literal indent (c.size + 1) none empty false c
    let ending :=
      match header.chomp with
      | .strip => []
      | .clip => body.last.toList
      | .keep => body.last.toList ++ body.empty
    return (body.text ++ ending, body.after)

end Docking.Yaml
