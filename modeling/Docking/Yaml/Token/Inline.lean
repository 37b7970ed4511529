import Docking.Text
import Docking.Yaml.Basic

/-! Plain and quoted scalars, over one line or several: their words, and the text that the blanks
and line breaks between these stand for. Between single quotes a doubled quote is the only escape;
between double quotes a backslash begins one, also before a line break. -/
namespace Docking.Yaml

/-- Blanks count only while no line break was met. -/
structure Gap where
  /-- The last one first. -/
  blanks : List Char := []
  broken : Bool := false
  /-- The first line break, unless it was escaped. -/
  first : Option Char := none
  /-- The line breaks behind the first one, the last one first. -/
  more : List Char := []

namespace Gap

/-- A single line feed becomes a space; of several the first one vanishes. -/
def text (g : Gap) : List Char :=
  if g.broken then
    let more := g.more.reverse
    match g.first with
    | none => more
    | some c => if c = '\n' then if more.isEmpty then [' '] else more else c :: more
  else g.blanks.reverse

def withBreak (g : Gap) (c : Char) : Gap :=
  if g.broken then { g with more := c :: g.more } else { broken := true, first := some c }

def withBlank (g : Gap) (c : Char) : Gap :=
  if g.broken then g else { g with blanks := c :: g.blanks }

/-- Reads on from a gap. A tab left of the limit on a later line is refused. -/
def extend (limit : Nat) : Nat → Gap → Cursor → Option (Gap × Cursor)
  | 0, g, c => some (g, c)
  | fuel + 1, g, c =>
    match c.takeBreak? with
    | some (b, after) => extend limit fuel (g.withBreak b) after
    | none =>
      match c.peek? with
      | some b =>
        if isBlank b then
          if g.broken && b = '\t' && c.column < limit then none
          else extend limit fuel (g.withBlank b) (c.advance 1)
        else some (g, c)
      | none => some (g, c)

def read (limit : Nat) (g : Gap) (c : Cursor) : Option (Gap × Cursor) :=
  extend limit c.size g c

end Gap

def isFlowIndicator (c : Char) : Bool := c = ',' || c = '[' || c = ']' || c = '\x7b' || c = '\x7d'

/-- The characters up to the end of a word. A colon ends it before a blank; inside flow collections
so do their indicators, and a colon right before one is refused. -/
def plainWord (flow : Bool) : List Char → Option (List Char)
  | [] => some []
  | c :: rest =>
    if isBlank c || isBreak c then some []
    else if flow && c = ':' && rest.head?.any fun d => isFlowIndicator d || d = '?' then none
    else if c = ':' && endsWord rest.head? then some []
    else if flow && isFlowIndicator c then some []
    else (plainWord flow rest).map (c :: ·)

structure PlainScalar where
  text : List Char
  broken : Bool
  after : Cursor

/-- Words and the gaps between them. The scalar ends at a comment, at a document mark, and in block
context at a line left of the limit. The gap behind the last word is dropped. -/
def readPlainFrom (flow : Bool) (limit : Nat) : Nat → Gap → Cursor → Option PlainScalar
  | 0, gap, c => some ⟨[], gap.broken, c⟩
  | fuel + 1, gap, c =>
    if c.atDocumentMark || c.peek? = some '#' then some ⟨[], gap.broken, c⟩
    else do
      let word ← plainWord flow c.rest
      if word.isEmpty then some ⟨[], gap.broken, c⟩
      else
        let text := gap.text ++ word
        let c := c.advance word.length
        if c.rest.isEmpty || !endsWord c.peek? then some ⟨text, false, c⟩
        else
          let (gap, c) ← Gap.read limit {} c
          if !flow && c.column < limit then some ⟨text, gap.broken, c⟩
          else (readPlainFrom flow limit fuel gap c).map fun s => { s with text := text ++ s.text }

def readPlain (flow : Bool) (limit : Nat) (c : Cursor) : Option PlainScalar :=
  readPlainFrom flow limit c.size {} c

def charOfCode? (n : Nat) : Option Char := if n.isValidChar then some (Char.ofNat n) else none

def letterEscape? : Char → Option Char
  | '0' => some '\x00'
  | 'a' => some '\x07'
  | 'b' => some '\x08'
  | 't' | '\t' => some '\t'
  | 'n' => some '\n'
  | 'v' => some '\x0b'
  | 'f' => some '\x0c'
  | 'r' => some '\r'
  | 'e' => some '\x1b'
  | ' ' => some ' '
  | '"' => some '"'
  | '/' => some '/'
  | '\\' => some '\\'
  | 'N' => some '\u0085'
  | '_' => some '\u00a0'
  | 'L' => some '\u2028'
  | 'P' => some '\u2029'
  | _ => none

def codeLength? : Char → Option Nat
  | 'x' => some 2
  | 'u' => some 4
  | 'U' => some 8
  | _ => none

def readEscape (c : Cursor) : Option (Char × Cursor) := do
  let letter ← c.peek?
  match codeLength? letter with
  | some n =>
    let digits := (c.rest.drop 1).take n
    if digits.length < n then none
    else
      let char ← (Hex.number? digits).bind charOfCode?
      return (char, c.advance (n + 1))
  | none => return (← letterEscape? letter, c.advance 1)

structure QuotedRun where
  text : List Char
  escapedBreak : Bool
  after : Cursor

def readRun (double : Bool) : Nat → Cursor → Option QuotedRun
  | 0, c => some ⟨[], false, c⟩
  | fuel + 1, c =>
    let further (char : Char) (after : Cursor) : Option QuotedRun :=
      (readRun double fuel after).map fun r => { r with text := char :: r.text }
    match c.rest with
    | [] => some ⟨[], false, c⟩
    | char :: rest =>
      if isBlank char || isBreak char then some ⟨[], false, c⟩
      else if double then
        if char = '"' then some ⟨[], false, c⟩
        else if char = '\\' then
          match (c.advance 1).takeBreak? with
          | some (_, after) => some ⟨[], true, after⟩
          | none => do
            let (char, after) ← readEscape (c.advance 1)
            further char after
        else further char (c.advance 1)
      else if char = '\'' then
        if rest.head? = some '\'' then further '\'' (c.advance 2) else some ⟨[], false, c⟩
      else further char (c.advance 1)

def readQuotedFrom (double : Bool) : Nat → Cursor → Option (List Char × Cursor)
  | 0, _ => none
  | fuel + 1, c =>
    if c.atDocumentMark || c.rest.isEmpty then none
    else do
      let run ← readRun double c.size c
      if run.after.peek? = some (if double then '"' else '\'') then
        return (run.text, run.after.advance 1)
      else
        let (gap, c) ← Gap.read 0 { broken := run.escapedBreak } run.after
        let (text, after) ← readQuotedFrom double fuel c
        return (run.text ++ gap.text ++ text, after)

def readQuoted (double : Bool) (c : Cursor) : Option (List Char × Cursor) :=
  readQuotedFrom double (c.size + 1) (c.advance 1)

end Docking.Yaml
