import Docking.Yaml.Token.Inline
import Docking.Yaml.Token.Property

/-! From a YAML text to its tokens. Block collections show by indentation, and a key is known for
one only when the colon behind it is met. -/
namespace Docking.Yaml

structure Candidate where
  /-- How many tokens came before it. -/
  position : Nat
  /-- It stands where nothing but a key may stand. -/
  required : Bool
  index : Nat
  line : Nat
  column : Nat

/-- A key fits on one line and in this many bytes. -/
def keyLimit : Nat := 1024

def Candidate.stale (k : Candidate) (c : Cursor) : Bool :=
  k.line < c.line || k.index + keyLimit < c.index

structure Scanner where
  cursor : Cursor
  /-- The tokens so far, the last one first. -/
  tokens : List Token := []
  count : Nat := 0
  /-- The columns of the open block collections, the innermost first. -/
  blocks : List Nat := []
  candidate : Option Candidate := none
  /-- The candidates outside of each open flow collection, the innermost first. -/
  outer : List (Option Candidate) := []
  keyAllowed : Bool := true

namespace Scanner

def inFlow (s : Scanner) : Bool := !s.outer.isEmpty

def push (s : Scanner) (t : Token) : Scanner :=
  { s with tokens := t :: s.tokens, count := s.count + 1 }

/-- Puts tokens, the last one first, behind the first `position` tokens. -/
def insert (s : Scanner) (position : Nat) (ts : List Token) : Scanner :=
  let later := s.count - position
  { s with
    tokens := s.tokens.take later ++ ts ++ s.tokens.drop later
    count := s.count + ts.length }

def move (s : Scanner) (c : Cursor) : Scanner := { s with cursor := c }

def allowKey (s : Scanner) (allowed : Bool) : Scanner := { s with keyAllowed := allowed }

def take (s : Scanner) (width : Nat) (t : Token) : Scanner :=
  (s.push t).move (s.cursor.advance width)

/-- Gives up the candidate, which must not be a required key. -/
def dropCandidate (s : Scanner) : Option Scanner :=
  if s.candidate.any Candidate.required then none else some { s with candidate := none }

/-- Gives up the candidate when its time is over. Those outside of a flow collection have to wait
until it ends. -/
def dropStale (s : Scanner) : Option Scanner :=
  if s.candidate.any fun k => k.stale s.cursor then s.dropCandidate else some s

def saveCandidate (s : Scanner) : Option Scanner :=
  if s.keyAllowed then do
    let s ← s.dropCandidate
    let c := s.cursor
    let required := !s.inFlow && s.blocks.head? = some c.column
    return { s with candidate := some ⟨s.count, required, c.index, c.line, c.column⟩ }
  else some s

def opensBlock (s : Scanner) (column : Nat) : Bool :=
  !s.inFlow && s.blocks.head?.all fun b => b < column

/-- Opens a block collection at the cursor unless one is open at its column. -/
def openBlock (s : Scanner) (t : Token) : Scanner :=
  if s.opensBlock s.cursor.column then
    { s.push t with blocks := s.cursor.column :: s.blocks }
  else s

def closeBlocks (s : Scanner) (p : Nat → Bool) : Scanner :=
  if s.inFlow then s
  else
    let closed := s.blocks.takeWhile p
    { s with
      tokens := List.replicate closed.length .blockEnd ++ s.tokens
      count := s.count + closed.length
      blocks := s.blocks.dropWhile p }

/-- Passes blanks, comments and line breaks. A tab counts as a blank where no key can begin, and
outside of flow collections a key may begin after a line break. -/
def skipBlanks : Nat → Scanner → Scanner
  | 0, s => s
  | fuel + 1, s =>
    let tabs := s.inFlow || !s.keyAllowed
    let c := s.cursor.skipOrderMark.skipWhile fun b => b = ' ' || tabs && b = '\t'
    let c := if c.peek? = some '#' then c.skipWhile fun b => !isBreak b else c
    match c.takeBreak? with
    | some (_, c) => skipBlanks fuel { s with cursor := c, keyAllowed := s.keyAllowed || !s.inFlow }
    | none => s.move c

def endDocument (s : Scanner) : Option Scanner :=
  ((s.closeBlocks fun _ => true).dropCandidate).map (allowKey · false)

def flowStart (s : Scanner) (t : Token) : Option Scanner := do
  let s ← s.saveCandidate
  return ({ s with outer := s.candidate :: s.outer, candidate := none }.allowKey true).take 1 t

def flowEnd (s : Scanner) (t : Token) : Option Scanner := do
  let s ← s.dropCandidate
  let s := match s.outer with
    | k :: outer => { s with candidate := k, outer := outer }
    | [] => s
  return (s.allowKey false).take 1 t

def entry (s : Scanner) : Option Scanner :=
  if !s.inFlow && !s.keyAllowed then none
  else do
    let s ← (s.openBlock .blockSequence).dropCandidate
    return (s.allowKey true).take 1 .entry

def explicitKey (s : Scanner) : Option Scanner :=
  if !s.inFlow && !s.keyAllowed then none
  else do
    let s ← (s.openBlock .blockMapping).dropCandidate
    return (s.allowKey (!s.inFlow)).take 1 .key

/-- A colon makes a key of the candidate, in a new block mapping if its column asks for one. -/
def value (s : Scanner) : Option Scanner :=
  match s.candidate with
  | some k =>
    let s :=
      if s.opensBlock k.column then
        { s.insert k.position [.key, .blockMapping] with blocks := k.column :: s.blocks }
      else s.insert k.position [.key]
    some (({ s with candidate := none }.allowKey false).take 1 .value)
  | none =>
    if !s.inFlow && !s.keyAllowed then none
    else some (((s.openBlock .blockMapping).allowKey (!s.inFlow)).take 1 .value)

def part (s : Scanner) (read : Cursor → Option (Token × Cursor)) : Option Scanner := do
  let s ← s.saveCandidate
  let (t, c) ← read s.cursor
  return ((s.allowKey false).push t).move c

def scalarOf (style : Style) (text : List Char) : Token := .scalar style (String.ofList text)

def quoted (double : Bool) (c : Cursor) : Option (Token × Cursor) := do
  let (text, c) ← readQuoted double c
  return (scalarOf (if double then .double else .single) text, c)

def block (s : Scanner) (literal : Bool) : Option Scanner := do
  let s ← s.dropCandidate
  let parent := (s.blocks.head?.map (· + 1)).getD 0
  let (text, c) ← readBlock literal parent s.cursor
  return ((s.allowKey true).push (scalarOf (if literal then .literal else .folded) text)).move c

/-- After a line break behind its last word a key may begin. -/
def plain (s : Scanner) : Option Scanner := do
  let s ← s.saveCandidate
  let scalar ← readPlain s.inFlow ((s.blocks.head?.map (· + 1)).getD 0) s.cursor
  return ((s.allowKey scalar.broken).push (scalarOf .plain scalar.text)).move scalar.after

def isIndicator (c : Char) : Bool :=
  isFlowIndicator c ||
    ['-', '?', ':', '#', '&', '*', '!', '|', '>', '\'', '"', '%', '@', '\u0060'].contains c

/-- A hyphen, a question mark or a colon begins a plain scalar if no blank follows; inside flow
collections only the hyphen does. -/
def startsPlain (s : Scanner) (c : Char) (next : Option Char) : Bool :=
  !isIndicator c && !isBlank c || c = '-' && !next.any isBlank ||
    !s.inFlow && (c = '?' || c = ':') && !endsWord next

def token (s : Scanner) (c : Char) (next : Option Char) : Option Scanner :=
  let flow := s.inFlow
  if s.cursor.column = 0 && c = '%' then do
    let s ← s.endDocument
    let (t, after) ← readDirective s.cursor
    return (s.push t).move after
  else if s.cursor.atMark '-' then s.endDocument.map (take · 3 .documentStart)
  else if s.cursor.atMark '.' then s.endDocument.map (take · 3 .documentEnd)
  else if c = '[' then s.flowStart .flowSequence
  else if c = '\x7b' then s.flowStart .flowMapping
  else if c = ']' then s.flowEnd .flowSequenceEnd
  else if c = '\x7d' then s.flowEnd .flowMappingEnd
  else if c = ',' then (s.dropCandidate).map fun s => (s.allowKey true).take 1 .comma
  else if c = '-' && endsWord next then s.entry
  else if c = '?' && (flow || endsWord next) then s.explicitKey
  else if c = ':' && (flow || endsWord next) then s.value
  else if c = '*' then s.part fun c => (readAnchor c).map fun (n, c) => (.aliasTo n, c)
  else if c = '&' then s.part fun c => (readAnchor c).map fun (n, c) => (.anchor n, c)
  else if c = '!' then s.part (readTag flow)
  else if c = '|' && !flow then s.block true
  else if c = '>' && !flow then s.block false
  else if c = '\'' then s.part (quoted false)
  else if c = '"' then s.part (quoted true)
  else if s.startsPlain c next then s.plain
  else none

/-- Reads tokens to the end of the text; `fuel` bounds their number. -/
def run : Nat → Scanner → Option (List Token)
  | 0, _ => none
  | fuel + 1, s => do
    let s ← (skipBlanks (s.cursor.size + 1) s).dropStale
    let s := s.closeBlocks fun b => s.cursor.column < b
    match s.cursor.rest with
    | [] => return (← s.endDocument).tokens.reverse
    | c :: rest => run fuel (← s.token c rest.head?)

end Scanner

def tokens? (text : String) : Option (List Token) :=
  let chars := text.toList
  if chars.all isPrintable then Scanner.run (chars.length + 1) { cursor := .ofChars chars }
  else none

end Docking.Yaml
