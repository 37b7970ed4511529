/-! A place in a YAML text, the classes of characters that matter there, and the tokens read from
it. -/
namespace Docking.Yaml

def isBlank (c : Char) : Bool := c = ' ' || c = '\t'

def isBreak (c : Char) : Bool :=
  c = '\n' || c = '\r' || c = '\u0085' || c = '\u2028' || c = '\u2029'

def endsWord : Option Char → Bool
  | none => true
  | some c => isBlank c || isBreak c

def isNameChar (c : Char) : Bool := c.isAlphanum || c = '_' || c = '-'

/-- Control characters and two noncharacters may not stand in a text. -/
def isPrintable (c : Char) : Bool :=
  let n := c.toNat
  n = 0x09 || n = 0x0A || n = 0x0D || (0x20 ≤ n && n ≤ 0x7E) || n = 0x85 ||
    (0xA0 ≤ n && n ≤ 0xD7FF) || (0xE000 ≤ n && n ≤ 0xFFFD) || 0x10000 ≤ n

/-- What is left of the text, and where that begins: how many bytes and lines come before it, and
how many characters of its own line. -/
structure Cursor where
  rest : List Char
  index : Nat := 0
  line : Nat := 0
  column : Nat := 0
  /-- How many characters the whole text has. No reading takes more steps. -/
  size : Nat

namespace Cursor

def ofChars (cs : List Char) : Cursor := { rest := cs, size := cs.length }

def peek? (c : Cursor) : Option Char := c.rest.head?

/-- Passes `n` characters, none of them a line break. -/
def advance (c : Cursor) : Nat → Cursor
  | 0 => c
  | n + 1 =>
    match c.rest with
    | [] => c
    | x :: rest =>
      advance { c with rest := rest, index := c.index + x.utf8Size, column := c.column + 1 } n

/-- A byte order mark at the start of a line is passed over. It takes a column. -/
def skipOrderMark (c : Cursor) : Cursor :=
  if c.column = 0 && c.peek? = some '\ufeff' then c.advance 1 else c

def skipWhile (p : Char → Bool) (c : Cursor) : Cursor := c.advance (c.rest.takeWhile p).length

/-- Passes a line break. The breaks of one line count as one and are read as a line feed; the
separators of lines and paragraphs are read as they stand. -/
def takeBreak? (c : Cursor) : Option (Char × Cursor) :=
  let next (width : Nat) (rest : List Char) : Cursor :=
    { c with rest := rest, index := c.index + width, line := c.line + 1, column := 0 }
  match c.rest with
  | '\r' :: '\n' :: rest => some ('\n', next 2 rest)
  | b :: rest =>
    if isBreak b then
      some (if b = '\u2028' || b = '\u2029' then b else '\n', next b.utf8Size rest)
    else none
  | [] => none

/-- The three characters stand alone at the start of a line. -/
def atMark (c : Cursor) (mark : Char) : Bool :=
  c.column = 0 &&
    match c.rest with
    | x :: y :: z :: rest => x = mark && y = mark && z = mark && endsWord rest.head?
    | _ => false

def atDocumentMark (c : Cursor) : Bool := c.atMark '-' || c.atMark '.'

end Cursor

inductive Style where
  | plain
  | single
  | double
  | literal
  | folded
  deriving DecidableEq, Repr

inductive Token where
  | version (major minor : Nat)
  | tagHandle (handle start : String)
  | documentStart
  | documentEnd
  | blockSequence
  | blockMapping
  | blockEnd
  | flowSequence
  | flowSequenceEnd
  | flowMapping
  | flowMappingEnd
  | entry
  | comma
  | key
  | value
  | aliasTo (name : String)
  | anchor (name : String)
  | tag (handle suffix : String)
  | scalar (style : Style) (text : String)
  deriving DecidableEq, Repr

end Docking.Yaml
