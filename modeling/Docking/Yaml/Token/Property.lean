import Docking.Text
import Docking.Yaml.Token.Block

/-! Names of anchors, tags, and directives. -/
namespace Docking.Yaml

def endsAnchor (c : Option Char) : Bool :=
  endsWord c || c.any fun c => ['?', ':', ',', ']', '\x7d', '%', '@', '\u0060'].contains c

def readAnchor (c : Cursor) : Option (String × Cursor) :=
  let name := (c.rest.drop 1).takeWhile isNameChar
  let after := c.advance (name.length + 1)
  if name.isEmpty || !endsAnchor after.peek? then none else some (String.ofList name, after)

def isUriChar (full : Bool) (c : Char) : Bool :=
  isNameChar c || full && [',', '[', ']'].contains c ||
    [';', '/', '?', ':', '@', '&', '=', '+', '$', '.', '!', '~', '*', '\'', '(', ')'].contains c

def widthOf? (first : Nat) : Option Nat :=
  if first < 0x80 then some 1
  else if 0xC0 ≤ first && first < 0xE0 then some 2
  else if 0xE0 ≤ first && first < 0xF0 then some 3
  else if 0xF0 ≤ first && first < 0xF8 then some 4
  else none

def escapedBytes (cs : List Char) : Nat → Option (List Nat)
  | 0 => some []
  | n + 1 =>
    match cs with
    | '%' :: a :: b :: rest => do
      let byte ← Hex.number? [a, b]
      return byte :: (← escapedBytes rest n)
    | _ => none

/-- A character written by its bytes; bytes that make none give the replacement character. -/
def readUriEscape (c : Cursor) : Option (Char × Cursor) := do
  let width ← widthOf? (← (← escapedBytes c.rest 1).head?)
  let bytes ← escapedBytes c.rest width
  if (bytes.drop 1).all fun b => 0x80 ≤ b && b < 0xC0 then
    let text := Utf8.decode? (bytes.map UInt8.ofNat)
    return ((text.bind fun t => t.toList.head?).getD '\ufffd', c.advance (3 * width))
  else none

/-- The rest of a tag. Flow indicators belong to it only where the tag is written in full. -/
def readUri (full : Bool) : Nat → Cursor → Option (List Char × Cursor)
  | 0, c => some ([], c)
  | fuel + 1, c =>
    match c.peek? with
    | some '%' => do
      let (char, c) ← readUriEscape c
      let (text, c) ← readUri full fuel c
      return (char :: text, c)
    | some char =>
      if isUriChar full char then
        (readUri full fuel (c.advance 1)).map fun (text, c) => (char :: text, c)
      else some ([], c)
    | none => some ([], c)

/-- A handle from its exclamation mark: a second mark may close it. -/
def readHandle (c : Cursor) : List Char × Bool × Cursor :=
  let name := (c.rest.drop 1).takeWhile isNameChar
  let after := c.advance (name.length + 1)
  if after.peek? = some '!' then ('!' :: name ++ ['!'], true, after.advance 1)
  else ('!' :: name, false, after)

/-- An escaped NUL ends what a tag says; what is written behind it counts for nothing. -/
def beforeNul (text : List Char) : List Char := text.takeWhile fun c => c ≠ '\x00'

def readTagParts (c : Cursor) : Option (List Char × List Char × Cursor) :=
  let fuel := c.size
  if (c.rest.drop 1).head? = some '<' then do
    let (suffix, c) ← readUri true fuel (c.advance 2)
    if suffix.isEmpty || c.peek? ≠ some '>' then none
    else some ([], beforeNul suffix, c.advance 1)
  else
    match readHandle c with
    | (handle, true, c) => do
      let (suffix, c) ← readUri false fuel c
      if suffix.isEmpty then none else some (handle, beforeNul suffix, c)
    | (handle, false, c) => do
      let (more, c) ← readUri false fuel c
      let suffix := beforeNul (handle.drop 1 ++ more)
      if suffix.isEmpty then some ([], ['!'], c) else some (['!'], suffix, c)

def readTag (flow : Bool) (c : Cursor) : Option (Token × Cursor) := do
  let (handle, suffix, c) ← readTagParts c
  if endsWord c.peek? || flow && c.peek? = some ',' then
    some (.tag (String.ofList handle) (String.ofList suffix), c)
  else none

def readVersionNumber (c : Cursor) : Option (Nat × Cursor) :=
  let digits := c.rest.takeWhile Char.isDigit
  if digits.isEmpty || 9 < digits.length then none
  else some (digits.foldl (fun n d => n * 10 + (d.toNat - '0'.toNat)) 0, c.advance digits.length)

def readVersion (c : Cursor) : Option (Token × Cursor) := do
  let (major, c) ← readVersionNumber (c.skipWhile isBlank)
  if c.peek? = some '.' then
    let (minor, c) ← readVersionNumber (c.advance 1)
    return (.version major minor, c)
  else none

def readTagHandle (c : Cursor) : Option (Token × Cursor) := do
  let c := c.skipWhile isBlank
  if c.peek? ≠ some '!' then none
  else
    let (handle, closed, c) := readHandle c
    if !closed && handle.length ≠ 1 || !c.peek?.any isBlank then none
    else
      let c := c.skipWhile isBlank
      let (start, c) ← readUri true c.size c
      if start.isEmpty || !endsWord c.peek? then none
      else some (.tagHandle (String.ofList handle) (String.ofList (beforeNul start)), c)

def readDirective (c : Cursor) : Option (Token × Cursor) := do
  let name := (c.rest.drop 1).takeWhile isNameChar
  let c := c.advance (name.length + 1)
  if !endsWord c.peek? then none
  else
    let (token, c) ←
      match String.ofList name with
      | "YAML" => readVersion c
      | "TAG" => readTagHandle c
      | _ => none
    let c := skipComment c
    match c.takeBreak? with
    | some (_, c) => some (token, c)
    | none => if c.rest.isEmpty then some (token, c) else none

end Docking.Yaml
