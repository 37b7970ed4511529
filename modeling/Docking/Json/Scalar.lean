import Docking.Number.Basic
import Docking.Text

/-! Numbers and strings of JSON texts. The digits of a number are gathered in a 64-bit significand,
and its value is that significand, rounded, times or divided by a rounded power of ten; it may
differ from the nearest number in the last place, and this is what stored sizes mean. Strings have
escapes, and characters beyond the first plane as pairs of units. -/
namespace Docking.Json

def isDigit (c : Char) : Bool := '0' ≤ c && c ≤ '9'

def digitValue (c : Char) : Nat := c.toNat - '0'.toNat

def significandLimit : Nat := 0xFFFFFFFFFFFFFFFF

def exponentLimit : Nat := 0x7FFFFFFF

/-- Takes digits into the significand while it stays within its limit, and returns those left
over. -/
def gather (significand : Nat) : List Char → Nat × List Char
  | [] => (significand, [])
  | d :: rest =>
    let next := significand * 10 + digitValue d
    if next ≤ significandLimit then gather next rest else (significand, d :: rest)

def powerOfTen (exponent : Nat) : Wide := Number.ofNat (Nat.pow 10 exponent)

/-- Divides by powers of ten in steps that the format can hold. -/
def divideDown : Nat → Wide → Nat → Wide
  | 0, x, _ => x
  | fuel + 1, x, exponent =>
    if exponent ≤ 308 then x.div (powerOfTen exponent)
    else divideDown fuel (x.div (powerOfTen 308)) (exponent - 308)

/-- The significand times a power of ten; none if that is beyond the largest number. Three
divisions bring every significand to zero. -/
def scale (significand : Nat) (exponent : Int) : Option Wide :=
  let x : Wide := Number.ofNat significand
  if exponent < 0 then
    some (if significand = 0 then x else divideDown 3 x exponent.natAbs)
  else if exponent ≤ 308 then
    let product := x.mul (powerOfTen exponent.natAbs)
    if product.isFinite then some product else none
  else if significand = 0 then some x
  else none

/-- An exponent beyond its limit gives zero or no number at all. -/
def scaleBy (significand : Nat) (places : Int) (negative : Bool) (exponent : Nat) : Option Wide :=
  if exponentLimit < exponent then
    if significand = 0 || negative then some (Number.zero false) else none
  else scale significand (if negative then places - exponent else places + exponent)

def decimalValue (digits : List Char) : Nat :=
  digits.foldl (fun n d => n * 10 + digitValue d) 0

def spanDigits (cs : List Char) : List Char × List Char :=
  (cs.takeWhile isDigit, cs.dropWhile isDigit)

def takeSign : List Char → Bool × List Char
  | '-' :: rest => (true, rest)
  | '+' :: rest => (false, rest)
  | rest => (false, rest)

def readExponent (significand : Nat) (places : Int) (cs : List Char) :
    Option (Wide × List Char) :=
  match cs with
  | c :: rest =>
    if c = 'e' || c = 'E' then
      let (negative, rest) := takeSign rest
      let (digits, rest) := spanDigits rest
      if digits.isEmpty then none
      else (scaleBy significand places negative (decimalValue digits)).map (·, rest)
    else (scale significand places).map (·, cs)
  | [] => (scale significand places).map (·, [])

/-- What follows the whole part. Decimals beyond the limit of the significand are dropped. -/
def readFraction (significand : Nat) (dropped : Nat) (cs : List Char) :
    Option (Wide × List Char) :=
  match cs with
  | '.' :: rest =>
    let (decimals, rest) := spanDigits rest
    if decimals.isEmpty then none
    else
      let (significand, left) := gather significand decimals
      readExponent significand ((dropped : Int) - (decimals.length - left.length : Nat)) rest
  | _ => readExponent significand dropped cs

/-- A number without its sign. A zero in front is the whole part. -/
def readMagnitude (cs : List Char) : Option (Wide × List Char) :=
  match spanDigits cs with
  | ([], _) => none
  | ('0' :: _ :: _, _) => none
  | (whole, rest) =>
    let (significand, left) := gather 0 whole
    readFraction significand left.length rest

def readNumber : List Char → Option (Wide × List Char)
  | '-' :: rest => (readMagnitude rest).map fun (x, rest) => (x.neg, rest)
  | cs => readMagnitude cs

inductive Piece where
  | char (c : Char)
  | unit (code : Nat)

def escaped? : Char → Option Char
  | '"' => some '"'
  | '\\' => some '\\'
  | '/' => some '/'
  | 'b' => some '\x08'
  | 'f' => some '\x0c'
  | 'n' => some '\n'
  | 'r' => some '\r'
  | 't' => some '\t'
  | _ => none

/-- The pieces up to the closing quote, and what follows it. Control characters must be escaped. -/
def readPieces : List Char → Option (List Piece × List Char)
  | [] => none
  | '"' :: rest => some ([], rest)
  | '\\' :: 'u' :: a :: b :: c :: d :: rest => do
    let code ← Hex.number? [a, b, c, d]
    let (pieces, rest) ← readPieces rest
    return (.unit code :: pieces, rest)
  | '\\' :: c :: rest => do
    let c ← escaped? c
    let (pieces, rest) ← readPieces rest
    return (.char c :: pieces, rest)
  | c :: rest =>
    if c.toNat < 0x20 || c = '\\' then none
    else (readPieces rest).map fun (pieces, rest) => (.char c :: pieces, rest)

def isHighUnit (code : Nat) : Bool := 0xD800 ≤ code && code < 0xDC00

def isLowUnit (code : Nat) : Bool := 0xDC00 ≤ code && code < 0xE000

/-- A high unit and the low unit right behind it make one character; neither stands alone. -/
def joinPieces : List Piece → Option (List Char)
  | [] => some []
  | .char c :: rest => (joinPieces rest).map (c :: ·)
  | .unit high :: .unit low :: rest =>
    if isHighUnit high then
      if isLowUnit low then
        (joinPieces rest).map
          (Char.ofNat (0x10000 + (high - 0xD800) * 0x400 + (low - 0xDC00)) :: ·)
      else none
    else if isLowUnit high then none
    else (joinPieces (.unit low :: rest)).map (Char.ofNat high :: ·)
  | .unit code :: rest =>
    if isHighUnit code || isLowUnit code then none
    else (joinPieces rest).map (Char.ofNat code :: ·)

def readString (cs : List Char) : Option (String × List Char) := do
  let (pieces, rest) ← readPieces cs
  let chars ← joinPieces pieces
  return (String.ofList chars, rest)

end Docking.Json
