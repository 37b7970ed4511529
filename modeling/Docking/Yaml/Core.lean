import Docking.Number.Basic
import Docking.Text

/-! The words and numbers that plain scalars stand for. -/
namespace Docking.Yaml.Core

def tag (name : String) : String := "tag:yaml.org,2002:" ++ name

def isNull (text : String) : Bool := ["~", "null", "Null", "NULL"].contains text

def bool? (text : String) : Option Bool :=
  if ["true", "True", "TRUE"].contains text then some true
  else if ["false", "False", "FALSE"].contains text then some false
  else none

/-- One plus sign may stand in front, but not before another sign. -/
def dropPlus : List Char → Option (List Char)
  | '+' :: '+' :: _ | '+' :: '-' :: _ => none
  | '+' :: rest => some rest
  | cs => some cs

def natural? (base : Nat) (cs : List Char) : Option Nat :=
  if cs.isEmpty then none
  else cs.foldlM (fun n c => (Hex.digit? c).bind fun d =>
    if d < base then some (n * base + d) else none) 0

/-- Decimal digits, without a zero in front of others. -/
def decimal? (cs : List Char) : Option Nat :=
  match cs with
  | '0' :: _ :: _ => none
  | cs => natural? 10 cs

def magnitude? : List Char → Option Nat
  | '0' :: 'x' :: rest => natural? 16 rest
  | '0' :: 'o' :: rest => natural? 8 rest
  | '0' :: 'b' :: rest => natural? 2 rest
  | cs => decimal? cs

def int? (text : String) : Option Int := do
  match ← dropPlus text.toList with
  | '-' :: rest => return -(← magnitude? rest : Nat)
  | cs => return (← magnitude? cs : Nat)

def int32? (text : String) : Option Int :=
  (int? text).filter fun n => -0x80000000 ≤ n && n ≤ 0x7FFFFFFF

def digitsOf (cs : List Char) : Nat := cs.foldl (fun n c => n * 10 + (c.toNat - '0'.toNat)) 0

def exponent? : List Char → Option Int
  | [] => some 0
  | mark :: rest =>
    if mark = 'e' || mark = 'E' then
      let (negative, digits) := match rest with
        | '-' :: rest => (true, rest)
        | '+' :: rest => (false, rest)
        | rest => (false, rest)
      if digits.isEmpty || !digits.all Char.isDigit then none
      else some (if negative then -(digitsOf digits : Int) else digitsOf digits)
    else none

/-- Digits with a point anywhere among them or none, and perhaps an exponent. -/
def decimalNumber? (negative : Bool) (cs : List Char) : Option Wide := do
  let whole := cs.takeWhile Char.isDigit
  let rest := cs.dropWhile Char.isDigit
  let (fraction, rest) := match rest with
    | '.' :: rest => (rest.takeWhile Char.isDigit, rest.dropWhile Char.isDigit)
    | rest => ([], rest)
  if whole.isEmpty && fraction.isEmpty then none
  else
    let exponent ← exponent? rest
    let x : Wide := .ofDecimal negative (digitsOf (whole ++ fraction)) (exponent - fraction.length)
    if x.isFinite then some x else none

def isInfinity (cs : List Char) : Bool := [".inf", ".Inf", ".INF"].contains (String.ofList cs)

def float? (text : String) : Option Wide :=
  if [".nan", ".NaN", ".NAN"].contains text then some .nan
  else
    match dropPlus text.toList with
    | none => none
    | some ('-' :: rest) =>
      if isInfinity rest then some (.infinite true)
      else decimalNumber? true rest
    | some cs => if isInfinity cs then some (.infinite false) else decimalNumber? false cs

end Docking.Yaml.Core
