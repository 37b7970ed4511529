import Docking.Number.Basic

/-! How numbers are written: the fewest decimal digits that identify a magnitude, placed around a
point or followed by an exponent. The reals that round to a magnitude form an interval; the search
for its digits tries coarse decimal grids first and takes the first one with a point inside. A
`Spelling` holds the choices of one output format. -/
namespace Docking

/-- The value `digits * 10 ^ exponent`. -/
structure Decimal where
  digits : Nat
  exponent : Int
  deriving DecidableEq, Repr

inductive Tie where
  | up
  | even
  deriving DecidableEq, Repr

namespace Decimal

def strip : Nat → Decimal → Decimal
  | 0, d => d
  | fuel + 1, d =>
    if d.digits % 10 = 0 then strip fuel ⟨d.digits / 10, d.exponent + 1⟩ else d

end Decimal

/-- The reals that round to `value`, all three ends on one scale. -/
structure Interval where
  low : Nat
  value : Nat
  high : Nat
  closed : Bool

namespace Interval

def contains (i : Interval) (x : Nat) : Bool :=
  if i.closed then i.low ≤ x && x ≤ i.high else i.low < x && x < i.high

/-- From halfway to the neighbour below to halfway to the neighbour above, both ends included when
the significand is even. Below a power of two the neighbour is half as far away, except for the
least normal magnitude. -/
def ofUnits (f : Format) (units : Nat) : Interval :=
  let shift := units.log2 + 1 - f.precision
  let narrow := 0 < shift && units == Nat.pow 2 units.log2
  let scale := Nat.pow 5 (f.unitShift + 2)
  { low := (4 * units - (if narrow then 1 else 2) * Nat.pow 2 shift) * scale
    value := 4 * units * scale
    high := (4 * units + 2 * Nat.pow 2 shift) * scale
    closed := units / Nat.pow 2 shift % 2 == 0 }

/-- The nearer of the two grid points around the value, among those inside. -/
def pick (i : Interval) (tie : Tie) (grid : Nat) : Option Nat :=
  let below := i.value / grid
  let above := below + 1
  match i.contains (below * grid), i.contains (above * grid) with
  | false, false => none
  | true, false => some below
  | false, true => some above
  | true, true =>
    if 2 * i.value < (below + above) * grid then some below
    else if (below + above) * grid < 2 * i.value then some above
    else match tie with
      | .up => some above
      | .even => some (below + below % 2)

/-- The first of the grids `10 ^ fuel`, `10 ^ (fuel - 1)`, … with a point inside. -/
def search (i : Interval) (tie : Tie) : Nat → Nat × Nat
  | 0 => (i.value, 0)
  | fuel + 1 =>
    match i.pick tie (Nat.pow 10 (fuel + 1)) with
    | some digits => (digits, fuel + 1)
    | none => i.search tie fuel

end Interval

/-- The shortest decimal that rounds to the magnitude, and the nearest of the shortest ones. -/
def Format.shortest (f : Format) (tie : Tie) (units : Nat) : Decimal :=
  if units = 0 then ⟨0, 0⟩
  else
    let i := Interval.ofUnits f units
    let (digits, power) := i.search tie (Nat.toDigits 10 i.value).length
    Decimal.strip (power + 1) ⟨digits, power - (f.unitShift + 2 : Nat)⟩

structure Spelling where
  tie : Tie
  /-- Which exponents of the leading digit are written with a point alone. -/
  positional : Int → Bool
  /-- Whole numbers keep `.0` when written with a point alone. -/
  pointZero : Bool
  /-- An exponent that is not negative has a sign. -/
  plus : Bool
  nan : String
  infinity : Bool → String

namespace Spelling

/-- `d` with a point and no exponent. -/
def positionalText (s : Spelling) (digits : List Char) (exponent : Int) : List Char :=
  if 0 ≤ exponent then
    digits ++ List.replicate exponent.toNat '0' ++ if s.pointZero then ['.', '0'] else []
  else
    let places := exponent.natAbs
    if places < digits.length then
      digits.take (digits.length - places) ++ '.' :: digits.drop (digits.length - places)
    else
      '0' :: '.' :: List.replicate (places - digits.length) '0' ++ digits

def exponentText (s : Spelling) (digits : List Char) (leading : Int) : List Char :=
  digits.take 1 ++ (if digits.length = 1 then [] else '.' :: digits.drop 1) ++ ['e'] ++
    (if leading < 0 then ['-'] else if s.plus then ['+'] else []) ++
    Nat.toDigits 10 leading.natAbs

def decimalText (s : Spelling) (d : Decimal) : List Char :=
  let digits := Nat.toDigits 10 d.digits
  let leading := d.exponent + digits.length - 1
  if s.positional leading then s.positionalText digits d.exponent
  else s.exponentText digits leading

def text {f : Format} (s : Spelling) : Number f → String
  | .nan => s.nan
  | .infinite negative => s.infinity negative
  | .finite negative units _ =>
    let body := s.decimalText (f.shortest s.tie units)
    String.ofList (if negative then '-' :: body else body)

/-- Messages never use an exponent and write whole numbers without a fraction. -/
def message : Spelling where
  tie := .up
  positional _ := true
  pointZero := false
  plus := false
  nan := "NaN"
  infinity negative := if negative then "-inf" else "inf"

/-- Traces keep a fraction and use an exponent below `1e-4` and from `1e16` on. -/
def trace : Spelling where
  tie := .up
  positional leading := -4 ≤ leading && leading < 16
  pointZero := true
  plus := false
  nan := "NaN"
  infinity negative := if negative then "-inf" else "inf"

/-- Stored layouts keep a fraction and use a signed exponent below `1e-6` and from `1e13` on; what
is not finite is stored as `null`. -/
def stored : Spelling where
  tie := .even
  positional leading := -6 ≤ leading && leading < 13
  pointZero := true
  plus := true
  nan := "null"
  infinity _ := "null"

end Spelling

def Number.text {f : Format} (x : Number f) : String := Spelling.message.text x

end Docking
