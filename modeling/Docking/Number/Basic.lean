/-! Floating-point numbers of a binary format, with signed zeros, infinities and a value that is not
a number. A finite magnitude is counted in units of the least positive one, so that every magnitude
is a natural number; each operation takes the exact result and rounds it once, to the nearest, an
exact tie to the even significand. Powers are written with `Nat.pow`, the same function whatever
instances of powers are in scope. -/
namespace Docking

/-- A binary format: significands below `2 ^ precision`, counted in units of `2 ^ -unitShift`, and
scaled by at most `2 ^ topShift`. -/
structure Format where
  precision : Nat
  unitShift : Nat
  topShift : Nat
  precision_pos : 0 < precision := by decide

namespace Format

def single : Format := ⟨24, 149, 253, by decide⟩

def double : Format := ⟨53, 1074, 2045, by decide⟩

def largest (f : Format) : Nat := (Nat.pow 2 f.precision - 1) * Nat.pow 2 f.topShift

/-- Some significand of the format, scaled by a power of two, is this magnitude. -/
def HasSignificand (f : Format) (units : Nat) : Prop :=
  ∃ m q, m < Nat.pow 2 f.precision ∧ units = m * Nat.pow 2 q

def Fits (f : Format) (units : Nat) : Prop :=
  f.HasSignificand units ∧ units ≤ f.largest

theorem hasSignificand_of_lt {f : Format} {units : Nat} (h : units < Nat.pow 2 f.precision) :
    f.HasSignificand units :=
  ⟨units, 0, h, by simp⟩

theorem largest_fits (f : Format) : f.Fits f.largest :=
  ⟨⟨Nat.pow 2 f.precision - 1, f.topShift, Nat.sub_lt (Nat.two_pow_pos _) Nat.one_pos, rfl⟩,
    Nat.le_refl _⟩

theorem zero_fits (f : Format) : f.Fits 0 :=
  ⟨hasSignificand_of_lt (Nat.two_pow_pos _), Nat.zero_le _⟩

/-- The whole number nearest to `num / den`; an exact tie goes to the even one. -/
def nearestQuotient (num den : Nat) : Nat :=
  let whole := num / den
  let rest := num % den
  if 2 * rest < den then whole
  else if den < 2 * rest then whole + 1
  else whole + whole % 2

theorem nearestQuotient_le (num den : Nat) : nearestQuotient num den ≤ num / den + 1 := by
  unfold nearestQuotient
  dsimp only
  split
  · omega
  · split <;> omega

theorem le_nearestQuotient (num den : Nat) : num / den ≤ nearestQuotient num den := by
  unfold nearestQuotient
  dsimp only
  split
  · omega
  · split <;> omega

/-- How many low bits of the quotient lie below the last place of its significand. -/
def shiftOf (f : Format) (num den : Nat) : Nat := (num / den).log2 + 1 - f.precision

/-- The magnitude of the format nearest to `num / den` units, as if there were no largest one. -/
def nearest (f : Format) (num den : Nat) : Nat :=
  let shift := f.shiftOf num den
  nearestQuotient num (den * Nat.pow 2 shift) * Nat.pow 2 shift

theorem quotient_lt (f : Format) (num den : Nat) :
    num / (den * Nat.pow 2 (f.shiftOf num den)) < Nat.pow 2 f.precision := by
  rw [← Nat.div_div_eq_div_mul]
  have hlt : num / den < Nat.pow 2 ((num / den).log2 + 1) := Nat.lt_log2_self
  have hle : Nat.pow 2 ((num / den).log2 + 1) ≤
      Nat.pow 2 f.precision * Nat.pow 2 (f.shiftOf num den) := by
    simp only [Nat.pow_eq]
    rw [← Nat.pow_add]
    apply Nat.pow_le_pow_right (by decide)
    unfold shiftOf
    omega
  exact (Nat.div_lt_iff_lt_mul (Nat.two_pow_pos _)).mpr (Nat.lt_of_lt_of_le hlt hle)

/-- Rounding lands on a significand of the format; a carry out of the top place gives a power of
two. -/
theorem nearest_hasSignificand (f : Format) (num den : Nat) :
    f.HasSignificand (f.nearest num den) := by
  have hq := quotient_lt f num den
  have hle := nearestQuotient_le num (den * Nat.pow 2 (f.shiftOf num den))
  by_cases hlt : nearestQuotient num (den * Nat.pow 2 (f.shiftOf num den)) < Nat.pow 2 f.precision
  · exact ⟨_, f.shiftOf num den, hlt, rfl⟩
  · have heq : nearestQuotient num (den * Nat.pow 2 (f.shiftOf num den)) =
        Nat.pow 2 f.precision :=
      Nat.le_antisymm (Nat.le_trans hle hq) (Nat.le_of_not_lt hlt)
    refine ⟨1, f.precision + f.shiftOf num den, ?_, ?_⟩
    · exact Nat.one_lt_two_pow_iff.mpr (Nat.ne_of_gt f.precision_pos)
    · unfold nearest
      dsimp only
      rw [heq, Nat.one_mul]
      exact (Nat.pow_add 2 _ _).symm

end Format

/-- A number of the format. A finite one is a sign and a magnitude that the format can hold. -/
inductive Number (f : Format) where
  | nan
  | infinite (negative : Bool)
  | finite (negative : Bool) (units : Nat) (fits : f.Fits units)

/-- A length on the screen, in logical pixels. -/
abbrev Size := Number .single

/-- A number as stored text and configuration files give it. -/
abbrev Wide := Number .double

namespace Number

variable {f : Format}

def isFinite : Number f → Bool
  | finite .. => true
  | _ => false

def isNaN : Number f → Bool
  | nan => true
  | _ => false

/-- Where the number stands among all numbers of its format; a value that is not a number has no
place. Both zeros stand at the same place. -/
def rank : Number f → Option Int
  | nan => none
  | infinite true => some (-(f.largest + 1 : Nat))
  | infinite false => some (f.largest + 1 : Nat)
  | finite true units _ => some (-(units : Int))
  | finite false units _ => some units

def lt (a b : Number f) : Bool :=
  match a.rank, b.rank with
  | some x, some y => x < y
  | _, _ => false

/-- Equality of values: zeros of both signs agree, and what is not a number equals nothing. -/
def agrees (a b : Number f) : Bool :=
  match a.rank, b.rank with
  | some x, some y => x == y
  | _, _ => false

instance : BEq (Number f) := ⟨agrees⟩

/-- The larger operand, the second one if they agree; an operand that is not a number gives way. -/
def max (a b : Number f) : Number f :=
  if b.isNaN then a else if b.lt a then a else b

/-- The smaller operand, the second one if they agree; an operand that is not a number gives way. -/
def min (a b : Number f) : Number f :=
  if b.isNaN then a else if a.lt b then a else b

/-- A magnitude beyond the largest finite one becomes infinite. -/
def ofUnits (negative : Bool) (units : Nat) (h : f.HasSignificand units) : Number f :=
  if hle : units ≤ f.largest then finite negative units ⟨h, hle⟩ else infinite negative

def round (negative : Bool) (num den : Nat) : Number f :=
  ofUnits negative (f.nearest num den) (f.nearest_hasSignificand num den)

def zero (negative : Bool) : Number f := finite negative 0 f.zero_fits

def top : Number f := finite false f.largest f.largest_fits

def ofNat (n : Nat) : Number f := round false (n * Nat.pow 2 f.unitShift) 1

instance {n : Nat} : OfNat (Number f) n := ⟨ofNat n⟩

def neg : Number f → Number f
  | nan => nan
  | infinite negative => infinite (!negative)
  | finite negative units fits => finite (!negative) units fits

def signed (negative : Bool) (units : Nat) : Int := if negative then -units else units

/-- An exact sum of zero is negative only if both operands are. -/
def add : Number f → Number f → Number f
  | nan, _ => nan
  | _, nan => nan
  | infinite a, infinite b => if a = b then infinite a else nan
  | infinite a, finite .. => infinite a
  | finite .., infinite b => infinite b
  | finite a u _, finite b v _ =>
    let total := signed a u + signed b v
    if total = 0 then zero (a && b) else round (total < 0) total.natAbs 1

def mul : Number f → Number f → Number f
  | nan, _ => nan
  | _, nan => nan
  | infinite a, infinite b => infinite (a != b)
  | infinite a, finite b v _ => if v = 0 then nan else infinite (a != b)
  | finite a u _, infinite b => if u = 0 then nan else infinite (a != b)
  | finite a u _, finite b v _ => round (a != b) (u * v) (Nat.pow 2 f.unitShift)

def div : Number f → Number f → Number f
  | nan, _ => nan
  | _, nan => nan
  | infinite _, infinite _ => nan
  | infinite a, finite b _ _ => infinite (a != b)
  | finite a _ _, infinite b => zero (a != b)
  | finite a u _, finite b v _ =>
    if v = 0 then if u = 0 then nan else infinite (a != b)
    else round (a != b) (u * Nat.pow 2 f.unitShift) v

def convert (g : Format) : Number f → Number g
  | nan => nan
  | infinite negative => infinite negative
  | finite negative units _ =>
    round negative (units * Nat.pow 2 g.unitShift) (Nat.pow 2 f.unitShift)

/-- The number nearest to `digits * 10 ^ exponent`. Exponents so far out that any digits give
infinity or zero are settled without computing the power. -/
def ofDecimal (negative : Bool) (digits : Nat) (exponent : Int) : Number f :=
  if digits = 0 then zero negative
  else if (f.unitShift : Int) < exponent then infinite negative
  else if exponent + digits.log2 < -(f.unitShift : Int) then zero negative
  else if 0 ≤ exponent then
    round negative (digits * Nat.pow 10 exponent.toNat * Nat.pow 2 f.unitShift) 1
  else round negative (digits * Nat.pow 2 f.unitShift) (Nat.pow 10 exponent.natAbs)

end Number

end Docking
