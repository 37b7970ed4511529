import Docking.Proofs.Number.Order
import Mathlib.Tactic.Ring
import Mathlib.Tactic.Positivity

/-! Rounding keeps order and leaves alone what a format can hold. So changing a format keeps order
too, and a number survives the way into a finer format and back. -/
namespace Docking

namespace Format

variable {f g : Format} {num num' den units : Nat}

theorem nearestQuotient_mul (hden : 0 < den) (q : Nat) : nearestQuotient (q * den) den = q := by
  unfold nearestQuotient
  simp only [Nat.mul_mod_left, Nat.mul_div_cancel q hden]
  rw [if_pos (by omega)]

theorem nearestQuotient_mono (den : Nat) (h : num ≤ num') :
    nearestQuotient num den ≤ nearestQuotient num' den := by
  have hdiv : num / den ≤ num' / den := Nat.div_le_div_right h
  rcases Nat.lt_or_eq_of_le hdiv with hlt | heq
  · have hle := nearestQuotient_le num den
    have hge := le_nearestQuotient num' den
    omega
  · have hrest : num % den ≤ num' % den := by
      have hnum := Nat.div_add_mod num den
      have hnum' := Nat.div_add_mod num' den
      rw [heq] at hnum
      omega
    unfold nearestQuotient
    simp only [heq]
    split_ifs <;> omega

theorem shiftOf_mono (f : Format) (den : Nat) (h : num ≤ num') :
    f.shiftOf num den ≤ f.shiftOf num' den := by
  have hdiv : num / den ≤ num' / den := Nat.div_le_div_right h
  have hlog : (num / den).log2 ≤ (num' / den).log2 := by
    by_cases h0 : num / den = 0
    · simp [h0]
    · have hpos := (Nat.pos_of_ne_zero h0).trans_le hdiv
      exact (Nat.le_log2 hpos.ne').mpr ((Nat.log2_self_le h0).trans hdiv)
  unfold shiftOf
  omega

theorem nearest_le (f : Format) (num den : Nat) :
    f.nearest num den ≤ 2 ^ (f.precision + f.shiftOf num den) := by
  have hq := f.quotient_lt num den
  have hle := nearestQuotient_le num (den * Nat.pow 2 (f.shiftOf num den))
  rw [pow_add]
  exact Nat.mul_le_mul_right _ (hle.trans hq)

/-- Below the shifted significand there is always a bit: the rounded magnitude fills the places. -/
theorem le_nearest (h : 0 < f.shiftOf num den) :
    2 ^ (f.precision - 1 + f.shiftOf num den) ≤ f.nearest num den := by
  have hprec := f.precision_pos
  have hlog : f.precision - 1 + f.shiftOf num den = (num / den).log2 := by
    unfold shiftOf at h ⊢
    omega
  have hne : num / den ≠ 0 := by
    intro h0
    simp [shiftOf, h0] at h
    omega
  have hquot : 2 ^ (f.precision - 1) ≤ num / (den * Nat.pow 2 (f.shiftOf num den)) := by
    rw [← Nat.div_div_eq_div_mul]
    refine (Nat.le_div_iff_mul_le (Nat.two_pow_pos _)).mpr ?_
    calc 2 ^ (f.precision - 1) * 2 ^ f.shiftOf num den
        = 2 ^ (num / den).log2 := by rw [← pow_add, hlog]
      _ ≤ num / den := Nat.log2_self_le hne
  rw [pow_add]
  exact Nat.mul_le_mul_right _ (hquot.trans (le_nearestQuotient _ _))

theorem nearest_mono (f : Format) (den : Nat) (h : num ≤ num') :
    f.nearest num den ≤ f.nearest num' den := by
  rcases Nat.lt_or_eq_of_le (f.shiftOf_mono den h) with hlt | heq
  · have hprec := f.precision_pos
    calc f.nearest num den
        ≤ 2 ^ (f.precision + f.shiftOf num den) := f.nearest_le num den
      _ ≤ 2 ^ (f.precision - 1 + f.shiftOf num' den) :=
          Nat.pow_le_pow_right (by omega) (by omega)
      _ ≤ f.nearest num' den := le_nearest (by omega)
  · unfold nearest
    simp only [heq]
    exact Nat.mul_le_mul_right _ (nearestQuotient_mono _ h)

/-- A magnitude that the format can hold is its own rounding. -/
theorem nearest_mul (h : f.HasSignificand units) (hden : 0 < den) :
    f.nearest (units * den) den = units := by
  obtain ⟨m, q, hm, hu⟩ := h
  have hshift : f.shiftOf (units * den) den ≤ q := by
    have hlt : units < 2 ^ (f.precision + q) := by
      rw [hu, pow_add]
      exact Nat.mul_lt_mul_of_pos_right hm (Nat.two_pow_pos q)
    unfold shiftOf
    rw [Nat.mul_div_cancel units hden]
    by_cases h0 : units = 0
    · have hprec := f.precision_pos
      simp [h0]
      omega
    · have hlog := (Nat.log2_lt h0).mpr hlt
      omega
  unfold nearest
  generalize f.shiftOf (units * den) den = shift at hshift
  obtain ⟨k, rfl⟩ : ∃ k, units = k * Nat.pow 2 shift := by
    refine ⟨m * 2 ^ (q - shift), ?_⟩
    rw [Nat.pow_eq, Nat.mul_assoc, ← pow_add, Nat.sub_add_cancel hshift]
    exact hu
  have hscaled : k * Nat.pow 2 shift * den = k * (den * Nat.pow 2 shift) := by
    rw [Nat.mul_assoc, Nat.mul_comm den]
  have hround := nearestQuotient_mul (Nat.mul_pos hden (Nat.two_pow_pos shift)) k
  rw [hscaled]
  exact congrArg (fun k => k * Nat.pow 2 shift) hround

theorem nearest_zero (f : Format) (den : Nat) (hden : 0 < den) : f.nearest 0 den = 0 := by
  have hround := nearest_mul f.zero_fits.1 hden
  rwa [Nat.zero_mul] at hround

/-- Every number of the format is one of the other format, whose units are finer. -/
structure Within (f g : Format) : Prop where
  precision : f.precision ≤ g.precision
  unitShift : f.unitShift ≤ g.unitShift
  largest : f.largest * Nat.pow 2 (g.unitShift - f.unitShift) ≤ g.largest

theorem single_within_double : single.Within double := by
  constructor <;> decide +kernel

theorem Within.fits (h : f.Within g) (hu : f.Fits units) :
    g.Fits (units * Nat.pow 2 (g.unitShift - f.unitShift)) := by
  obtain ⟨⟨m, q, hm, rfl⟩, hle⟩ := hu
  refine ⟨⟨m, q + (g.unitShift - f.unitShift), ?_, ?_⟩, ?_⟩
  · exact hm.trans_le (Nat.pow_le_pow_right (by decide) h.precision)
  · simp only [Nat.pow_eq, pow_add, Nat.mul_assoc]
  · exact (Nat.mul_le_mul_right _ hle).trans h.largest

/-- A magnitude in its own units and the same magnitude in finer ones. -/
theorem Within.rescale (h : f.Within g) (units : Nat) :
    units * Nat.pow 2 (g.unitShift - f.unitShift) * Nat.pow 2 f.unitShift =
      units * Nat.pow 2 g.unitShift := by
  simp only [Nat.pow_eq, Nat.mul_assoc, ← pow_add, Nat.sub_add_cancel h.unitShift]

end Format

namespace Number

variable {f g : Format}

/-- The magnitude in another format of so many units. One beyond the largest stands for infinity on
both sides. -/
def carried (f g : Format) (units : Nat) : Nat :=
  if f.largest < units then g.largest + 1
  else Min.min (g.nearest (units * Nat.pow 2 g.unitShift) (Nat.pow 2 f.unitShift)) (g.largest + 1)

theorem carried_zero : carried f g 0 = 0 := by
  unfold carried
  rw [if_neg (Nat.not_lt_zero _), Nat.zero_mul,
    g.nearest_zero (Nat.pow 2 f.unitShift) (Nat.two_pow_pos _)]
  exact Nat.min_eq_left (Nat.zero_le _)

theorem carried_mono {u v : Nat} (h : u ≤ v) : carried f g u ≤ carried f g v := by
  have hround := g.nearest_mono (Nat.pow 2 f.unitShift)
    (Nat.mul_le_mul_right (Nat.pow 2 g.unitShift) h)
  unfold carried
  split_ifs <;> omega

/-- The rank in another format of a number of this rank. -/
def carriedRank (f g : Format) (k : Int) : Int := signed (k < 0) (carried f g k.natAbs)

theorem carriedRank_mono {k m : Int} (hkm : k ≤ m) : carriedRank f g k ≤ carriedRank f g m := by
  unfold carriedRank signed
  simp only [decide_eq_true_eq]
  rcases Int.lt_or_le m 0 with hm | hm
  · have hmono := carried_mono (f := f) (g := g) (u := m.natAbs) (v := k.natAbs) (by omega)
    rw [if_pos hm, if_pos (by omega)]
    omega
  · rw [if_neg (by omega : ¬ m < 0)]
    split
    · omega
    · have hmono := carried_mono (f := f) (g := g) (u := k.natAbs) (v := m.natAbs) (by omega)
      omega

theorem carriedRank_max (k m : Int) :
    carriedRank f g (Max.max k m) = Max.max (carriedRank f g k) (carriedRank f g m) := by
  rcases Int.le_total k m with h | h
  · rw [Int.max_eq_right h, Int.max_eq_right (carriedRank_mono h)]
  · rw [Int.max_eq_left h, Int.max_eq_left (carriedRank_mono h)]

theorem carriedRank_min (k m : Int) :
    carriedRank f g (Min.min k m) = Min.min (carriedRank f g k) (carriedRank f g m) := by
  rcases Int.le_total k m with h | h
  · rw [Int.min_eq_left h, Int.min_eq_left (carriedRank_mono h)]
  · rw [Int.min_eq_right h, Int.min_eq_right (carriedRank_mono h)]

theorem carriedRank_signed (negative : Bool) (units : Nat) :
    carriedRank f g (signed negative units) = signed negative (carried f g units) := by
  unfold carriedRank
  rcases Nat.eq_zero_or_pos units with rfl | hpos
  · cases negative <;> simp [signed, carried_zero]
  · cases negative
    · simp [signed]
    · simp [signed]
      omega

theorem rank_ofUnits (negative : Bool) (units : Nat) (h : f.HasSignificand units) :
    (ofUnits negative units h).rank =
      some (signed negative (Min.min units (f.largest + 1))) := by
  unfold ofUnits
  split
  · next hle =>
    rw [Nat.min_eq_left (by omega)]
    cases negative <;> rfl
  · next hlt =>
    rw [Nat.min_eq_right (by omega)]
    cases negative <;> rfl

/-- Changing the format moves a number by its rank alone, and keeps order since ranks are carried
in order. -/
theorem rank_convert (a : Number f) : (a.convert g).rank = a.rank.map (carriedRank f g) := by
  cases a with
  | nan => rfl
  | infinite negative =>
    have hcap : carried f g (f.largest + 1) = g.largest + 1 := if_pos (Nat.lt_succ_self _)
    rw [convert, rank_infinite, rank_infinite, Option.map_some, carriedRank_signed, hcap]
  | finite negative units fits =>
    rw [rank_finite, Option.map_some, carriedRank_signed, carried,
      if_neg (Nat.not_lt_of_le fits.2)]
    exact rank_ofUnits negative _ (g.nearest_hasSignificand _ _)

theorem isNaN_convert (a : Number f) : (a.convert g).isNaN = a.isNaN := by
  rw [Bool.eq_iff_iff, ← rank_eq_none_iff, ← rank_eq_none_iff, rank_convert, Option.map_eq_none_iff]

theorem rank_convert_max (a b : Number f) :
    ((a.max b).convert g).rank = ((a.convert g).max (b.convert g)).rank := by
  simp only [rank_convert, rank_max]
  cases a.rank <;> cases b.rank <;> simp [carriedRank_max]

theorem rank_convert_min (a b : Number f) :
    ((a.min b).convert g).rank = ((a.convert g).min (b.convert g)).rank := by
  simp only [rank_convert, rank_min]
  cases a.rank <;> cases b.rank <;> simp [carriedRank_min]

theorem round_of_eq {num den units : Nat} (negative : Bool) (h : f.nearest num den = units)
    (fits : f.Fits units) : round negative num den = finite negative units fits := by
  subst h
  unfold round ofUnits
  rw [dif_pos fits.2]

/-- A number survives the way into a finer format and back. -/
theorem convert_convert (h : f.Within g) (x : Number f) : (x.convert g).convert f = x := by
  cases x with
  | nan => rfl
  | infinite negative => rfl
  | finite negative units fits =>
    have hfine : g.nearest (units * Nat.pow 2 g.unitShift) (Nat.pow 2 f.unitShift) =
        units * Nat.pow 2 (g.unitShift - f.unitShift) := by
      rw [← h.rescale]
      exact g.nearest_mul (h.fits fits).1 (Nat.two_pow_pos _)
    have hback : f.nearest (units * Nat.pow 2 (g.unitShift - f.unitShift) *
        Nat.pow 2 f.unitShift) (Nat.pow 2 g.unitShift) = units := by
      rw [h.rescale]
      exact f.nearest_mul fits.1 (Nat.two_pow_pos _)
    simp only [convert, round_of_eq negative hfine (h.fits fits)]
    exact round_of_eq negative hback fits

theorem zero_eq : (0 : Number f) = zero false := by
  refine round_of_eq false ?_ f.zero_fits
  rw [Nat.zero_mul]
  exact f.nearest_zero 1 Nat.one_pos

theorem convert_zero : (0 : Number f).convert g = 0 := by
  rw [zero_eq, zero_eq]
  refine round_of_eq false ?_ g.zero_fits
  rw [Nat.zero_mul]
  exact g.nearest_zero _ (Nat.two_pow_pos _)

end Number

end Docking
