import Docking.Catalogue.Basic
import Mathlib.Tactic.Tauto

/-! Numbers compared by rank. Numbers of one rank are the same but for the sign of a zero, and their
sums have one rank. The larger and the smaller of two numbers are taken at their ranks, where what
is not a number gives way, and clamping into bounds twice is clamping once. -/
namespace Docking

namespace Number

variable {f : Format} {a b : Number f}

theorem rank_eq_none_iff : a.rank = none ↔ a.isNaN = true := by
  cases a with
  | nan => simp [isNaN, rank]
  | infinite negative => cases negative <;> simp [isNaN, rank]
  | finite negative units fits => cases negative <;> simp [isNaN, rank]

theorem isNaN_of_rank {k : Int} (h : a.rank = some k) : a.isNaN = false := by
  rw [← Bool.not_eq_true, ← rank_eq_none_iff, h]
  simp

theorem isNaN_eq_false_iff : a.isNaN = false ↔ ∃ k, a.rank = some k := by
  rw [← Option.isSome_iff_exists, ← Option.ne_none_iff_isSome, ne_eq, rank_eq_none_iff,
    Bool.not_eq_true]

theorem isFinite_iff : a.isFinite = true ↔ ∃ k : Int, a.rank = some k ∧ k.natAbs ≤ f.largest := by
  cases a with
  | nan => simp [isFinite, rank]
  | infinite negative =>
    cases negative
    · simp [isFinite, rank]
      omega
    · simp [isFinite, rank]
      omega
  | finite negative units fits =>
    have hle := fits.2
    cases negative <;> simp [isFinite, rank, hle]

theorem agrees_iff : (a == b) = true ↔ ∃ k, a.rank = some k ∧ b.rank = some k := by
  change agrees a b = true ↔ _
  unfold agrees
  cases a.rank with
  | none => simp
  | some x =>
    cases b.rank with
    | none => simp
    | some y =>
      simp only [beq_iff_eq, Option.some.injEq, exists_eq_left']
      exact eq_comm

/-- A number equals itself. -/
theorem beq_self (h : a.isNaN = false) : (a == a) = true := by
  obtain ⟨k, hk⟩ := isNaN_eq_false_iff.mp h
  exact agrees_iff.mpr ⟨k, hk, hk⟩

instance : PartialEquivBEq (Number f) where
  symm h := by
    obtain ⟨k, ha, hb⟩ := agrees_iff.mp h
    exact agrees_iff.mpr ⟨k, hb, ha⟩
  trans hab hbd := by
    obtain ⟨k, ha, hb⟩ := agrees_iff.mp hab
    obtain ⟨m, hm, hd⟩ := agrees_iff.mp hbd
    obtain rfl := Option.some.inj (hb.symm.trans hm)
    exact agrees_iff.mpr ⟨k, ha, hd⟩

theorem rank_finite (negative : Bool) (units : Nat) (fits : f.Fits units) :
    (finite negative units fits).rank = some (signed negative units) := by
  cases negative <;> rfl

theorem rank_infinite (negative : Bool) :
    (infinite negative : Number f).rank = some (signed negative (f.largest + 1)) := by
  cases negative <;> rfl

theorem rank_infinity : (infinite false : Number f).rank = some ((f.largest + 1 : Nat) : Int) := rfl

theorem rank_top : (top : Number f).rank = some (f.largest : Int) := rfl

theorem signed_inj {negative negative' : Bool} {units units' : Nat}
    (h : signed negative units = signed negative' units') (hne : units ≠ 0) :
    negative = negative' ∧ units = units' := by
  cases negative <;> cases negative' <;> simp [signed] at h ⊢ <;> omega

/-- Equal numbers are the same but for the sign of a zero. -/
theorem eq_or_eq_zero (h : (a == b) = true) : a = b ∨ ∃ negative, a = zero negative := by
  obtain ⟨k, ha, hb⟩ := agrees_iff.mp h
  have hrank := ha.trans hb.symm
  -- infinities rank one unit beyond the largest finite magnitude
  cases a with
  | nan => simp [rank] at ha
  | infinite negative =>
    cases b with
    | nan => simp [rank] at hb
    | infinite negative' =>
      rw [rank_infinite, rank_infinite, Option.some.injEq] at hrank
      obtain ⟨rfl, -⟩ := signed_inj hrank (Nat.succ_ne_zero _)
      exact .inl rfl
    | finite negative' units fits =>
      rw [rank_infinite, rank_finite, Option.some.injEq] at hrank
      obtain ⟨-, rfl⟩ := signed_inj hrank (Nat.succ_ne_zero _)
      exact absurd fits.2 (Nat.not_succ_le_self _)
  | finite negative units fits =>
    by_cases hzero : units = 0
    · subst hzero
      exact .inr ⟨negative, rfl⟩
    · cases b with
      | nan => simp [rank] at hb
      | infinite negative' =>
        rw [rank_infinite, rank_finite, Option.some.injEq] at hrank
        obtain ⟨-, rfl⟩ := signed_inj hrank hzero
        exact absurd fits.2 (Nat.not_succ_le_self _)
      | finite negative' units' fits' =>
        rw [rank_finite, rank_finite, Option.some.injEq] at hrank
        obtain ⟨rfl, rfl⟩ := signed_inj hrank hzero
        exact .inl rfl

theorem eq_nan_of_rank (h : a.rank = none) : a = nan := by
  cases a with
  | nan => rfl
  | infinite negative => cases negative <;> simp [rank] at h
  | finite negative units fits => cases negative <;> simp [rank] at h

theorem rank_zero_add (negative : Bool) (d : Number f) :
    ((zero negative).add d).rank = ((zero false).add d).rank := by
  cases d with
  | nan => rfl
  | infinite negative' => rfl
  | finite negative' units fits =>
    have hsigned : ∀ side, signed side 0 = 0 := by decide
    simp only [zero, add, hsigned]
    split
    · cases negative <;> cases negative' <;> rfl
    · rfl

/-- Sums of numbers of one value are of one value. -/
theorem rank_add_congr (h : a.rank = b.rank) (d : Number f) : (a.add d).rank = (b.add d).rank := by
  cases ha : a.rank with
  | none =>
    obtain rfl := eq_nan_of_rank ha
    obtain rfl := eq_nan_of_rank (h.symm.trans ha)
    rfl
  | some k =>
    have hb : b.rank = some k := h.symm.trans ha
    rcases eq_or_eq_zero (agrees_iff.mpr ⟨k, ha, hb⟩) with rfl | ⟨negative, rfl⟩
    · rfl
    · rcases eq_or_eq_zero (agrees_iff.mpr ⟨k, hb, ha⟩) with rfl | ⟨negative', rfl⟩
      · rfl
      · rw [rank_zero_add, rank_zero_add negative']

@[simp] theorem lt_self (a : Number f) : a.lt a = false := by
  unfold lt
  cases a.rank <;> simp

@[simp] theorem rank_max (a b : Number f) :
    (a.max b).rank = Option.merge Max.max a.rank b.rank := by
  unfold Number.max lt
  cases hb : b.rank with
  | none => simp [rank_eq_none_iff.mp hb]
  | some y =>
    have hnum := isNaN_of_rank hb
    cases ha : a.rank with
    | none => simp [hnum, hb]
    | some x =>
      simp only [hnum, Bool.false_eq_true, if_false, decide_eq_true_eq, Option.merge_some_some]
      split
      · rw [ha]
        congr 1
        omega
      · rw [hb]
        congr 1
        omega

@[simp] theorem rank_min (a b : Number f) :
    (a.min b).rank = Option.merge Min.min a.rank b.rank := by
  unfold Number.min lt
  cases hb : b.rank with
  | none => simp [rank_eq_none_iff.mp hb]
  | some y =>
    have hnum := isNaN_of_rank hb
    cases ha : a.rank with
    | none => simp [hnum, hb]
    | some x =>
      simp only [hnum, Bool.false_eq_true, if_false, decide_eq_true_eq, Option.merge_some_some]
      split
      · rw [ha]
        congr 1
        omega
      · rw [hb]
        congr 1
        omega

theorem isNaN_min (h : b.isNaN = false) (a : Number f) : (a.min b).isNaN = false := by
  obtain ⟨k, hk⟩ := isNaN_eq_false_iff.mp h
  rw [isNaN_eq_false_iff, rank_min, hk]
  cases a.rank <;> exact ⟨_, rfl⟩

theorem max_eq_left (h : b.isNaN = true ∨ b.lt a = true) : a.max b = a := by
  unfold Number.max
  rcases h with h | h <;> simp [h]

theorem max_eq_right (h : ¬ (b.isNaN = true ∨ b.lt a = true)) : a.max b = b := by
  simp_all [Number.max]

theorem min_eq_left (h : b.isNaN = true ∨ a.lt b = true) : a.min b = a := by
  unfold Number.min
  rcases h with h | h <;> simp [h]

theorem min_eq_right (h : ¬ (b.isNaN = true ∨ a.lt b = true)) : a.min b = b := by
  simp_all [Number.min]

theorem max_max_right (a b : Number f) : (a.max b).max b = a.max b := by
  by_cases h : b.isNaN = true ∨ b.lt a = true
  · rw [max_eq_left h, max_eq_left h]
  · rw [max_eq_right h]
    simp [Number.max]

/-- Between two ends taken as operands, whatever their order, a number is brought only once. -/
theorem max_min_idem (x lo hi : Number f) :
    (((x.max lo).min hi).max lo).min hi = (x.max lo).min hi := by
  by_cases h : hi.isNaN = true ∨ (x.max lo).lt hi = true
  · rw [min_eq_left h, max_max_right, min_eq_left h]
  · rw [min_eq_right h]
    by_cases hlo : lo.isNaN = true ∨ lo.lt hi = true
    · rw [max_eq_left hlo]
      simp [Number.min]
    · rw [max_eq_right hlo]
      refine min_eq_right ?_
      tauto

end Number

/-- A clamped size stays as it is, signs of zeros included. -/
theorem Bounds.clamp_clamp (b : Bounds) (x : Size) : b.clamp (b.clamp x) = b.clamp x :=
  Number.max_min_idem x _ _

end Docking
