import Docking.Proofs.Json.Spells
import Docking.Proofs.Number.Rounding

/-! Numbers of JSON texts are finite: a significand that fits its limit is, dividing by a power of
ten makes no number larger, and a product beyond the largest number is refused. -/
namespace Docking

namespace Format

variable {f : Format} {num den units : Nat}

theorem nearest_le_of_le (hfits : f.HasSignificand units) (hden : 0 < den)
    (h : num ≤ units * den) : f.nearest num den ≤ units :=
  (f.nearest_mono den h).trans (nearest_mul hfits hden).le

theorem le_nearest_of_le (hfits : f.HasSignificand units) (hden : 0 < den)
    (h : units * den ≤ num) : units ≤ f.nearest num den :=
  (nearest_mul hfits hden).ge.trans (f.nearest_mono den h)

end Format

namespace Number

variable {f : Format} {num den : Nat} {x y : Number f}

theorem isFinite_round (negative : Bool) (hden : 0 < den) (h : num ≤ f.largest * den) :
    (round negative num den : Number f).isFinite = true := by
  have hle := Format.nearest_le_of_le f.largest_fits.1 hden h
  unfold round ofUnits
  rw [dif_pos hle]
  rfl

theorem isFinite_neg (h : x.isFinite = true) : x.neg.isFinite = true := by
  cases x with
  | nan => exact h
  | infinite => exact h
  | finite => rfl

def AtLeastOne (x : Number f) : Prop :=
  ∃ negative units fits, x = finite negative units fits ∧ Nat.pow 2 f.unitShift ≤ units

theorem isFinite_div (hx : x.isFinite = true) (hy : y.AtLeastOne) :
    (x.div y).isFinite = true := by
  obtain ⟨b, v, hv, rfl, hone⟩ := hy
  have hpos : 0 < v := (Nat.two_pow_pos _).trans_le hone
  cases x with
  | nan => simp [isFinite] at hx
  | infinite => simp [isFinite] at hx
  | finite a u hu =>
    rw [div, if_neg hpos.ne']
    exact isFinite_round _ hpos (Nat.mul_le_mul hu.2 hone)

end Number

namespace Json

open Number

variable {cs rest : List Char} {w : Wide} {significand n : Nat}

/-- A whole number that is not beyond the largest one is read as a finite one. -/
theorem atLeastOne_ofNat (hpos : 0 < n)
    (h : n * Nat.pow 2 Format.double.unitShift ≤ Format.double.largest) :
    (Number.ofNat n : Wide).AtLeastOne := by
  have hone : Format.double.HasSignificand (Nat.pow 2 Format.double.unitShift) :=
    ⟨1, Format.double.unitShift, by decide +kernel, (Nat.one_mul _).symm⟩
  have hle := Format.nearest_le_of_le Format.double.largest_fits.1 Nat.one_pos
    (h.trans_eq (Nat.mul_one _).symm)
  refine ⟨false, _, ⟨Format.double.nearest_hasSignificand _ _, hle⟩, round_of_eq false rfl _,
    Format.le_nearest_of_le hone Nat.one_pos ?_⟩
  rw [Nat.mul_one]
  exact Nat.le_mul_of_pos_left _ hpos

theorem isFinite_of_atLeastOne {x : Wide} (h : x.AtLeastOne) : x.isFinite = true := by
  obtain ⟨negative, units, fits, rfl, -⟩ := h
  rfl

theorem isFinite_significand (h : significand ≤ significandLimit) :
    (Number.ofNat significand : Wide).isFinite = true := by
  rcases Nat.eq_zero_or_pos significand with rfl | hpos
  · exact isFinite_round false Nat.one_pos (by simp)
  · have hlimit : significandLimit * Nat.pow 2 Format.double.unitShift ≤ Format.double.largest := by
      decide +kernel
    exact isFinite_of_atLeastOne (atLeastOne_ofNat hpos ((Nat.mul_le_mul_right _ h).trans hlimit))

theorem atLeastOne_powerOfTen {exponent : Nat} (h : exponent ≤ 308) :
    (powerOfTen exponent).AtLeastOne := by
  have hpowers : ∀ e < 309,
      Nat.pow 10 e * Nat.pow 2 Format.double.unitShift ≤ Format.double.largest := by
    decide +kernel
  exact atLeastOne_ofNat (Nat.pow_pos (by decide)) (hpowers exponent (by omega))

theorem isFinite_divideDown {x : Wide} (h : x.isFinite = true) (fuel exponent : Nat) :
    (divideDown fuel x exponent).isFinite = true := by
  induction fuel generalizing x exponent with
  | zero => exact h
  | succ fuel ih =>
    rw [divideDown]
    split
    · next he => exact isFinite_div h (atLeastOne_powerOfTen he)
    · exact ih (isFinite_div h (atLeastOne_powerOfTen (Nat.le_refl 308))) _

theorem isFinite_scale {exponent : Int} (hs : significand ≤ significandLimit)
    (h : scale significand exponent = some w) : w.isFinite = true := by
  have hx := isFinite_significand hs
  unfold scale at h
  dsimp only at h
  split at h
  · obtain rfl := Option.some.inj h
    split
    · exact hx
    · exact isFinite_divideDown hx _ _
  · split at h
    · split at h
      · next hproduct =>
        obtain rfl := Option.some.inj h
        exact hproduct
      · simp at h
    · split at h
      · obtain rfl := Option.some.inj h
        exact hx
      · simp at h

theorem isFinite_scaleBy {places : Int} {negative : Bool} {exponent : Nat}
    (hs : significand ≤ significandLimit)
    (h : scaleBy significand places negative exponent = some w) : w.isFinite = true := by
  unfold scaleBy at h
  split at h
  · split at h
    · obtain rfl := Option.some.inj h
      rfl
    · simp at h
  · exact isFinite_scale hs h

theorem gather_le (hs : significand ≤ significandLimit) (digits : List Char) :
    (gather significand digits).1 ≤ significandLimit := by
  induction digits generalizing significand with
  | nil => exact hs
  | cons d digits ih =>
    rw [gather]
    split
    · next hnext => exact ih hnext
    · exact hs

/-- What comes out in front of the rest was made of what was read. -/
theorem exists_of_map_eq {α β γ : Type} {x : Option α} {f : α → β × γ} {b : β} {c : γ}
    (h : x.map f = some (b, c)) : ∃ a, x = some a ∧ (f a).1 = b := by
  obtain ⟨a, ha, heq⟩ := Option.map_eq_some_iff.mp h
  exact ⟨a, ha, congrArg Prod.fst heq⟩

theorem isFinite_readExponent {places : Int} (hs : significand ≤ significandLimit)
    (h : readExponent significand places cs = some (w, rest)) : w.isFinite = true := by
  unfold readExponent at h
  split at h
  · dsimp only at h
    split at h
    · split at h
      · simp at h
      · obtain ⟨x, hx, rfl⟩ := exists_of_map_eq h
        exact isFinite_scaleBy hs hx
    · obtain ⟨x, hx, rfl⟩ := exists_of_map_eq h
      exact isFinite_scale hs hx
  · obtain ⟨x, hx, rfl⟩ := exists_of_map_eq h
    exact isFinite_scale hs hx

theorem isFinite_readFraction {dropped : Nat} (hs : significand ≤ significandLimit)
    (h : readFraction significand dropped cs = some (w, rest)) : w.isFinite = true := by
  unfold readFraction at h
  split at h
  · dsimp only at h
    split at h
    · simp at h
    · exact isFinite_readExponent (gather_le hs _) h
  · exact isFinite_readExponent hs h

theorem isFinite_readMagnitude (h : readMagnitude cs = some (w, rest)) : w.isFinite = true := by
  rw [readMagnitude_eq] at h
  split at h
  · simp at h
  · exact isFinite_readFraction (gather_le (Nat.zero_le _) _) h

theorem isFinite_readNumber (h : readNumber cs = some (w, rest)) : w.isFinite = true := by
  rcases readNumber_cases h with ⟨ds, w', -, hread, rfl⟩ | ⟨-, hread⟩
  · exact isFinite_neg (isFinite_readMagnitude hread)
  · exact isFinite_readMagnitude hread

inductive Finite : Json → Prop
  | null : Finite .null
  | bool (value : Bool) : Finite (.bool value)
  | number {x : Wide} (h : x.isFinite = true) : Finite (.number x)
  | string (value : String) : Finite (.string value)
  | array {items : List Json} (h : ∀ item ∈ items, Finite item) : Finite (.array items)
  | object {members : List (String × Json)} (h : ∀ m ∈ members, Finite m.2) :
      Finite (.object members)

structure ReadsFinite (fuel : Nat) : Prop where
  value : ∀ {depth cs v rest}, readValue fuel depth cs = some (v, rest) → v.Finite
  items : ∀ {depth cs items rest}, readItems fuel depth cs = some (items, rest) →
    ∀ item ∈ items, item.Finite
  members : ∀ {depth cs members rest}, readMembers fuel depth cs = some (members, rest) →
    ∀ m ∈ members, m.2.Finite

theorem ReadsFinite.succ_value {fuel depth : Nat} {v : Json} (ih : ReadsFinite fuel)
    (h : readValue (fuel + 1) depth cs = some (v, rest)) : v.Finite := by
  rw [readValue] at h
  split at h
  · obtain ⟨x, -, rfl⟩ := exists_of_map_eq h
    exact .string _
  · split at h
    · simp at h
    · split at h
      · obtain ⟨rfl, -⟩ := Prod.mk.inj (Option.some.inj h)
        exact .array (by simp)
      · obtain ⟨x, hx, rfl⟩ := exists_of_map_eq h
        exact .array (ih.items hx)
  · split at h
    · simp at h
    · split at h
      · obtain ⟨rfl, -⟩ := Prod.mk.inj (Option.some.inj h)
        exact .object (by simp)
      · obtain ⟨x, hx, rfl⟩ := exists_of_map_eq h
        exact .object (ih.members hx)
  · obtain ⟨x, -, rfl⟩ := exists_of_map_eq h
    exact .bool _
  · obtain ⟨x, -, rfl⟩ := exists_of_map_eq h
    exact .bool _
  · obtain ⟨x, -, rfl⟩ := exists_of_map_eq h
    exact .null
  · obtain ⟨x, hx, rfl⟩ := exists_of_map_eq h
    exact .number (isFinite_readNumber hx)

theorem ReadsFinite.succ_items {fuel depth : Nat} {items : List Json} (ih : ReadsFinite fuel)
    (h : readItems (fuel + 1) depth cs = some (items, rest)) : ∀ item ∈ items, item.Finite := by
  rw [readItems] at h
  obtain ⟨⟨first, left⟩, hfirst, h⟩ := Option.bind_eq_some_iff.mp h
  dsimp only at h
  split at h
  · obtain ⟨⟨others, left'⟩, hothers, h⟩ := Option.bind_eq_some_iff.mp h
    obtain ⟨rfl, -⟩ := Prod.mk.inj (Option.some.inj h)
    exact List.forall_mem_cons.mpr ⟨ih.value hfirst, ih.items hothers⟩
  · obtain ⟨rfl, -⟩ := Prod.mk.inj (Option.some.inj h)
    exact List.forall_mem_singleton.mpr (ih.value hfirst)
  · simp at h

theorem ReadsFinite.succ_members {fuel depth : Nat} {members : List (String × Json)}
    (ih : ReadsFinite fuel) (h : readMembers (fuel + 1) depth cs = some (members, rest)) :
    ∀ m ∈ members, m.2.Finite := by
  rw [readMembers] at h
  split at h
  · obtain ⟨⟨key, left⟩, -, h⟩ := Option.bind_eq_some_iff.mp h
    dsimp only at h
    split at h
    · obtain ⟨⟨value, left'⟩, hvalue, h⟩ := Option.bind_eq_some_iff.mp h
      dsimp only at h
      split at h
      · obtain ⟨⟨others, left''⟩, hothers, h⟩ := Option.bind_eq_some_iff.mp h
        obtain ⟨rfl, -⟩ := Prod.mk.inj (Option.some.inj h)
        exact List.forall_mem_cons.mpr ⟨ih.value hvalue, ih.members hothers⟩
      · obtain ⟨rfl, -⟩ := Prod.mk.inj (Option.some.inj h)
        exact List.forall_mem_singleton.mpr (ih.value hvalue)
      · simp at h
    · simp at h
  · simp at h

theorem readsFinite (fuel : Nat) : ReadsFinite fuel := by
  induction fuel with
  | zero => constructor <;> intro _ _ _ _ h <;> simp [readValue, readItems, readMembers] at h
  | succ fuel ih => exact ⟨ih.succ_value, ih.succ_items, ih.succ_members⟩

/-- Every number of a JSON text is finite. -/
theorem finite_of_text {text : String} {value : Json} (h : ofText? text = some value) :
    value.Finite := by
  unfold ofText? at h
  dsimp only at h
  split at h
  · next hread =>
    split at h
    · obtain rfl := Option.some.inj h
      exact (readsFinite _).value hread
    · simp at h
  · simp at h

theorem Finite.member? {value field : Json} {key : String} (hv : value.Finite)
    (h : value.member? key = some field) : field.Finite := by
  cases hv with
  | object hmembers =>
    obtain ⟨m, hm, rfl⟩ := Option.map_eq_some_iff.mp h
    exact hmembers m (List.mem_reverse.mp (List.mem_of_find?_eq_some hm))
  | _ => simp [Json.member?] at h

theorem Finite.number? {value : Json} {x : Wide} (hv : value.Finite)
    (h : value.number? = some x) : x.isFinite = true := by
  cases hv with
  | number hx => rwa [← Option.some.inj h]
  | _ => simp [Json.number?] at h

theorem Finite.array? {value : Json} {items : List Json} (hv : value.Finite)
    (h : value.array? = some items) : ∀ item ∈ items, item.Finite := by
  cases hv with
  | array hitems => rwa [← Option.some.inj h]
  | _ => simp [Json.array?] at h

end Json

end Docking
