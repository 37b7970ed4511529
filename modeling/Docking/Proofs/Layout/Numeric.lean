import Docking.Proofs.Layout.Reachable
import Docking.Proofs.Number.Rounding

/-! Sizes that are numbers. A clamped size is a number if the bounds are, so over a catalogue whose
fields are numbers a session never has a size that is not one, and every size equals itself. -/
namespace Docking

open Number

structure Bounds.Numeric (b : Bounds) : Prop where
  lower : ∀ x ∈ b.lower, x.isNaN = false
  upper : ∀ x ∈ b.upper, x.isNaN = false

namespace Bounds

variable {b : Bounds}

instance (b : Bounds) : Decidable b.Numeric :=
  decidable_of_iff ((∀ x ∈ b.lower, x.isNaN = false) ∧ ∀ x ∈ b.upper, x.isNaN = false)
    ⟨fun h => ⟨h.1, h.2⟩, fun h => ⟨h.lower, h.upper⟩⟩

theorem Numeric.isNaN_clamp (h : b.Numeric) (x : Size) : (b.clamp x).isNaN = false := by
  refine isNaN_min ?_ _
  cases hu : b.upper with
  | none => rfl
  | some upper => exact h.upper upper hu

theorem Numeric.isNaN_clampWide (h : b.Numeric) (x : Wide) : (b.clampWide x).isNaN = false := by
  unfold clampWide
  rw [isNaN_convert]
  refine isNaN_min ?_ _
  rw [isNaN_convert]
  cases hu : b.upper with
  | none => rfl
  | some upper => exact h.upper upper hu

theorem Numeric.beq_self (h : b.Numeric) : (b == b) = true := by
  obtain ⟨lower, upper⟩ := b
  have hlower : (lower == lower) = true := by
    cases lower with
    | none => rfl
    | some x => exact Number.beq_self (h.lower x rfl)
  have hupper : (upper == upper) = true := by
    cases upper with
    | none => rfl
    | some x => exact Number.beq_self (h.upper x rfl)
  exact Bool.and_eq_true _ _ ▸ ⟨hlower, hupper⟩

end Bounds

def Catalogue.Numeric (c : Catalogue) : Prop :=
  ∀ s ∈ c.specs, s.bounds.Numeric ∧ ∀ x ∈ s.size, x.isNaN = false

theorem Catalogue.builtin_numeric : Catalogue.builtin.Numeric := by
  unfold Catalogue.Numeric
  decide +kernel

namespace Layout

variable {c : Catalogue} {l : Layout}

structure Numeric (l : Layout) : Prop where
  bounds : ∀ p ∈ l.panels, p.bounds.Numeric
  size : ∀ p ∈ l.panels, ∀ x, p.size = some x → x.isNaN = false

theorem Reachable.numeric (hl : Reachable c l) (hn : c.Numeric) : l.Numeric := by
  have hgiven : GivenSizes (fun _ x => x.isNaN = false) c :=
    { entry := fun s hs x hx => (hn s hs).2 x hx
      requested := fun s hs x _ => (hn s hs).1.isNaN_clamp x
      stored := fun s hs x _ => (hn s hs).1.isNaN_clampWide x }
  have hsized := hl.sized hgiven
  constructor
  · intro p hp
    obtain ⟨s, hs, hbounds, -⟩ := hsized.panels p hp
    exact hbounds ▸ (hn s hs).1
  · intro p hp x hx
    obtain ⟨s, -, -, hsize⟩ := hsized.panels p hp
    exact hsize x hx

theorem Numeric.size_beq_self (h : l.Numeric) {p : Panel} (hp : p ∈ l.panels) :
    (p.size == p.size) = true := by
  cases hx : p.size with
  | none => rfl
  | some x => exact Number.beq_self (h.size p hp x hx)

end Layout

end Docking
