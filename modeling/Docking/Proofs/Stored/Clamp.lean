import Docking.Proofs.Layout.Reachable
import Docking.Proofs.Catalogue.Obtainable
import Docking.Proofs.Number.Rounding

/-! Stored sizes are clamped before they are rounded, live sizes are clamped as they are. Both ways
agree on the sizes a layout can hold: what is stored of a clamped size, read back, is that size. -/
namespace Docking

open Number

namespace Bounds

variable {b : Bounds} {x y : Size}

/-- Clamping as stored sizes are clamped, where an absent upper bound is the largest size. -/
def clampFinite (b : Bounds) (x : Size) : Size :=
  (x.max (b.lower.getD 0)).min (b.upper.getD Number.top)

theorem rank_clampFinite_congr (h : x.rank = y.rank) :
    (b.clampFinite x).rank = (b.clampFinite y).rank := by
  simp only [clampFinite, rank_min, rank_max, h]

theorem clampFinite_clampFinite (b : Bounds) (x : Size) :
    b.clampFinite (b.clampFinite x) = b.clampFinite x :=
  max_min_idem x _ _

/-- Rounding after clamping is clamping after rounding. The number read may lie just outside the
bounds that its rounding keeps. -/
theorem rank_clampWide (b : Bounds) (x : Wide) :
    (b.clampWide x).rank = (b.clampFinite (x.convert .single)).rank := by
  have hlower : ((b.lower.map (convert .double)).getD 0 : Wide).convert .single =
      b.lower.getD 0 := by
    cases b.lower with
    | none => exact convert_zero
    | some lower => exact convert_convert Format.single_within_double lower
  have hupper : ((b.upper.getD Number.top).convert .double).convert .single =
      b.upper.getD Number.top := convert_convert Format.single_within_double _
  unfold clampWide clampFinite
  rw [rank_convert_min, rank_min, rank_convert_max, hlower, hupper, rank_min]

/-- The size is one that clamping leaves alone, or it is not finite. -/
def Holds (b : Bounds) (x : Size) : Prop :=
  x.isFinite = true → (b.clampFinite x).rank = x.rank

theorem holds_clamp (b : Bounds) (x : Size) : b.Holds (b.clamp x) := by
  intro hfinite
  have hidem := congrArg rank (b.clamp_clamp x)
  generalize b.clamp x = y at hfinite hidem
  obtain ⟨k, hk, hle⟩ := isFinite_iff.mp hfinite
  unfold clamp at hidem
  unfold clampFinite
  cases hu : b.upper with
  | some upper => simpa [hu] using hidem
  | none =>
    -- the absent bound is infinite on one side and the largest size on the other
    simp only [hu, Option.getD_none, rank_min, rank_max, hk, Number.rank_top, rank_infinity]
      at hidem ⊢
    cases hl : (b.lower.getD 0).rank with
    | none =>
      simp only [hl, Option.merge_none_right, Option.merge_some_some, Option.some.injEq] at hidem ⊢
      omega
    | some lower =>
      simp only [hl, Option.merge_some_some, Option.some.injEq] at hidem ⊢
      omega

theorem holds_clampWide (b : Bounds) (x : Wide) : b.Holds (b.clampWide x) := by
  intro _
  have hrank := b.rank_clampWide x
  rw [rank_clampFinite_congr hrank, clampFinite_clampFinite, hrank]

end Bounds

namespace Layout

variable {c : Catalogue} {l : Layout}

structure Clamped (c : Catalogue) (l : Layout) : Prop where
  catalogue : l.catalogue = c
  holds : ∀ p ∈ l.panels, ∀ x, p.size = some x → p.bounds.Holds x

theorem givenSizes_holds (hc : c.Valid) : GivenSizes Bounds.Holds c where
  entry := by
    intro s hs x hx
    rw [← hc.clamp_size hs hx]
    exact s.bounds.holds_clamp x
  requested := fun s _ x _ => s.bounds.holds_clamp x
  stored := fun s _ x _ => s.bounds.holds_clampWide x

/-- A size of a session is clamped already, however it was stored and restored before. -/
theorem Reachable.clamped (hl : Reachable c l) (hc : c.Valid) : Clamped c l := by
  have hsized := hl.sized (givenSizes_holds hc)
  refine ⟨hsized.catalogue, fun p hp x hx => ?_⟩
  obtain ⟨s, -, hbounds, hholds⟩ := hsized.panels p hp
  exact hbounds ▸ hholds x hx

end Layout

end Docking
