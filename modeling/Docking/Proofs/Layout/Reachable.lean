import Docking.Proofs.Layout.Step
import Docking.Stored

/-! The layouts a session can come to: the catalogue's own or one restored from any text, and from
there whatever messages lead to. An invariant of them needs three facts, one for the start, one for
a stored panel laid over, and one for a step. Sizes come from the entries of the catalogue, from
requests that are finite and from stored numbers; what holds of every size so given, under the
bounds of its entry, holds of every size in every layout of a session. -/
namespace Docking

namespace Layout

variable {c : Catalogue} {l after : Layout} {id : PanelId} {Inv : Layout → Prop}
  {P : Bounds → Size → Prop}

inductive Reachable (c : Catalogue) : Layout → Prop
  | fresh : Reachable c (ofCatalogue c)
  | restored (text : String) : Reachable c (restore c text)
  | performed {l : Layout} (m : Message) (h : Reachable c l) : Reachable c (l.perform m)

theorem hideEach_preserves (hhide : ∀ l id, Inv l → Inv (l.hide id).1) (ids : List PanelId)
    (h : Inv l) : Inv (l.hideEach ids) := by
  induction ids generalizing l with
  | nil => exact h
  | cons id ids ih => exact ih (hhide l id h)

theorem thin_preserves (hhide : ∀ l id, Inv l → Inv (l.hide id).1) (slots : List Slot)
    (h : Inv l) : Inv (l.thin slots).1 := by
  induction slots generalizing l with
  | nil => exact h
  | cons slot slots ih => exact ih (hideEach_preserves hhide _ h)

theorem overlaid_preserves (hoverlay : ∀ l stored, Inv l → Inv (l.overlay stored))
    (h : Inv (ofCatalogue c)) (items : List Json) : Inv (overlaid c items) := by
  unfold overlaid
  generalize ofCatalogue c = l at h
  induction items generalizing l with
  | nil => exact h
  | cons item items ih => exact ih _ (hoverlay l item h)

theorem restore_preserves (hoverlay : ∀ l stored, Inv l → Inv (l.overlay stored))
    (hhide : ∀ l id, Inv l → Inv (l.hide id).1) (h : Inv (ofCatalogue c)) (text : String) :
    Inv (restore c text) := by
  unfold restore
  split
  · exact thin_preserves hhide _ (overlaid_preserves hoverlay h _)
  · exact h

/-- Hiding panels in crowded docks needs no fact of its own, since it is what a message does. -/
theorem Reachable.preserves (hl : Reachable c l)
    (hoverlay : ∀ l stored, Inv l → Inv (l.overlay stored))
    (hstep : ∀ l m after, Inv l → Step l m after → Inv after) (h : Inv (ofCatalogue c)) :
    Inv l := by
  induction hl with
  | fresh => exact h
  | restored text =>
    exact restore_preserves hoverlay (fun l id hi => hstep l _ _ hi (step_hide (.inr rfl))) h text
  | performed m _ ih => exact hstep _ m _ ih (step_perform _ m)

theorem Reachable.run (hl : Reachable c l) (ms : List Message) : Reachable c (l.run ms) := by
  induction ms generalizing l with
  | nil => exact hl
  | cons m ms ih => exact ih (.performed m hl)

/-- A stored panel is laid over the panel it names, if there is one. -/
theorem overlay_cases (l : Layout) (stored : Json) : l.overlay stored = l ∨
    ∃ id, (storedName? stored).bind PanelId.ofName? = some id ∧
      l.overlay stored = l.modify id fun p => p.overlay stored := by
  unfold overlay
  split
  · next id hid => exact .inr ⟨id, hid, rfl⟩
  · exact .inl rfl

/-- Under the bounds of each entry the property holds of the entry's own size, of requests that
have been clamped, and of stored numbers that have been. -/
structure GivenSizes (P : Bounds → Size → Prop) (c : Catalogue) : Prop where
  entry : ∀ s ∈ c.specs, ∀ x, s.size = some x → P s.bounds x
  requested : ∀ s ∈ c.specs, ∀ x : Size, x.isFinite = true → P s.bounds (s.bounds.clamp x)
  stored : ∀ s ∈ c.specs, ∀ x : Wide, x.isFinite = true → P s.bounds (s.bounds.clampWide x)

structure Sized (P : Bounds → Size → Prop) (c : Catalogue) (l : Layout) : Prop where
  catalogue : l.catalogue = c
  panels : ∀ p ∈ l.panels, ∃ s ∈ c.specs, p.bounds = s.bounds ∧
    ∀ x, p.size = some x → P s.bounds x

theorem sized_ofCatalogue (hP : GivenSizes P c) : Sized P c (ofCatalogue c) where
  catalogue := rfl
  panels := by
    intro p hp
    obtain ⟨s, hs, rfl⟩ := List.mem_map.mp hp
    exact ⟨s, hs, rfl, hP.entry s hs⟩

/-- A change that leaves bounds alone need only be looked at where it gives another size. -/
theorem Sized.modify (h : Sized P c l) {change : Panel → Panel}
    (hb : ∀ p, (change p).bounds = p.bounds)
    (hsize : ∀ p, ∀ s ∈ c.specs, p.bounds = s.bounds → ∀ x, (change p).size = some x →
      p.size = some x ∨ P s.bounds x) : Sized P c (l.modify id change) where
  catalogue := h.catalogue
  panels := by
    intro q hq
    rcases mem_modify hq with ⟨p, hp, -, rfl⟩ | ⟨hq, -⟩
    · obtain ⟨s, hs, hbounds, hold⟩ := h.panels p hp
      refine ⟨s, hs, (hb p).trans hbounds, fun x hx => ?_⟩
      rcases hsize p s hs hbounds x hx with hx | hnew
      · exact hold x hx
      · exact hnew
    · exact h.panels q hq

/-- A change that leaves sizes alone too is not looked at. -/
theorem Sized.modify_of_eq (h : Sized P c l) {change : Panel → Panel}
    (hb : ∀ p, (change p).bounds = p.bounds) (hs : ∀ p, (change p).size = p.size) :
    Sized P c (l.modify id change) :=
  h.modify hb fun p _ _ _ _ hx => .inl ((hs p).symm.trans hx)

theorem Sized.conceal (h : Sized P c l) (id : PanelId) : Sized P c (l.modify id Panel.concealed) :=
  h.modify_of_eq (fun _ => rfl) fun _ => rfl

theorem Sized.place (h : Sized P c l) (id : PanelId) (slot : Slot) :
    Sized P c (l.modify id (Panel.placed slot)) :=
  h.modify_of_eq (fun _ => rfl) fun _ => rfl

theorem Sized.overlay (hP : GivenSizes P c) (h : Sized P c l) (stored : Json) :
    Sized P c (l.overlay stored) := by
  rcases overlay_cases l stored with heq | ⟨id, -, heq⟩
  · rwa [heq]
  · rw [heq]
    refine h.modify (fun _ => rfl) fun p s hs hb x hx => ?_
    simp only [Panel.overlay, Panel.overlaySize] at hx
    split at hx
    · next size w hsize _ =>
      split at hx
      · next hfinite =>
        obtain rfl := Option.some.inj hx
        exact .inr (hb ▸ hP.stored s hs w hfinite)
      · exact .inl (hsize.trans hx)
    · exact .inl hx

theorem Sized.step (hP : GivenSizes P c) {m : Message} (h : Sized P c l) (hs : l.Step m after) :
    Sized P c after := by
  cases hs with
  | idle => exact h
  | conceal => exact h.conceal _
  | reveal => exact h.modify_of_eq (fun _ => rfl) fun _ => rfl
  | @resize _ _ _ _ requested _ _ _ hfinite =>
    refine h.modify (fun _ => rfl) fun p s hs hb x hx => .inr ?_
    obtain rfl := Option.some.inj hx
    exact hb ▸ hP.requested s hs requested hfinite
  | assign => exact h.modify_of_eq (fun _ => rfl) fun _ => rfl
  | land => exact h.place _ _
  | relocate => exact (h.place _ _).place _ _
  | evict => exact (h.place _ _).conceal _
  | hideAll =>
    refine ⟨h.catalogue, fun p hp => ?_⟩
    obtain ⟨q, hq, rfl⟩ := List.mem_map.mp hp
    exact h.panels q hq
  | reset =>
    rw [h.catalogue]
    exact sized_ofCatalogue hP

/-- What holds of every size given to a session holds of every size in it. -/
theorem Reachable.sized (hl : Reachable c l) (hP : GivenSizes P c) : Sized P c l :=
  hl.preserves (fun _ stored h => h.overlay hP stored) (fun _ _ _ h hs => h.step hP hs)
    (sized_ofCatalogue hP)

end Layout

end Docking
