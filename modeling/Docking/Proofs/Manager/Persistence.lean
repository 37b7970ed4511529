import Docking.Proofs.Manager.Run
import Docking.Proofs.Stored.RoundTrip

/-! What a run of requests leaves in the store. Where sizes agree as values they are the same but
for the sign of a zero, and zeros of both signs survive in text; so a layout comes back from the
text of any layout it agrees with. As long as nothing changes, the store is the one the run began
with; from the first change on it holds the text of a layout that agrees with the live one, and so a
manager started on it goes on where this one stopped. -/
namespace Docking

namespace Number

variable {f : Format} {a b : Number f}

theorem survives_zero (negative : Bool) : Survives (zero negative) := by
  cases negative <;> decide +kernel

theorem Survives.of_beq {x y : Size} (hy : y.Survives) (h : (x == y) = true) : x.Survives := by
  rcases eq_or_eq_zero h with rfl | ⟨negative, rfl⟩
  · exact hy
  · exact survives_zero negative

theorem isFinite_of_beq {x y : Size} (hy : y.isFinite = true) (h : (x == y) = true) :
    x.isFinite = true := by
  rcases eq_or_eq_zero h with rfl | ⟨negative, rfl⟩
  · exact hy
  · rfl

end Number

open Number

namespace Layout

variable {c : Catalogue} {l m : Layout}

/-- What a size needs in order to be stored, it shares with every size it equals. -/
theorem Agrees.sizes_storable (h : l.Agrees m)
    (hsizes : ∀ p ∈ m.panels, ∀ x ∈ p.size, x.isFinite = true ∧ x.Survives) :
    ∀ p ∈ l.panels, ∀ x ∈ p.size, x.isFinite = true ∧ x.Survives := by
  intro p hp x hx
  obtain ⟨q, hq, hpq⟩ := h.exists_panel hp
  obtain ⟨y, hy, hxy⟩ := exists_of_size_beq (hx ▸ hpq.size)
  obtain ⟨hfinite, hsurvives⟩ := hsizes q hq y hy
  exact ⟨isFinite_of_beq hfinite hxy, hsurvives.of_beq hxy⟩

/-- A conflict-free layout comes back from the text of any layout of a session it agrees with. -/
theorem Agrees.restore (h : l.Agrees m) (hc : c.Valid) (hl : Reachable c l) (hfree : m.ConflictFree)
    (hsizes : ∀ p ∈ m.panels, ∀ x ∈ p.size, x.isFinite = true ∧ x.Survives) :
    (restore c l.storedText).Agrees m := by
  have hstored := h.sizes_storable hsizes
  have hread : storedPanels l.storedText = .ok l.storedItems :=
    storedPanels_storedText fun p hp x hx => (hstored p hp x hx).2
  have hlaid := (overlaid_storedItems hc (hl.structured hc) (hl.clamped hc) hstored).trans h
  simp only [Layout.restore, hread, (hlaid.conflictFree hfree).thinDocks_eq]
  exact hlaid

end Layout

namespace Manager

variable {σ : Type} [Store σ] {c : Catalogue} {m : Manager σ}

/-- Every save that a run of requests asks for succeeds. -/
def SavesSucceed : Manager σ → List Request → Prop
  | _, [] => True
  | m, r :: rs => (∀ message ∈ r.message?, m.SaveSucceeds message) ∧ (m.perform r).SavesSucceed rs

def Changes : Manager σ → List Request → Prop
  | _, [] => False
  | m, r :: rs => m.layout.Differs (m.perform r).layout ∨ (m.perform r).Changes rs

/-- The store holds the text of a layout of the session that agrees with the live one. -/
def Stored (c : Catalogue) (m : Manager σ) : Prop :=
  ∃ l, Layout.Reachable c l ∧ l.Agrees m.layout ∧ Store.read m.store storageKey = some l.storedText

/-- What a run with a change has stored agrees with where it ends, since the requests after the last
change agree with it in turn. -/
theorem run_cases [ReadsBack σ] (hc : c.Valid) (hn : c.Numeric) {rs : List Request}
    (hl : Layout.Reachable c m.layout) (hw : m.SavesSucceed rs) :
    (m.Changes rs ∧ Stored c (m.run rs)) ∨
    (¬ m.Changes rs ∧ m.layout.Agrees (m.run rs).layout ∧ (m.run rs).store = m.store) := by
  induction rs generalizing m with
  | nil => exact .inr ⟨not_false, (hl.numeric hn).agrees_self, rfl⟩
  | cons r rs ih =>
    obtain ⟨hfirst, hrest⟩ := hw
    have hnext := reachable_perform hl r
    rcases ih hnext hrest with ⟨hchanges, hstored⟩ | ⟨hquiet, hagrees, hstore⟩
    · exact .inl ⟨.inr hchanges, hstored⟩
    · rcases perform_cases hc hn hl hfirst with ⟨hdiff, hread⟩ | ⟨hsame, hkept⟩
      · -- nothing changed after the first request, so its text is what the store still holds
        have hstored : Store.read ((m.perform r).run rs).store storageKey =
            some (m.perform r).layout.storedText := hstore ▸ hread
        exact .inl ⟨.inl hdiff, _, hnext, hagrees, hstored⟩
      · exact .inr
          ⟨not_or.mpr ⟨hsame.not_differs, hquiet⟩, hsame.trans hagrees, hstore.trans hkept⟩

theorem layout_start_of_read {store : σ} {text : String}
    (h : Store.read store storageKey = some text) : (start c store).layout = .restore c text := by
  simp only [start, h]

/-- A manager started on what is stored has the live layout, provided that it can be stored. -/
theorem Stored.restart (h : Stored c m) (hc : c.Valid) (hfree : m.layout.ConflictFree)
    (hsizes : ∀ p ∈ m.layout.panels, ∀ x ∈ p.size, x.isFinite = true ∧ x.Survives) :
    (start c m.store).layout.Agrees m.layout := by
  obtain ⟨l, hl, hagrees, hread⟩ := h
  rw [layout_start_of_read hread]
  exact hagrees.restore hc hl hfree hsizes

/-- Whatever was stored at first, after any requests whose saves succeed the store holds the text of
a layout that agrees with the live one, if some request changed the layout, and is else untouched.
Started again on that store, a manager has the live layout back, provided that no dock is in
conflict and the sizes are finite and survive in text. -/
theorem run_start_persistence {c : Catalogue} (hc : c.Obtainable) (hn : c.Numeric) {σ : Type}
    [Store σ] [ReadsBack σ] (store : σ) (rs : List Request)
    (hw : (start c store).SavesSucceed rs) :
    ((start c store).Changes rs → ∃ l : Layout, l.Agrees ((start c store).run rs).layout ∧
      Store.read ((start c store).run rs).store storageKey = some l.storedText) ∧
    (¬ (start c store).Changes rs → ((start c store).run rs).store = store) ∧
    (((start c store).run rs).layout.ConflictFree →
      (∀ p ∈ ((start c store).run rs).layout.panels, ∀ x ∈ p.size,
        x.isFinite = true ∧ x.Survives) →
      (start c ((start c store).run rs).store).layout.Agrees ((start c store).run rs).layout) := by
  rcases run_cases hc.valid hn (reachable_start c store) hw with
    ⟨hchanges, hstored⟩ | ⟨hquiet, hagrees, hstore⟩
  · obtain ⟨l, -, hl⟩ := id hstored
    exact ⟨fun _ => ⟨l, hl⟩, fun hquiet => absurd hchanges hquiet, hstored.restart hc.valid⟩
  · refine ⟨fun hchanges => absurd hchanges hquiet, fun _ => hstore, fun _ _ => ?_⟩
    rwa [hstore]

/-- A store in memory never refuses a save. -/
theorem savesSucceed_memory (m : Manager MemoryStore) (rs : List Request) : m.SavesSucceed rs := by
  induction rs generalizing m with
  | nil => trivial
  | cons r rs ih => exact ⟨fun _ _ _ => rfl, ih _⟩

/-- The terminal at a size that no binary fraction equals, docs moved by name, and a name that no
panel has. -/
def errands : List Request :=
  [.request (.reveal .terminal), .dispatch (.setSize .terminal (.ofDecimal false 3331 (-1))),
    .moveNamed "docs" .left .forced, .moveNamed "clock" .left .forced, .move .search .right .forced]

def errandsRun : Manager MemoryStore := (start .builtin .empty).run errands

theorem run_start_persistence_errands :
    (start .builtin MemoryStore.empty).SavesSucceed errands ∧ errandsRun.layout.ConflictFree ∧
      (∀ p ∈ errandsRun.layout.panels, ∀ x ∈ p.size, x.isFinite = true ∧ x.Survives) ∧
      (start .builtin errandsRun.store).layout.Agrees errandsRun.layout := by
  have hw : (start .builtin MemoryStore.empty).SavesSucceed errands := savesSucceed_memory _ _
  have hfree : errandsRun.layout.ConflictFree := by decide +kernel
  have hsizes : ∀ p ∈ errandsRun.layout.panels, ∀ x ∈ p.size,
      x.isFinite = true ∧ x.Survives := by decide +kernel
  obtain ⟨-, -, hrestart⟩ :=
    run_start_persistence .builtin Catalogue.builtin_numeric MemoryStore.empty errands hw
  exact ⟨hw, hfree, hsizes, hrestart hfree hsizes⟩

end Manager

end Docking
