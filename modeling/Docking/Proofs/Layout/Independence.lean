import Docking.Proofs.Layout.Structure
import Docking.Proofs.Number.Rounding

/-! Placement and size do not interfere. What an operation on places does, and what it returns, does
not depend on any size, and it changes none; what an operation on sizes does and returns does not
depend on any place. So a run of both kinds comes apart into two runs of one kind each. -/
namespace Docking

namespace Message

/-- The message is about slots and visibility. A reset is of neither kind, since it changes both
halves of a panel. -/
def places : Message → Bool
  | toggle _ | reveal _ | hide _ | setSlot .. | move .. | hideAll => true
  | setSize .. | resizeBy .. | reset => false

def sizes : Message → Bool
  | setSize .. | resizeBy .. => true
  | _ => false

end Message

inductive Reply where
  | changed (flag : Bool)
  | outcome (result : Except MoveRejection MovePlan)

namespace Panel

/-- The panel without its size. -/
def unsized (p : Panel) : Panel := { p with size := none }

/-- What is left of the panel without its place, with the measure of its size. -/
def weighed {α : Type} (μ : Size → α) (p : Panel) : PanelId × Bounds × Option α :=
  (p.id, p.bounds, p.size.map μ)

end Panel

namespace Layout

variable {α : Type} {μ : Size → α} {c : Catalogue} {l n after : Layout} {id : PanelId}
  {p q : Panel} {change : Panel → Panel} {msg : Message}

def reply (l : Layout) : Message → Reply
  | .toggle id => .changed (l.toggle id).2
  | .reveal id => .changed (l.reveal id).2
  | .hide id => .changed (l.hide id).2
  | .setSize id size => .changed (l.setSize id size).2
  | .resizeBy id delta => .changed (l.resizeBy id delta).2
  | .setSlot id slot => .changed (l.setSlot id slot).2
  | .move id slot options => .outcome (l.move id slot options).2
  | .hideAll => .changed l.hideAll.2
  | .reset => .changed l.reset.2

def replies (l : Layout) : List Message → List (Message × Reply)
  | [] => []
  | m :: ms => (m, l.reply m) :: (l.perform m).replies ms

/-- The relation holds between layouts that look the same to the messages seen: these reply alike
and keep it, and a message that is permitted and not seen keeps it on its own. -/
structure Unwinds (R : Layout → Layout → Prop) (permitted : Message → Prop)
    (seen : Message → Bool) : Prop where
  silent : ∀ {l n m}, permitted m → seen m = false → R l n → R (l.perform m) n
  seen : ∀ {l n m}, seen m = true → R l n →
    l.reply m = n.reply m ∧ R (l.perform m) (n.perform m)

/-- The messages seen reply in a run as they do when they are alone. -/
theorem Unwinds.run {R : Layout → Layout → Prop} {permitted : Message → Prop}
    {seen : Message → Bool} (h : Unwinds R permitted seen) {ms : List Message}
    (hms : ∀ m ∈ ms, permitted m) (hR : R l n) :
    (l.replies ms).filter (fun r => seen r.1) = n.replies (ms.filter seen) ∧
      R (l.run ms) (n.run (ms.filter seen)) := by
  induction ms generalizing l n with
  | nil => exact ⟨rfl, hR⟩
  | cons m ms ih =>
    obtain ⟨hm, hms⟩ := List.forall_mem_cons.mp hms
    cases hseen : seen m with
    | false =>
      have hrest := ih hms (h.silent hm hseen hR)
      rwa [List.filter_cons_of_neg (by simp [hseen]), replies,
        List.filter_cons_of_neg (by simp [hseen])]
    | true =>
      obtain ⟨hreply, hstep⟩ := h.seen hseen hR
      obtain ⟨hreplies, hrun⟩ := ih hms hstep
      rw [List.filter_cons_of_pos hseen, replies, List.filter_cons_of_pos (by simpa using hseen)]
      exact ⟨by rw [replies, hreply, hreplies], hrun⟩

/-! The half of a layout that operations on places see. -/

def unsized (l : Layout) : Layout := { l with panels := l.panels.map Panel.unsized }

theorem panel?_unsized (l : Layout) (id : PanelId) :
    l.unsized.panel? id = (l.panel? id).map Panel.unsized := List.find?_map ..

theorem visible_unsized (l : Layout) (id : PanelId) : l.unsized.visible id = l.visible id := by
  unfold visible
  rw [panel?_unsized, Option.any_map]
  rfl

theorem occupant?_unsized (l : Layout) (slot : Slot) (id : PanelId) :
    l.unsized.occupant? slot id = (l.occupant? slot id).map Panel.unsized := by
  unfold occupant?
  split
  · exact List.find?_map ..
  · rfl

theorem unsized_modify (l : Layout) (id : PanelId) (change : Panel → Panel)
    (h : ∀ p, (change p).unsized = change p.unsized) :
    (l.modify id change).unsized = l.unsized.modify id change := by
  have hpanel : ∀ p : Panel, (if p.id = id then change p else p).unsized =
      if p.unsized.id = id then change p.unsized else p.unsized := by
    intro p
    rw [apply_ite Panel.unsized, h]
    rfl
  simp only [unsized, modify, List.map_map, Function.comp_def, hpanel]

theorem unsized_modify_of_eq (l : Layout) (id : PanelId)
    (h : ∀ p, (change p).unsized = p.unsized) : (l.modify id change).unsized = l.unsized := by
  have hpanel : ∀ p : Panel, (if p.id = id then change p else p).unsized = p.unsized := by
    intro p
    rw [apply_ite Panel.unsized, h, ite_self]
  simp only [unsized, modify, List.map_map, Function.comp_def, hpanel]

theorem hide_unsized (l : Layout) (id : PanelId) :
    l.unsized.hide id = ((l.hide id).1.unsized, (l.hide id).2) := by
  unfold hide
  rw [visible_unsized]
  split
  · exact Prod.ext (unsized_modify l id Panel.concealed fun _ => rfl).symm rfl
  · rfl

theorem reveal_unsized (l : Layout) (id : PanelId) :
    l.unsized.reveal id = ((l.reveal id).1.unsized, (l.reveal id).2) := by
  unfold reveal
  rw [panel?_unsized]
  cases l.panel? id with
  | none => rfl
  | some p =>
    simp only [Option.map_some, Panel.unsized, occupant?_unsized, Option.isSome_map]
    split
    · rfl
    · exact Prod.ext (unsized_modify l id Panel.revealed fun _ => rfl).symm rfl

theorem toggle_unsized (l : Layout) (id : PanelId) :
    l.unsized.toggle id = ((l.toggle id).1.unsized, (l.toggle id).2) := by
  unfold toggle
  rw [visible_unsized]
  split
  · exact hide_unsized l id
  · exact reveal_unsized l id

theorem setSlot_unsized (l : Layout) (id : PanelId) (slot : Slot) :
    l.unsized.setSlot id slot = ((l.setSlot id slot).1.unsized, (l.setSlot id slot).2) := by
  unfold setSlot
  rw [panel?_unsized]
  cases l.panel? id with
  | none => rfl
  | some p =>
    simp only [Option.map_some, Panel.unsized]
    split
    · exact Prod.ext (unsized_modify l id (Panel.assigned slot) fun _ => rfl).symm rfl
    · rfl

theorem hideAll_unsized (l : Layout) :
    l.unsized.hideAll = (l.hideAll.1.unsized, l.hideAll.2) := by
  simp only [hideAll, unsized, List.map_map, List.any_map]
  rfl

theorem fate_unsized (l : Layout) (target : PanelId) (contested : Slot) (o : Panel) :
    l.unsized.fate target contested o.unsized = l.fate target contested o := by
  simp only [fate, occupant?_unsized, Option.all_map]
  rfl

/-- Planning looks at no size. -/
theorem plan_unsized (l : Layout) (id : PanelId) (slot : Slot) (options : MoveOptions) :
    l.unsized.plan id slot options = l.plan id slot options := by
  unfold plan
  rw [panel?_unsized]
  cases l.panel? id with
  | none => rfl
  | some p =>
    simp only [Option.map_some, occupant?_unsized, Option.isNone_map]
    cases l.occupant? slot id with
    | none => rfl
    | some o =>
      simp only [Option.map_some, fate_unsized]
      rfl

theorem settle_unsized (l : Layout) (d : Displacement) :
    l.unsized.settle d = (l.settle d).unsized := by
  unfold settle
  cases d.fate with
  | relocated slot =>
    exact (unsized_modify l d.panel (fun p => { p with slot := slot, visible := true })
      fun _ => rfl).symm
  | hidden => exact (unsized_modify l d.panel Panel.concealed fun _ => rfl).symm

theorem carryOut_unsized (l : Layout) (plan : MovePlan) :
    l.unsized.carryOut plan = (l.carryOut plan).unsized := by
  have hmoved := unsized_modify l plan.target (Panel.placed plan.slot) fun _ => rfl
  unfold carryOut
  cases plan.displaced with
  | none => exact hmoved.symm
  | some d => exact (congrArg (fun l => settle l d) hmoved.symm).trans (settle_unsized _ d)

theorem move_unsized (l : Layout) (id : PanelId) (slot : Slot) (options : MoveOptions) :
    l.unsized.move id slot options =
      ((l.move id slot options).1.unsized, (l.move id slot options).2) := by
  unfold move
  rw [plan_unsized]
  cases l.plan id slot options with
  | error rejection => rfl
  | ok plan => exact Prod.ext (carryOut_unsized l plan) rfl

/-- Operations on places do to a layout without sizes what they do to the layout. -/
theorem perform_unsized (hm : msg.places = true) :
    l.unsized.perform msg = (l.perform msg).unsized ∧ l.unsized.reply msg = l.reply msg := by
  cases msg with
  | toggle id => simp only [perform, reply, toggle_unsized, and_self]
  | reveal id => simp only [perform, reply, reveal_unsized, and_self]
  | hide id => simp only [perform, reply, hide_unsized, and_self]
  | setSlot id slot => simp only [perform, reply, setSlot_unsized, and_self]
  | move id slot options => simp only [perform, reply, move_unsized, and_self]
  | hideAll => simp only [perform, reply, hideAll_unsized, and_self]
  | setSize | resizeBy | reset => simp [Message.places] at hm

/-- Operations on sizes change nothing but sizes. -/
theorem unsized_step (hs : l.Step msg after) (hm : msg.sizes = true) :
    after.unsized = l.unsized := by
  cases hs with
  | idle => rfl
  | conceal hnamed => rcases hnamed with rfl | rfl <;> simp [Message.sizes] at hm
  | reveal hnamed => rcases hnamed with rfl | rfl <;> simp [Message.sizes] at hm
  | resize => exact unsized_modify_of_eq l _ fun _ => rfl
  | assign | land | relocate | evict | hideAll | reset => simp [Message.sizes] at hm

/-! The half that operations on sizes see. A measure says how much of a size is looked at. -/

/-- The measure determines the value of a size, and what it gives of a clamped size and of a sum. -/
structure Gauges (μ : Size → α) : Prop where
  rank : ∀ {x y : Size}, μ x = μ y → x.rank = y.rank
  clamp : ∀ {x y : Size} (b : Bounds), μ x = μ y → μ (b.clamp x) = μ (b.clamp y)
  add : ∀ {x y : Size} (delta : Size), μ x = μ y → μ (x.add delta) = μ (y.add delta)

/-- Whole sizes, the signs of zeros among them. -/
theorem gauges_whole : Gauges fun x : Size => x where
  rank := congrArg Number.rank
  clamp := fun b => congrArg b.clamp
  add := fun delta => congrArg fun x : Size => x.add delta

/-- Values alone. -/
theorem gauges_rank : Gauges (Number.rank : Size → Option Int) where
  rank := fun h => h
  clamp := by
    intro x y b h
    simp only [Bounds.clamp, Number.rank_min, Number.rank_max, h]
  add := fun delta h => Number.rank_add_congr h delta

def weighed (μ : Size → α) (l : Layout) : List (PanelId × Bounds × Option α) :=
  l.panels.map (Panel.weighed μ)

theorem find?_weighed (μ : Size → α) (l : Layout) (id : PanelId) :
    ((l.weighed μ).find? fun w => w.1 = id) = (l.panel? id).map (Panel.weighed μ) :=
  List.find?_map ..

/-- Operations on places leave names, bounds and sizes alone. -/
theorem weighed_modify_of_eq (l : Layout) (id : PanelId)
    (h : ∀ p, (change p).weighed μ = p.weighed μ) :
    (l.modify id change).weighed μ = l.weighed μ := by
  have hpanel : ∀ p : Panel, (if p.id = id then change p else p).weighed μ = p.weighed μ := by
    intro p
    rw [apply_ite (Panel.weighed μ), h, ite_self]
  simp only [weighed, modify, List.map_map, Function.comp_def, hpanel]

theorem weighed_step (μ : Size → α) (hs : l.Step msg after) (hm : msg.places = true) :
    after.weighed μ = l.weighed μ := by
  cases hs with
  | idle => rfl
  | conceal | reveal | assign | land => exact weighed_modify_of_eq l _ fun _ => rfl
  | resize hnamed => rcases hnamed with rfl | ⟨delta, rfl, -⟩ <;> simp [Message.places] at hm
  | relocate | evict =>
    refine (weighed_modify_of_eq _ _ ?_).trans (weighed_modify_of_eq l _ ?_)
    · exact fun _ => rfl
    · exact fun _ => rfl
  | hideAll => exact List.map_map
  | reset => simp [Message.places] at hm

theorem weighed_resized (l : Layout) (id : PanelId) (requested : Size) :
    (l.modify id (Panel.resized requested)).weighed μ = (l.weighed μ).map fun w =>
      if w.1 = id then (w.1, w.2.1, some (μ (w.2.1.clamp requested))) else w := by
  simp only [weighed, modify, List.map_map]
  refine List.map_congr_left fun p _ => ?_
  simp only [Function.comp_apply, apply_ite (Panel.weighed μ)]
  rfl

theorem weighed_inj (h : p.weighed μ = q.weighed μ) :
    p.id = q.id ∧ p.bounds = q.bounds ∧ p.size.map μ = q.size.map μ := by
  simpa [Panel.weighed] using h

theorem Gauges.isFinite (hμ : Gauges μ) {x y : Size} (h : μ x = μ y) :
    x.isFinite = y.isFinite := by
  rw [Bool.eq_iff_iff, Number.isFinite_iff, Number.isFinite_iff, hμ.rank h]

theorem Gauges.beq (hμ : Gauges μ) {size size' : Option Size} {x y : Size}
    (h : size.map μ = size'.map μ) (hxy : μ x = μ y) : (size == some x) = (size' == some y) := by
  cases size with
  | none =>
    obtain rfl : size' = none := by simpa using h.symm
    rfl
  | some old =>
    obtain ⟨old', rfl, hold⟩ := Option.map_eq_some_iff.mp h.symm
    have hbeq : (old == x) = (old' == y) := by
      rw [Bool.eq_iff_iff, Number.agrees_iff, Number.agrees_iff, hμ.rank hold, hμ.rank hxy]
    exact hbeq

/-- Requests of one measure do the same to sizes of one measure. -/
theorem Gauges.setSize (hμ : Gauges μ) (h : l.weighed μ = n.weighed μ) (id : PanelId)
    {requested requested' : Size} (hr : μ requested = μ requested') :
    (l.setSize id requested).2 = (n.setSize id requested').2 ∧
      (l.setSize id requested).1.weighed μ = (n.setSize id requested').1.weighed μ := by
  have hlook : (l.panel? id).map (Panel.weighed μ) = (n.panel? id).map (Panel.weighed μ) := by
    rw [← find?_weighed, ← find?_weighed, h]
  have hresized : (l.modify id (Panel.resized requested)).weighed μ =
      (n.modify id (Panel.resized requested')).weighed μ := by
    simp only [weighed_resized, h, hμ.clamp _ hr]
  unfold Layout.setSize
  cases hp : l.panel? id with
  | none =>
    rw [hp, Option.map_none, eq_comm, Option.map_eq_none_iff] at hlook
    rw [hlook]
    exact ⟨rfl, h⟩
  | some p =>
    rw [hp, Option.map_some, eq_comm] at hlook
    obtain ⟨q, hq, hpq⟩ := Option.map_eq_some_iff.mp hlook
    obtain ⟨-, hbounds, hsize⟩ := weighed_inj hpq
    have hresizable : q.resizable = p.resizable := by
      rw [Panel.resizable, ← Option.isSome_map, hsize, Option.isSome_map]
      rfl
    have hsame := hμ.beq hsize.symm (hμ.clamp p.bounds hr)
    simp only [hq, hbounds, hμ.isFinite hr, hresizable, hsame]
    split
    · exact ⟨rfl, h⟩
    · split
      · exact ⟨rfl, h⟩
      · exact ⟨rfl, hresized⟩

def size? (l : Layout) (id : PanelId) : Option Size := (l.panel? id).bind Panel.size

theorem map_size?_eq (μ : Size → α) (l : Layout) (id : PanelId) : (l.size? id).map μ =
    ((l.weighed μ).find? fun w => w.1 = id).bind fun w => w.2.2 := by
  rw [find?_weighed, size?, Option.map_bind, Option.bind_map]
  rfl

theorem Gauges.resizeBy (hμ : Gauges μ) (h : l.weighed μ = n.weighed μ) (id : PanelId)
    (delta : Size) : (l.resizeBy id delta).2 = (n.resizeBy id delta).2 ∧
      (l.resizeBy id delta).1.weighed μ = (n.resizeBy id delta).1.weighed μ := by
  have hsize : (l.size? id).map μ = (n.size? id).map μ := by
    rw [map_size?_eq, map_size?_eq, h]
  unfold size? at hsize
  unfold Layout.resizeBy
  cases hl : (l.panel? id).bind Panel.size with
  | none =>
    rw [hl, Option.map_none, eq_comm, Option.map_eq_none_iff] at hsize
    rw [hsize]
    exact ⟨rfl, h⟩
  | some old =>
    rw [hl, Option.map_some, eq_comm] at hsize
    obtain ⟨old', hn, hold⟩ := Option.map_eq_some_iff.mp hsize
    rw [hn]
    exact hμ.setSize h id (hμ.add delta hold.symm)

/-- Operations on sizes reply by names, bounds and sizes alone, and change sizes by these alone. -/
theorem Gauges.perform (hμ : Gauges μ) (h : l.weighed μ = n.weighed μ) (hm : msg.sizes = true) :
    l.reply msg = n.reply msg ∧ (l.perform msg).weighed μ = (n.perform msg).weighed μ := by
  cases msg with
  | setSize id size =>
    obtain ⟨hflag, hafter⟩ := hμ.setSize h id (rfl : μ size = μ size)
    exact ⟨congrArg Reply.changed hflag, hafter⟩
  | resizeBy id delta =>
    obtain ⟨hflag, hafter⟩ := hμ.resizeBy h id delta
    exact ⟨congrArg Reply.changed hflag, hafter⟩
  | _ => simp [Message.sizes] at hm

/-! Layouts over one catalogue differ in places and sizes only. -/

structure Over (c : Catalogue) (l : Layout) : Prop where
  catalogue : l.catalogue = c
  wellFormed : l.WellFormed
  owned : ∀ p ∈ l.panels, ∃ s ∈ c.specs, p.id = s.id ∧ p.bounds = s.bounds ∧
    p.placement = s.placement ∧ p.priority = s.priority

theorem Structured.over (h : Structured c l) : Over c l where
  catalogue := h.catalogue
  wellFormed := h.wellFormed
  owned := by
    intro p hp
    obtain ⟨s, hs, hf⟩ := h.follows p hp
    exact ⟨s, hs, hf.id, hf.bounds, hf.placement, hf.priority⟩

/-- What the catalogue owns of a panel is the same in both layouts. -/
theorem Over.exists_twin (hl : Over c l) (hn : Over c n) (hp : l.panel? id = some p) :
    ∃ q, n.panel? id = some q ∧ p.id = q.id ∧ p.bounds = q.bounds ∧ p.placement = q.placement ∧
      p.priority = q.priority := by
  obtain ⟨s, hs, hid, hbounds, hplacement, hpriority⟩ := hl.owned p (mem_of_panel? hp)
  have hmem : id ∈ n.catalogue.ids := by
    rw [hn.catalogue, ← panel?_id hp, hid]
    exact List.mem_map_of_mem hs
  cases hq : n.panel? id with
  | none => exact absurd hmem (hn.wellFormed.panel?_eq_none_iff.mp hq)
  | some q =>
    obtain ⟨t, ht, hid', hbounds', hplacement', hpriority'⟩ := hn.owned q (mem_of_panel? hq)
    have hpq : p.id = q.id := (panel?_id hp).trans (panel?_id hq).symm
    have hnodup : c.ids.Nodup := hl.catalogue ▸ hl.wellFormed.2
    obtain rfl : s = t :=
      List.inj_on_of_nodup_map hnodup hs ht (hid.symm.trans (hpq.trans hid'))
    exact ⟨q, rfl, hpq, hbounds.trans hbounds'.symm, hplacement.trans hplacement'.symm,
      hpriority.trans hpriority'.symm⟩

theorem Over.panel?_eq_none_iff (hl : Over c l) : l.panel? id = none ↔ id ∉ c.ids := by
  rw [hl.wellFormed.panel?_eq_none_iff, hl.catalogue]

theorem WellFormed.unsized (h : l.WellFormed) : l.unsized.WellFormed :=
  ⟨List.map_map.trans h.1, h.2⟩

theorem standing_unsized (l : Layout) (id : PanelId) :
    l.unsized.standing id = l.standing id := by
  rw [standing, panel?_unsized, Option.map_map]
  rfl

theorem Over.unsized_eq (hl : Over c l) (hn : Over c n)
    (h : ∀ id, l.standing id = n.standing id) : l.unsized = n.unsized := by
  refine hl.wellFormed.unsized.ext hn.wellFormed.unsized (hl.catalogue.trans hn.catalogue.symm) ?_
  intro id
  rw [panel?_unsized, panel?_unsized]
  cases hp : l.panel? id with
  | none => rw [hn.panel?_eq_none_iff.mpr (hl.panel?_eq_none_iff.mp hp)]
  | some p =>
    obtain ⟨q, hq, hid, hbounds, hplacement, hpriority⟩ := hl.exists_twin hn hp
    have hplace := h id
    simp only [standing, hp, hq, Option.map_some, Option.some.injEq, Prod.mk.injEq] at hplace
    simp only [hq, Option.map_some, Panel.unsized, hid, hbounds, hplacement, hpriority, hplace.1,
      hplace.2]

theorem Over.weighed_eq (hl : Over c l) (hn : Over c n)
    (h : ∀ id, (l.size? id).map μ = (n.size? id).map μ) : l.weighed μ = n.weighed μ := by
  rw [weighed, weighed, hl.wellFormed.panels_eq, hn.wellFormed.panels_eq, hl.catalogue,
    hn.catalogue, List.map_filterMap, List.map_filterMap]
  refine List.filterMap_congr fun id _ => ?_
  cases hp : l.panel? id with
  | none => rw [hn.panel?_eq_none_iff.mpr (hl.panel?_eq_none_iff.mp hp)]
  | some p =>
    obtain ⟨q, hq, hid, hbounds, -, -⟩ := hl.exists_twin hn hp
    have hsize := h id
    simp only [size?, hp, hq, Option.bind_some] at hsize
    simp only [hq, Option.map_some, Panel.weighed, hid, hbounds, hsize]

theorem unwinds_unsized : Unwinds (fun l n => l.unsized = n.unsized)
    (fun m => m.places = true ∨ m.sizes = true) Message.places where
  silent := by
    intro l n m hm hseen h
    have hsizes : m.sizes = true := hm.resolve_left (by simp [hseen])
    exact (unsized_step (step_perform l m) hsizes).trans h
  seen := by
    intro l n m hseen h
    obtain ⟨hl, hlreply⟩ := perform_unsized (l := l) hseen
    obtain ⟨hn, hnreply⟩ := perform_unsized (l := n) hseen
    exact ⟨by rw [← hlreply, ← hnreply, h], by rw [← hl, ← hn, h]⟩

theorem Gauges.unwinds (hμ : Gauges μ) : Unwinds (fun l n => l.weighed μ = n.weighed μ)
    (fun m => m.places = true ∨ m.sizes = true) Message.sizes where
  silent := by
    intro l n m hm hseen h
    have hplaces : m.places = true := hm.resolve_right (by simp [hseen])
    exact (weighed_step μ (step_perform l m) hplaces).trans h
  seen := fun hseen h => hμ.perform h hseen

theorem Gauges.run (hμ : Gauges μ) (hl : Over c l) (hn : Over c n)
    (h : ∀ id, (l.size? id).map μ = (n.size? id).map μ) {ms : List Message}
    (hms : ∀ m ∈ ms, m.places = true ∨ m.sizes = true) :
    (l.replies ms).filter (fun r => r.1.sizes) = n.replies (ms.filter Message.sizes) ∧
      ∀ id, ((l.run ms).size? id).map μ = ((n.run (ms.filter Message.sizes)).size? id).map μ := by
  obtain ⟨hreplies, hrun⟩ := hμ.unwinds.run hms (hl.weighed_eq hn h)
  refine ⟨hreplies, fun id => ?_⟩
  rw [map_size?_eq, map_size?_eq, hrun]

/-- Whatever operations on places and on sizes are mixed in a run, those on places reply and leave
slots and visibility as they do when run alone, from any layout over the same catalogue with the
same slots and visibility; and those on sizes reply and leave sizes as they do when run alone, from
any layout over the same catalogue with the same sizes, be it sizes to the sign of a zero or sizes
as values. -/
theorem run_halves {c : Catalogue} {l : Layout} (hl : Over c l) {ms : List Message}
    (hms : ∀ m ∈ ms, m.places = true ∨ m.sizes = true) :
    (∀ n, Over c n → (∀ id, l.standing id = n.standing id) →
      (l.replies ms).filter (fun r => r.1.places) = n.replies (ms.filter Message.places) ∧
        ∀ id, (l.run ms).standing id = (n.run (ms.filter Message.places)).standing id) ∧
    (∀ n, Over c n → (∀ id, l.size? id = n.size? id) →
      (l.replies ms).filter (fun r => r.1.sizes) = n.replies (ms.filter Message.sizes) ∧
        ∀ id, (l.run ms).size? id = (n.run (ms.filter Message.sizes)).size? id) ∧
    ∀ n, Over c n → (∀ id, (l.size? id).map Number.rank = (n.size? id).map Number.rank) →
      (l.replies ms).filter (fun r => r.1.sizes) = n.replies (ms.filter Message.sizes) ∧
        ∀ id, ((l.run ms).size? id).map Number.rank =
          ((n.run (ms.filter Message.sizes)).size? id).map Number.rank := by
  refine ⟨?_, ?_, ?_⟩
  · intro n hn hplace
    obtain ⟨hreplies, hrun⟩ := unwinds_unsized.run hms (hl.unsized_eq hn hplace)
    refine ⟨hreplies, fun id => ?_⟩
    rw [← standing_unsized (l.run ms), hrun, standing_unsized]
  · intro n hn hsize
    simpa using gauges_whole.run hl hn (by simpa using hsize) hms
  · intro n hn hsize
    exact gauges_rank.run hl hn hsize hms

/-- Docs forced in on the left and grown, and the file tree that pushes them back to the right. -/
def mixedRun : List Message :=
  [.move .docs .left .forced, .resizeBy .docs 1000, .setSize .fileTree 333, .reveal .fileTree,
    .move .fileTree .left ⟨false⟩, .setSize .commandPalette 10, .move .terminal .center .forced,
    .resizeBy .docs (Number.neg 50), .hide .docs]

theorem run_halves_mixedRun :
    Over .builtin (ofCatalogue .builtin) ∧
    (∀ m ∈ mixedRun, m.places = true ∨ m.sizes = true) ∧
    (∀ id, ((ofCatalogue .builtin).run mixedRun).standing id =
      (((ofCatalogue .builtin).run [.setSize .docs 700]).run
        (mixedRun.filter Message.places)).standing id) ∧
    ∀ id, ((ofCatalogue .builtin).run mixedRun).size? id =
      (((ofCatalogue .builtin).run [.reveal .search]).run
        (mixedRun.filter Message.sizes)).size? id := by
  have hover : ∀ ms : List Message, Over .builtin ((ofCatalogue .builtin).run ms) := fun ms =>
    ((Reachable.fresh.run ms).structured Catalogue.builtin_valid).over
  have hms : ∀ m ∈ mixedRun, m.places = true ∨ m.sizes = true := by decide
  obtain ⟨hplaces, hsizes, -⟩ := run_halves (hover []) hms
  refine ⟨hover [], hms, ?_, ?_⟩
  · exact (hplaces _ (hover [.setSize .docs 700]) fun id => by cases id <;> rfl).2
  · exact (hsizes _ (hover [.reveal .search]) fun id => by cases id <;> rfl).2

end Layout

end Docking
