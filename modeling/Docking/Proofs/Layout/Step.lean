import Docking.Message
import Docking.Proofs.Layout.Plan

/-! What a message can do to a layout. `Step` lists every kind of change together with the facts
that allow it, so that an invariant is settled by its cases; `run` performs messages in turn. -/
namespace Docking

def Message.named? : Message → Option PanelId
  | .toggle id | .reveal id | .hide id | .setSize id _ | .resizeBy id _ | .setSlot id _
  | .move id _ _ => some id
  | .hideAll | .reset => none

namespace Layout

variable {l : Layout} {id : PanelId} {slot : Slot} {options : MoveOptions}

/-- The layout after the operation that a message asks for. -/
def perform (l : Layout) : Message → Layout
  | .toggle id => (l.toggle id).1
  | .reveal id => (l.reveal id).1
  | .hide id => (l.hide id).1
  | .setSize id size => (l.setSize id size).1
  | .resizeBy id delta => (l.resizeBy id delta).1
  | .setSlot id slot => (l.setSlot id slot).1
  | .move id slot options => (l.move id slot options).1
  | .hideAll => l.hideAll.1
  | .reset => l.reset.1

def run (l : Layout) (ms : List Message) : Layout := ms.foldl perform l

theorem handle_fst (l : Layout) (m : Message) : (l.handle m).1 = l.perform m := by
  cases m with
  | move id slot options =>
    simp only [handle, handleMove, perform]
    split <;> simp_all
  | _ => rfl

/-- Every panel out of sight where it is. -/
def concealAll (l : Layout) : Layout := { l with panels := l.panels.map Panel.concealed }

theorem panel?_concealAll (l : Layout) (id : PanelId) :
    l.concealAll.panel? id = (l.panel? id).map Panel.concealed :=
  List.find?_map ..

inductive Step (l : Layout) : Message → Layout → Prop
  | idle {m} : Step l m l
  | conceal {m id p} (hm : m = .toggle id ∨ m = .hide id) (hp : l.panel? id = some p)
      (hv : p.visible = true) : Step l m (l.modify id Panel.concealed)
  | reveal {m id p} (hm : m = .toggle id ∨ m = .reveal id) (hp : l.panel? id = some p)
      (hv : p.visible = false) (hfree : l.FreeFor p.slot id) :
      Step l m (l.modify id Panel.revealed)
  | resize {m id p old requested}
      (hm : m = .setSize id requested ∨ ∃ delta, m = .resizeBy id delta ∧ requested = old.add delta)
      (hp : l.panel? id = some p) (hs : p.size = some old) (hfin : requested.isFinite = true) :
      Step l m (l.modify id (Panel.resized requested))
  | assign {id slot p} (hp : l.panel? id = some p) (ha : p.placement.allows slot = true) :
      Step l (.setSlot id slot) (l.modify id (Panel.assigned slot))
  | land {id slot options p} (hp : l.panel? id = some p) (ha : p.placement.allows slot = true)
      (hfree : l.FreeFor slot id) :
      Step l (.move id slot options) (l.modify id (Panel.placed slot))
  | relocate {id slot options p o} (hp : l.panel? id = some p)
      (ha : p.placement.allows slot = true) (ho : l.occupant? slot id = some o)
      (hwin : options.force = true ∨ o.priority < p.priority)
      (hother : o.placement.preferred ≠ slot) (hseen : o.placement.preferred ≠ .hidden)
      (hroom : ∀ q, l.occupant? o.placement.preferred o.id = some q → q.id = id) :
      Step l (.move id slot options)
        ((l.modify id (Panel.placed slot)).modify o.id (Panel.placed o.placement.preferred))
  | evict {id slot options p o} (hp : l.panel? id = some p)
      (ha : p.placement.allows slot = true) (ho : l.occupant? slot id = some o)
      (hwin : options.force = true ∨ o.priority < p.priority) :
      Step l (.move id slot options)
        ((l.modify id (Panel.placed slot)).modify o.id Panel.concealed)
  | hideAll : Step l .hideAll l.concealAll
  | reset : Step l .reset (ofCatalogue l.catalogue)

variable {p : Panel}

theorem visible_iff : l.visible id = true ↔ ∃ p, l.panel? id = some p ∧ p.visible = true := by
  simp [visible, Option.any_eq_true]

theorem hide_of_visible (hp : l.panel? id = some p) (hv : p.visible = true) :
    l.hide id = (l.modify id Panel.concealed, true) := by
  unfold hide
  rw [if_pos (visible_iff.mpr ⟨p, hp, hv⟩)]
  rfl

theorem reveal_of_missing (hp : l.panel? id = none) : l.reveal id = (l, false) := by
  simp [reveal, hp]

theorem reveal_of_visible (hp : l.panel? id = some p) (hv : p.visible = true) :
    l.reveal id = (l, false) := by
  simp [reveal, hp, hv]

theorem reveal_of_free (hp : l.panel? id = some p) (hv : p.visible = false)
    (hfree : l.FreeFor p.slot id) : l.reveal id = (l.modify id Panel.revealed, true) := by
  simp only [reveal, hp, hv, occupant?_eq_none_iff.mpr hfree]
  rfl

theorem reveal_of_held (hp : l.panel? id = some p) (hheld : ¬ l.FreeFor p.slot id) :
    l.reveal id = (l, false) := by
  rw [← occupant?_eq_none_iff, ← ne_eq, ← Option.isSome_iff_ne_none] at hheld
  simp [reveal, hp, hheld]

theorem step_hide {m : Message} (hm : m = .toggle id ∨ m = .hide id) : Step l m (l.hide id).1 := by
  unfold hide
  split
  · next hv =>
    obtain ⟨p, hp, hv⟩ := visible_iff.mp hv
    exact .conceal hm hp hv
  · exact .idle

theorem step_reveal {m : Message} (hm : m = .toggle id ∨ m = .reveal id) :
    Step l m (l.reveal id).1 := by
  unfold reveal
  split
  · exact .idle
  · next p hp =>
    split
    · exact .idle
    · next h =>
      simp only [Bool.or_eq_true, not_or, Bool.not_eq_true, Option.isSome_eq_false_iff,
        Option.isNone_iff_eq_none] at h
      exact .reveal hm hp h.1 (occupant?_eq_none_iff.mp h.2)

theorem step_setSize {m : Message} {p : Panel} {old requested : Size}
    (hm : m = .setSize id requested ∨ ∃ delta, m = .resizeBy id delta ∧ requested = old.add delta)
    (hp : l.panel? id = some p) (hs : p.size = some old) :
    Step l m (l.setSize id requested).1 := by
  simp only [setSize, hp]
  split
  · exact .idle
  · next h =>
    simp only [Bool.or_eq_true, not_or, Bool.not_eq_true, Bool.not_eq_false'] at h
    split
    · exact .idle
    · exact .resize hm hp hs h.1

theorem step_move : Step l (.move id slot options) (l.move id slot options).1 := by
  unfold move
  cases hplan : l.plan id slot options with
  | error r => exact .idle
  | ok plan =>
    obtain ⟨p, hp, ha, ⟨hfree, rfl⟩ | ⟨o, ho, hwin, rfl⟩⟩ := plan_eq_ok hplan
    · exact .land hp ha hfree
    · rcases fate_cases l id slot o with ⟨hf, hother, hseen, hroom⟩ | hf
      · simp only [carryOut, hf, settle_relocated hseen]
        exact .relocate hp ha ho hwin hother hseen hroom
      · simp only [carryOut, settle, hf]
        exact .evict hp ha ho hwin

theorem step_perform (l : Layout) (m : Message) : Step l m (l.perform m) := by
  cases m with
  | toggle id =>
    simp only [perform, toggle]
    split
    · exact step_hide (.inl rfl)
    · exact step_reveal (.inl rfl)
  | reveal id => exact step_reveal (.inr rfl)
  | hide id => exact step_hide (.inr rfl)
  | setSize id requested =>
    cases hp : l.panel? id with
    | none =>
      simp only [perform, setSize, hp]
      exact .idle
    | some p =>
      cases hs : p.size with
      | none =>
        simp only [perform, setSize, hp, Panel.resizable, hs, Option.isSome_none, Bool.not_false,
          Bool.or_true, if_true]
        exact .idle
      | some old => exact step_setSize (.inl rfl) hp hs
  | resizeBy id delta =>
    simp only [perform, resizeBy]
    split
    · exact .idle
    · next old hs =>
      obtain ⟨p, hp, hs⟩ := Option.bind_eq_some_iff.mp hs
      exact step_setSize (.inr ⟨delta, rfl, rfl⟩) hp hs
  | setSlot id slot =>
    simp only [perform, setSlot]
    split
    · exact .idle
    · next p hp =>
      split
      · next h =>
        simp only [Bool.and_eq_true] at h
        exact .assign hp h.1
      · exact .idle
  | move id slot options => exact step_move
  | hideAll => exact .hideAll
  | reset => exact .reset

/-- A message about a panel that is not there changes nothing. -/
theorem perform_of_missing {m : Message} (hm : m.named? = some id) (hp : l.panel? id = none) :
    l.perform m = l := by
  cases m with
  | hideAll => simp [Message.named?] at hm
  | reset => simp [Message.named?] at hm
  | move id slot options =>
    obtain rfl := Option.some.inj hm
    simp [perform, move, plan_of_missing hp]
  | _ =>
    obtain rfl := Option.some.inj hm
    simp [perform, toggle, reveal, hide, visible, setSize, resizeBy, setSlot, hp]

theorem ofCatalogue_wellFormed {c : Catalogue} (h : c.ids.Nodup) : (ofCatalogue c).WellFormed :=
  ⟨List.map_map, h⟩

theorem WellFormed.concealAll (h : l.WellFormed) : l.concealAll.WellFormed :=
  ⟨List.map_map.trans h.1, h.2⟩

theorem WellFormed.step {m : Message} {after : Layout} (h : l.WellFormed) (hs : l.Step m after) :
    after.WellFormed := by
  cases hs with
  | idle => exact h
  | conceal => exact h.modify Panel.keepsId_concealed
  | reveal => exact h.modify Panel.keepsId_revealed
  | resize => exact h.modify (Panel.keepsId_resized _)
  | assign => exact h.modify (Panel.keepsId_assigned _)
  | land => exact h.modify (Panel.keepsId_placed _)
  | relocate => exact (h.modify (Panel.keepsId_placed _)).modify (Panel.keepsId_placed _)
  | evict => exact (h.modify (Panel.keepsId_placed _)).modify Panel.keepsId_concealed
  | hideAll => exact h.concealAll
  | reset => exact ofCatalogue_wellFormed h.2

/-- What the permitted messages keep, a run of them keeps. -/
theorem run_preserves (Inv : Layout → Prop) (permitted : Message → Prop)
    (hstep : ∀ l m, permitted m → Inv l → Inv (l.perform m)) {ms : List Message}
    (hms : ∀ m ∈ ms, permitted m) (h : Inv l) : Inv (l.run ms) := by
  induction ms generalizing l with
  | nil => exact h
  | cons m ms ih =>
    exact ih (fun m hm => hms m (List.mem_cons_of_mem _ hm))
      (hstep l m (hms m List.mem_cons_self) h)

end Layout

end Docking
