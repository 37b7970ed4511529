import Docking.Proofs.Layout.Step

/-! Protection by priority. What other panels are asked to do leaves a panel alone, as long as they
are moved without force and none of those moved is of higher priority: only the occupant whose
priority was compared gives way, and nobody gives way to that occupant in turn. -/
namespace Docking

def Layout.priority? (l : Layout) (id : PanelId) : Option Int := (l.panel? id).map Panel.priority

/-- The message names one panel, another than this one. If it is a move, it is not forced, and its
target is of no higher priority. -/
def Message.yieldsTo (l : Layout) (p : Panel) (m : Message) : Bool :=
  m.named?.any (fun id => id ≠ p.id) &&
    match m with
    | .move id _ options =>
      !options.force && (l.priority? id).all fun priority => priority ≤ p.priority
    | _ => true

namespace Layout

variable {l after : Layout} {m : Message} {id other : PanelId} {slot : Slot} {options : MoveOptions}
  {p q : Panel} {change : Panel → Panel}

theorem yieldsTo_congr (h : ∀ id, l.priority? id = after.priority? id) (m : Message) :
    m.yieldsTo l p = m.yieldsTo after p := by
  cases m with
  | move id slot options => simp only [Message.yieldsTo, h]
  | _ => rfl

theorem ne_of_yieldsTo (hm : m.yieldsTo l p = true) (hnamed : m.named? = some id) : id ≠ p.id := by
  unfold Message.yieldsTo at hm
  rw [hnamed, Bool.and_eq_true] at hm
  exact of_decide_eq_true hm.1

theorem le_of_yieldsTo (hm : (Message.move id slot options).yieldsTo l p = true)
    (hq : l.panel? id = some q) : options.force = false ∧ q.priority ≤ p.priority := by
  simp only [Message.yieldsTo, priority?, hq, Option.map_some, Option.all_some, Bool.and_eq_true,
    Bool.not_eq_true', decide_eq_true_eq] at hm
  exact hm.2

theorem priority?_modify (hk : KeepsId change) (h : ∀ p, (change p).priority = p.priority) :
    (l.modify id change).priority? other = l.priority? other := by
  unfold priority?
  rw [panel?_modify hk]
  split
  · rw [Option.map_map]
    exact congrArg (fun f => (l.panel? other).map f) (funext h)
  · rfl

/-- No message but a reset changes a priority. -/
theorem priority?_step (hs : l.Step m after) (hm : m ≠ .reset) (other : PanelId) :
    after.priority? other = l.priority? other := by
  cases hs with
  | idle => rfl
  | conceal => exact priority?_modify Panel.keepsId_concealed fun _ => rfl
  | reveal => exact priority?_modify Panel.keepsId_revealed fun _ => rfl
  | resize => exact priority?_modify (Panel.keepsId_resized _) fun _ => rfl
  | assign => exact priority?_modify (Panel.keepsId_assigned _) fun _ => rfl
  | land => exact priority?_modify (Panel.keepsId_placed _) fun _ => rfl
  | relocate =>
    rw [priority?_modify (Panel.keepsId_placed _) fun _ => rfl]
    exact priority?_modify (Panel.keepsId_placed _) fun _ => rfl
  | evict =>
    rw [priority?_modify Panel.keepsId_concealed fun _ => rfl]
    exact priority?_modify (Panel.keepsId_placed _) fun _ => rfl
  | hideAll =>
    rw [priority?, panel?_concealAll, Option.map_map]
    rfl
  | reset => exact absurd rfl hm

/-- An occupant that gives way without force is of lower priority than the target, so it is no panel
that the move yields to. -/
theorem WellFormed.ne_of_displaced (h : l.WellFormed) {t o : Panel} (hp : p ∈ l.panels)
    (ht : l.panel? id = some t) (ho : l.occupant? slot id = some o)
    (hwin : options.force = true ∨ o.priority < t.priority)
    (hm : (Message.move id slot options).yieldsTo l p = true) : o.id ≠ p.id := by
  obtain ⟨hforce, hle⟩ := le_of_yieldsTo hm ht
  have hlower : o.priority < t.priority := hwin.resolve_left (by simp [hforce])
  intro hid
  obtain ⟨-, hmem, -⟩ := occupant?_eq_some ho
  obtain rfl := h.eq_of_id_eq (mem_holders.mp hmem).1 hp hid
  omega

/-- A step leaves a panel exactly as it is if its message yields to the panel. -/
theorem WellFormed.panel?_step (h : l.WellFormed) (hp : l.panel? id = some p)
    (hs : l.Step m after) (hm : m.yieldsTo l p = true) : after.panel? id = some p := by
  have hid := panel?_id hp
  subst hid
  have hmem := mem_of_panel? hp
  cases hs with
  | idle => exact hp
  | conceal hnamed =>
    have hne := ne_of_yieldsTo hm (by rcases hnamed with rfl | rfl <;> rfl)
    rwa [panel?_modify_of_ne Panel.keepsId_concealed hne.symm]
  | reveal hnamed =>
    have hne := ne_of_yieldsTo hm (by rcases hnamed with rfl | rfl <;> rfl)
    rwa [panel?_modify_of_ne Panel.keepsId_revealed hne.symm]
  | resize hnamed =>
    have hne := ne_of_yieldsTo hm (by rcases hnamed with rfl | ⟨delta, rfl, -⟩ <;> rfl)
    rwa [panel?_modify_of_ne (Panel.keepsId_resized _) hne.symm]
  | assign =>
    have hne := ne_of_yieldsTo hm rfl
    rwa [panel?_modify_of_ne (Panel.keepsId_assigned _) hne.symm]
  | land =>
    have hne := ne_of_yieldsTo hm rfl
    rwa [panel?_modify_of_ne (Panel.keepsId_placed _) hne.symm]
  | relocate ht _ ho hwin =>
    have hne := ne_of_yieldsTo hm rfl
    have hother := h.ne_of_displaced hmem ht ho hwin hm
    rw [panel?_modify_of_ne (Panel.keepsId_placed _) hother.symm]
    rwa [panel?_modify_of_ne (Panel.keepsId_placed _) hne.symm]
  | evict ht _ ho hwin =>
    have hne := ne_of_yieldsTo hm rfl
    have hother := h.ne_of_displaced hmem ht ho hwin hm
    rw [panel?_modify_of_ne Panel.keepsId_concealed hother.symm]
    rwa [panel?_modify_of_ne (Panel.keepsId_placed _) hne.symm]
  | hideAll => simp [Message.yieldsTo, Message.named?] at hm
  | reset => simp [Message.yieldsTo, Message.named?] at hm

/-- A panel is at the end of a run exactly as it was at the start, if every message of the run names
another panel, none is a message to all panels, and every move is unforced and of a panel of no
higher priority. Docks may be crowded. -/
theorem run_spares {l : Layout} (h : l.WellFormed) {id : PanelId} {p : Panel}
    (hp : l.panel? id = some p) {ms : List Message} (hms : ∀ m ∈ ms, m.yieldsTo l p = true) :
    (l.run ms).panel? id = some p := by
  have hrun := run_preserves
    (fun after => after.WellFormed ∧ (∀ other, after.priority? other = l.priority? other) ∧
      after.panel? id = some p)
    (fun m => m.yieldsTo l p = true) ?_ hms ⟨h, fun _ => rfl, hp⟩
  · exact hrun.2.2
  · rintro mid m hm ⟨hwf, hpriority, hpanel⟩
    have hs := step_perform mid m
    have hreset : m ≠ .reset := by
      rintro rfl
      simp [Message.yieldsTo, Message.named?] at hm
    refine ⟨hwf.step hs, ?_, ?_⟩
    · intro other
      rw [priority?_step hs hreset, hpriority]
    · rw [← yieldsTo_congr hpriority] at hm
      exact hwf.panel?_step hpanel hs hm

def sharedBottom : Layout :=
  (ofCatalogue .builtin).run [.reveal .terminal, .reveal .search, .setSlot .search .bottom,
    .move .settings .left ⟨false⟩]

/-- Docs push settings over to the right, and search contests the bottom. -/
def quarrel : List Message :=
  [.move .docs .left ⟨false⟩, .move .search .bottom ⟨false⟩, .setSize .docs 500,
    .toggle .fileTree, .hide .settings]

theorem run_spares_quarrel : sharedBottom.WellFormed ∧ (sharedBottom.holders .bottom).length = 2 ∧
    ∃ p, sharedBottom.panel? .terminal = some p ∧
      (∀ m ∈ quarrel, m.yieldsTo sharedBottom p = true) ∧
      (sharedBottom.run quarrel).panel? .terminal = some p := by
  have h : sharedBottom.WellFormed := by decide +kernel
  have hyields : (sharedBottom.panel? .terminal).any
      (fun p => quarrel.all fun m => m.yieldsTo sharedBottom p) = true := by decide +kernel
  obtain ⟨p, hp, hall⟩ := (Option.any_eq_true _ _).mp hyields
  have hms : ∀ m ∈ quarrel, m.yieldsTo sharedBottom p = true := List.all_eq_true.mp hall
  exact ⟨h, by decide +kernel, p, hp, hms, run_spares h hp hms⟩

end Layout

end Docking
