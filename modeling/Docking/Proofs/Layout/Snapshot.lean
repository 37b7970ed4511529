import Docking.Proofs.Layout.Agreement
import Docking.Trace.Layout

/-! What the difference of two snapshots tells. Between two layouts over one catalogue it is a text
exactly when they differ, and it is what the trace of a message carries as the change. -/
namespace Docking

open Layout

variable {c : Catalogue} {l m : Layout} {p q : Panel} {text : String}

theorem Standing.changes_eq_nil_iff : (ofPanel p).changes (ofPanel q) = [] ↔ ¬ p.Differs q := by
  unfold changes ofPanel Panel.Differs
  by_cases hslot : p.slot = q.slot <;> by_cases hvisible : p.visible = q.visible <;>
    cases p.size == q.size <;> simp [hslot, hvisible]

namespace Snapshot

theorem isSome_diff_iff {before after : Snapshot} :
    (before.diff after).isSome = true ↔ before.changes after ≠ [] := by
  unfold diff
  split <;> simp_all

theorem find?_ofLayout (m : Layout) (id : PanelId) :
    ((ofLayout m).panels.find? fun t => t.id = id) = (m.panel? id).map Standing.ofPanel :=
  List.find?_map ..

/-- No panel is missing from the second snapshot, so only what became of the panels counts. -/
theorem changes_eq_nil_iff (hl : Structured c l) (hm : Structured c m) :
    (ofLayout l).changes (ofLayout m) = [] ↔ ¬ l.Differs m := by
  simp only [changes, List.flatMap_eq_nil_iff, find?_ofLayout]
  constructor
  · rintro h ⟨id, p, q, hp, hq, hdiff⟩
    have hnone := h (.ofPanel p) (List.mem_map_of_mem (mem_of_panel? hp))
    have hlook : m.panel? (Standing.ofPanel p).id = some q :=
      (congrArg m.panel? (panel?_id hp)).trans hq
    rw [hlook] at hnone
    exact Standing.changes_eq_nil_iff.mp hnone hdiff
  · intro h s hs
    obtain ⟨p, hp, rfl⟩ := List.mem_map.mp hs
    have hself := hl.wellFormed.panel?_of_mem hp
    obtain ⟨q, -, hq, -, -⟩ := hl.counterpart hm hself
    have hlook : m.panel? (Standing.ofPanel p).id = some q := hq
    rw [hlook]
    exact Standing.changes_eq_nil_iff.mpr fun hdiff => h ⟨p.id, p, q, hself, hq, hdiff⟩

theorem isSome_diff_ofLayout (hl : Structured c l) (hm : Structured c m) :
    ((ofLayout l).diff (ofLayout m)).isSome = true ↔ l.Differs m := by
  rw [isSome_diff_iff, ne_eq, changes_eq_nil_iff hl hm, not_not]

end Snapshot

namespace Layout

theorem layoutChanged_notMem_revealEvents (l : Layout) (id : PanelId) :
    Event.layoutChanged text ∉ l.revealEvents id := by
  unfold revealEvents
  repeat' split
  all_goals simp

theorem layoutChanged_notMem_operationEvents (l : Layout) (m : Message) :
    Event.layoutChanged text ∉ l.operationEvents m := by
  cases m with
  | toggle id =>
    simp only [operationEvents, toggleEvents]
    split
    · exact List.not_mem_nil
    · exact layoutChanged_notMem_revealEvents l id
  | reveal id => exact layoutChanged_notMem_revealEvents l id
  | move id slot options =>
    simp only [operationEvents, moveEvents]
    split <;> simp
  | _ => exact List.not_mem_nil

/-- The trace of a message carries a change exactly when the snapshots around it differ. -/
theorem layoutChanged_mem_handleEvents {m : Message} : Event.layoutChanged text ∈ l.handleEvents m ↔
    (Snapshot.ofLayout l).diff (.ofLayout (l.handle m).1) = some text := by
  simp [handleEvents, layoutChanged_notMem_operationEvents]

end Layout

end Docking
