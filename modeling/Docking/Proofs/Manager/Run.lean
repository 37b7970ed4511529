import Docking.Manager
import Docking.Proofs.Layout.Report

/-! Requests to a manager. Each comes down to one message or to none, and then goes one of two ways:
the layout differs afterwards and the store reads back its text, or the layout agrees with the one
before and the store has not been touched. -/
namespace Docking

inductive Request where
  | dispatch (message : Message)
  | request (message : Message)
  | move (id : PanelId) (slot : Slot) (options : MoveOptions)
  | moveNamed (name : String) (slot : Slot) (options : MoveOptions)

/-- The message that a request comes down to; a name that no panel has sends none. -/
def Request.message? : Request → Option Message
  | dispatch message | request message => some message
  | move id slot options => some (.move id slot options)
  | moveNamed name slot options => (PanelId.ofName? name).map fun id => .move id slot options

/-- A store where a text that was written without an error is read back under its key. -/
class ReadsBack (σ : Type) [Store σ] : Prop where
  read_write (s : σ) (key value : String) (h : (Store.write s key value).2 = none) :
    Store.read (Store.write s key value).1 key = some value

instance : ReadsBack MemoryStore where
  read_write s key value _ := by
    simp [Store.read, Store.write, MemoryStore.read, MemoryStore.write]

namespace Manager

variable {σ : Type} [Store σ] {c : Catalogue} {m : Manager σ} {message : Message} {r : Request}

def perform (m : Manager σ) : Request → Manager σ
  | .dispatch message => (m.dispatch message).1
  | .request message => (m.request message).1
  | .move id slot options => (m.move id slot options).1
  | .moveNamed name slot options => (m.moveNamed name slot options).1

def run (m : Manager σ) (rs : List Request) : Manager σ := rs.foldl perform m

/-- All requests go through the message they come down to. -/
theorem perform_eq (m : Manager σ) (r : Request) :
    m.perform r = (r.message?.map fun message => (m.dispatch message).1).getD m := by
  cases r with
  | moveNamed name slot options =>
    simp only [perform, moveNamed, Request.message?]
    cases PanelId.ofName? name <;> rfl
  | _ => rfl

theorem layout_execute (m : Manager σ) (command : Option Command) :
    (m.execute command).layout = m.layout := by
  unfold execute
  split <;> rfl

theorem layout_dispatch (m : Manager σ) (message : Message) :
    (m.dispatch message).1.layout = m.layout.perform message := by
  rw [← Layout.handle_fst]
  exact layout_execute _ _

theorem execute_of_ne_save {command : Option Command} (h : command ≠ some .save) :
    m.execute command = m := by
  unfold execute
  split
  · exact absurd rfl h
  · rfl

/-- A save stores the layout that the message leads to. -/
theorem dispatch_of_save (h : (m.layout.handle message).2 = some .save) :
    (m.dispatch message).1 =
      ({ m with layout := (m.layout.handle message).1 } : Manager σ).save.1 := by
  simp only [dispatch, h, execute]

theorem dispatch_of_ne_save (h : (m.layout.handle message).2 ≠ some .save) :
    (m.dispatch message).1 = { m with layout := (m.layout.handle message).1 } :=
  execute_of_ne_save h

def SaveSucceeds (m : Manager σ) (message : Message) : Prop :=
  (m.dispatch message).2 = some .save →
    ({ m with layout := (m.layout.handle message).1 } : Manager σ).save.2 = none

/-- A message saves the layout it leads to, or it changes neither layout nor store. -/
theorem dispatch_cases [ReadsBack σ] (hc : c.Valid) (hn : c.Numeric)
    (hl : Layout.Reachable c m.layout) (hw : m.SaveSucceeds message) :
    (m.layout.Differs (m.dispatch message).1.layout ∧
      Store.read (m.dispatch message).1.store storageKey =
        some (m.dispatch message).1.layout.storedText) ∨
    (m.layout.Agrees (m.dispatch message).1.layout ∧ (m.dispatch message).1.store = m.store) := by
  have hs := hl.structured hc
  have hafter : Layout.Structured c (m.layout.handle message).1 := by
    rw [Layout.handle_fst]
    exact (hl.performed message).structured hc
  have hsave := hs.handle_save_iff hc hn (hl.numeric hn) message
  have hlayout : (m.dispatch message).1.layout = (m.layout.handle message).1 := layout_execute _ _
  rw [hlayout]
  by_cases hcommand : (m.layout.handle message).2 = some .save
  · refine .inl ⟨hsave.mp hcommand, ?_⟩
    rw [dispatch_of_save hcommand]
    exact ReadsBack.read_write _ _ _ (hw hcommand)
  · refine .inr ⟨(hs.agrees_iff hafter).mpr fun hdiff => hcommand (hsave.mpr hdiff), ?_⟩
    rw [dispatch_of_ne_save hcommand]

/-- The layout after a request is one of the same session. -/
theorem reachable_perform (hl : Layout.Reachable c m.layout) (r : Request) :
    Layout.Reachable c (m.perform r).layout := by
  rw [perform_eq]
  cases r.message? with
  | none => exact hl
  | some message =>
    rw [Option.map_some, Option.getD_some, layout_dispatch]
    exact hl.performed message

theorem perform_cases [ReadsBack σ] (hc : c.Valid) (hn : c.Numeric)
    (hl : Layout.Reachable c m.layout) (hw : ∀ message ∈ r.message?, m.SaveSucceeds message) :
    (m.layout.Differs (m.perform r).layout ∧
      Store.read (m.perform r).store storageKey = some (m.perform r).layout.storedText) ∨
    (m.layout.Agrees (m.perform r).layout ∧ (m.perform r).store = m.store) := by
  rw [perform_eq]
  cases hr : r.message? with
  | none => exact .inr ⟨(hl.numeric hn).agrees_self, rfl⟩
  | some message => exact dispatch_cases hc hn hl (hw message hr)

theorem reachable_start (c : Catalogue) (store : σ) :
    Layout.Reachable c (start c store).layout := by
  unfold start
  dsimp only
  split
  · exact .restored _
  · exact .fresh

end Manager

end Docking
