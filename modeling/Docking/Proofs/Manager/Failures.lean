import Docking.Proofs.Manager.Run

/-! Saves that fail. What a manager answers, which layouts it goes through and which writes it asks
for follow from the messages alone: a request asks for one write, of the layout it leads to, exactly
if it changes the layout, and whether a write succeeds is nowhere looked at. -/
namespace Docking

namespace MeteredStore

variable {σ : Type} [Store σ]

theorem asked_write (s : MeteredStore σ) (key value : String) :
    (Store.write s key value).1.asked = s.asked ++ [(key, value)] := by
  change (s.write key value).1.asked = _
  unfold write
  dsimp only
  split <;> rfl

end MeteredStore

inductive Answer where
  | command (command : Option Command)
  /-- Whether a save was asked for. -/
  | saved (flag : Bool)
  | outcome (result : Except MoveRejection MovePlan)

structure Record where
  answer : Answer
  layout : Layout
  asked : List (String × String)

namespace Layout

variable {c : Catalogue} {l : Layout} {r : Request}

def answer (l : Layout) : Request → Answer
  | .dispatch message => .command (l.handle message).2
  | .request message => .saved ((l.handle message).2.any Command.needsSave)
  | .move id slot options => .outcome (l.handleMove id slot options).2.1
  | .moveNamed name slot options =>
    match PanelId.ofName? name with
    | some id => .outcome (l.handleMove id slot options).2.1
    | none => .outcome (.error (.unknown name))

def follow (l : Layout) (r : Request) : Layout :=
  match r.message? with
  | some message => (l.handle message).1
  | none => l

/-- The records of a run as they should be: one write for each request that changes the layout, of
the layout after it, and no other. -/
def account (l : Layout) (asked : List (String × String)) : List Request → List Record
  | [] => []
  | r :: rs =>
    let after := l.follow r
    let asked := if l.Differs after then asked ++ [(storageKey, after.storedText)] else asked
    ⟨l.answer r, after, asked⟩ :: after.account asked rs

/-- Nobody has the name, its panel is not there, or the move asked for is rejected. -/
def TurnsDown (l : Layout) (r : Request) : Prop :=
  ∀ message ∈ r.message?, (∃ id ∈ message.named?, l.panel? id = none) ∨
    ∃ id slot options rejection, message = .move id slot options ∧
      l.plan id slot options = .error rejection

/-- A request that is turned down leaves the layout as it is. -/
theorem TurnsDown.follow_eq (h : l.TurnsDown r) : l.follow r = l := by
  unfold follow
  cases hr : r.message? with
  | none => rfl
  | some message =>
    rcases h message hr with ⟨id, hnamed, hp⟩ | ⟨id, slot, options, rejection, rfl, hplan⟩
    · exact (handle_fst l message).trans (perform_of_missing hnamed hp)
    · simp only [handle_of_rejected hplan]

theorem Reachable.follow (hl : Reachable c l) (r : Request) : Reachable c (l.follow r) := by
  unfold Layout.follow
  cases r.message? with
  | none => exact hl
  | some message =>
    dsimp only
    rw [handle_fst]
    exact hl.performed message

/-- Without a message the layout stays; with one a save is asked for exactly if it differs. -/
theorem Reachable.differs_follow_iff (hl : Reachable c l) (hc : c.Valid) (hn : c.Numeric) :
    l.Differs (l.follow r) ↔ ∃ message ∈ r.message?, (l.handle message).2 = some .save := by
  unfold Layout.follow
  cases r.message? with
  | none => simpa using (hl.numeric hn).agrees_self.not_differs
  | some message =>
    have hsave := (hl.structured hc).handle_save_iff hc hn (hl.numeric hn) message
    simpa using hsave.symm

end Layout

namespace Manager

variable {σ τ : Type} [Store σ] [Store τ] {c : Catalogue}

def answer (m : Manager σ) : Request → Answer
  | .dispatch message => .command (m.dispatch message).2
  | .request message => .saved (m.request message).2
  | .move id slot options => .outcome (m.move id slot options).2
  | .moveNamed name slot options => .outcome (m.moveNamed name slot options).2

def history (m : Manager (MeteredStore σ)) : List Request → List Record
  | [] => []
  | r :: rs =>
    let after := m.perform r
    ⟨m.answer r, after.layout, after.store.asked⟩ :: after.history rs

theorem answer_eq (m : Manager σ) (r : Request) : m.answer r = m.layout.answer r := by
  cases r with
  | moveNamed name slot options =>
    simp only [answer, Layout.answer, moveNamed]
    cases PanelId.ofName? name <;> rfl
  | _ => rfl

theorem layout_perform (m : Manager σ) (r : Request) :
    (m.perform r).layout = m.layout.follow r := by
  rw [perform_eq]
  unfold Layout.follow
  cases r.message? with
  | none => rfl
  | some message => exact layout_execute _ _

/-- A request asks for one write if it changes the layout, and for none otherwise. -/
theorem asked_perform {m : Manager (MeteredStore σ)} (hl : Layout.Reachable c m.layout)
    (hc : c.Valid) (hn : c.Numeric) (r : Request) :
    (m.perform r).store.asked =
      if m.layout.Differs (m.layout.follow r) then
        m.store.asked ++ [(storageKey, (m.layout.follow r).storedText)]
      else m.store.asked := by
  have hdiffers := hl.differs_follow_iff hc hn (r := r)
  rw [perform_eq]
  unfold Layout.follow at hdiffers ⊢
  cases hr : r.message? with
  | none =>
    rw [hr] at hdiffers
    rw [if_neg (by simp [hdiffers])]
    rfl
  | some message =>
    rw [hr] at hdiffers
    by_cases hsave : (m.layout.handle message).2 = some .save
    · rw [if_pos (hdiffers.mpr ⟨message, rfl, hsave⟩), Option.map_some, Option.getD_some,
        dispatch_of_save hsave]
      exact MeteredStore.asked_write _ _ _
    · rw [if_neg (by simpa [hdiffers] using hsave), Option.map_some, Option.getD_some,
        dispatch_of_ne_save hsave]

/-- The records of a run are those that its messages account for. -/
theorem history_eq_account (hc : c.Valid) (hn : c.Numeric) (m : Manager (MeteredStore σ))
    (hl : Layout.Reachable c m.layout) (rs : List Request) :
    m.history rs = m.layout.account m.store.asked rs := by
  induction rs generalizing m with
  | nil => rfl
  | cons r rs ih =>
    have hlayout := layout_perform m r
    have hasked := asked_perform hl hc hn r
    simp only [history, Layout.account]
    rw [ih _ (hlayout ▸ hl.follow r), answer_eq, hlayout, hasked]

theorem history_start (hc : c.Valid) (hn : c.Numeric) (store : σ) (refusing : Refusals)
    (rs : List Request) : (start c (MeteredStore.mk store refusing [])).history rs =
      (start c store).layout.account [] rs :=
  history_eq_account hc hn (start c (MeteredStore.mk store refusing [])) (reachable_start _ _) rs

theorem layout_start_congr {store : σ} {other : τ}
    (h : Store.read store storageKey = Store.read other storageKey) :
    (start c store).layout = (start c other).layout := by
  simp only [start, h]

/-- Whichever writes fail in two runs of the same requests, from stores that hold the same stored
text, the answers, the layouts and the writes asked for are the same. They are those that the
messages account for, so a request that changes the layout asks for one write, of the text of the
layout after it, and any other request for none. A request that is turned down is such another. -/
theorem history_start_eq {c : Catalogue} (hc : c.Obtainable) (hn : c.Numeric) {σ τ : Type}
    [Store σ] [Store τ] (store : σ) (other : τ)
    (hsame : Store.read store storageKey = Store.read other storageKey)
    (refusing refusing' : Refusals) (rs : List Request) :
    (start c (MeteredStore.mk store refusing [])).history rs =
      (start c (MeteredStore.mk other refusing' [])).history rs ∧
    (start c (MeteredStore.mk store refusing [])).history rs =
      (start c store).layout.account [] rs ∧
    ∀ l r, Layout.Reachable c l → l.TurnsDown r → ¬ l.Differs (l.follow r) := by
  have hleft := history_start hc.valid hn store refusing rs
  have hright := history_start hc.valid hn other refusing' rs
  refine ⟨?_, hleft, ?_⟩
  · rw [hleft, hright, layout_start_congr hsame]
  · intro l r hl hdown
    rw [hdown.follow_eq]
    exact (hl.numeric hn).agrees_self.not_differs

/-- A change, a move, a name that no panel has, a move that is not allowed, a hidden panel hidden
once more, and a reset. -/
def mixedRequests : List Request :=
  [.request (.reveal .terminal), .move .terminal .left ⟨false⟩, .moveNamed "clock" .left .forced,
    .dispatch (.move .docs .bottom .forced), .request (.hide .search), .dispatch .reset]

theorem history_start_eq_mixedRequests :
    Catalogue.builtin.Obtainable ∧ Catalogue.builtin.Numeric ∧
      (start .builtin (MeteredStore.mk MemoryStore.empty (fun _ => true) [])).history
          mixedRequests =
        (start .builtin (MeteredStore.mk MemoryStore.empty (fun n => n = 1) [])).history
          mixedRequests ∧
      ((start .builtin MemoryStore.empty).layout.account [] mixedRequests).map
        (fun record => record.asked.length) = [1, 2, 2, 2, 2, 3] :=
  ⟨.builtin, Catalogue.builtin_numeric,
    (history_start_eq .builtin Catalogue.builtin_numeric MemoryStore.empty MemoryStore.empty rfl
      (fun _ => true) (fun n => n = 1) mixedRequests).1,
    by decide +kernel⟩

end Manager

end Docking
