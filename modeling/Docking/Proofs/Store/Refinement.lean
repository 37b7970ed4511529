import Docking.Proofs.Store.Folder
import Mathlib.Data.Set.Function

/-! The store in a folder against the store in memory. On the outside the folder is a map under the
stems of its keys: whatever is read and written, it answers like the memory in which every key has
been replaced by its stem. So the two stores answer alike as long as no two keys in use share a
stem, and not longer than that. -/
namespace Docking

inductive StoreRequest where
  | read (key : String)
  | write (key value : String)
  deriving DecidableEq

namespace StoreRequest

def key : StoreRequest → String
  | read key | write key _ => key

def rename (f : String → String) : StoreRequest → StoreRequest
  | read key => read (f key)
  | write key value => write (f key) value

end StoreRequest

namespace Store

variable {σ τ : Type} [Store σ] [Store τ]

def answers (s : σ) : List StoreRequest → List (Option String)
  | [] => []
  | .read key :: rest => Store.read s key :: answers s rest
  | .write key value :: rest => answers (Store.write s key value).1 rest

/-- Every write among the requests succeeds. -/
def WritesSucceed (s : σ) : List StoreRequest → Prop
  | [] => True
  | .read _ :: rest => WritesSucceed s rest
  | .write key value :: rest =>
    (Store.write s key value).2 = none ∧ WritesSucceed (Store.write s key value).1 rest

instance decidableWritesSucceed (s : σ) : (rs : List StoreRequest) → Decidable (WritesSucceed s rs)
  | [] => isTrue trivial
  | .read _ :: rest => decidableWritesSucceed s rest
  | .write key value :: rest =>
    have := decidableWritesSucceed (Store.write s key value).1 rest
    inferInstanceAs (Decidable (_ ∧ _))

/-- Two stores answer alike, up to a renaming of keys, if reads of the permitted keys agree and
writes under them keep it so. -/
theorem answers_rename (f : String → String) (permitted : String → Prop) (R : σ → τ → Prop)
    (hread : ∀ s t key, R s t → permitted key → Store.read s key = Store.read t (f key))
    (hwrite : ∀ s t key value, R s t → permitted key → (Store.write s key value).2 = none →
      R (Store.write s key value).1 (Store.write t (f key) value).1)
    {s : σ} {t : τ} {rs : List StoreRequest} (h : R s t) (hrs : ∀ r ∈ rs, permitted r.key)
    (hw : WritesSucceed s rs) :
    answers s rs = answers t (rs.map (StoreRequest.rename f)) := by
  induction rs generalizing s t with
  | nil => rfl
  | cons r rs ih =>
    have hkey := hrs r List.mem_cons_self
    have hrest : ∀ r ∈ rs, permitted r.key := fun r hr => hrs r (List.mem_cons_of_mem _ hr)
    cases r with
    | read key =>
      have hanswers := ih h hrest hw
      simp only [answers, List.map_cons, StoreRequest.rename, hread s t key h hkey, hanswers]
    | write key value => exact ih (hwrite s t key value h hkey hw.1) hrest hw.2

end Store

namespace MemoryStore

theorem read_write (s : MemoryStore) (key value other : String) :
    (s.write key value).read other = if other = key then some value else s.read other := by
  by_cases hk : other = key
  · simp [read, write, hk]
  · simp only [read, write, List.find?_cons, decide_eq_false (Ne.symm hk), find?_filter_fst_ne hk,
      if_neg hk]

theorem writesSucceed (s : MemoryStore) (rs : List StoreRequest) : Store.WritesSucceed s rs := by
  induction rs generalizing s with
  | nil => trivial
  | cons r rs ih =>
    cases r with
    | read key => exact ih s
    | write key value => exact ⟨rfl, ih _⟩

/-- New names for the keys in use change nothing, as long as they tell the keys apart. -/
theorem answers_rename_of_injOn {f : String → String} {keys : Set String} (hinj : Set.InjOn f keys)
    {rs : List StoreRequest} (hrs : ∀ r ∈ rs, r.key ∈ keys) :
    Store.answers empty rs = Store.answers empty (rs.map (StoreRequest.rename f)) := by
  refine Store.answers_rename f (· ∈ keys) (fun s t => ∀ key ∈ keys, s.read key = t.read (f key))
    ?_ ?_ (fun _ _ => rfl) hrs (writesSucceed _ _)
  · intro s t key hst hkey
    exact hst key hkey
  · intro s t key value hst hkey _ other hother
    show (s.write key value).read other = (t.write (f key) value).read (f other)
    simp only [read_write, hst other hother, hinj.eq_iff hother hkey]

end MemoryStore

namespace FolderStore

variable {s : FolderStore} {m : MemoryStore}

/-- No key reads anything, even once the folder is made. -/
def Bare (s : FolderStore) : Prop := ∀ key, s.opened.read key = none

/-- Every key reads what the memory has under its stem, before and after the folder is made. -/
def Mirrors (s : FolderStore) (m : MemoryStore) : Prop :=
  ∀ key, s.read key = m.read (keyStem key) ∧ s.opened.read key = m.read (keyStem key)

/-- In every run over the keys in which no write fails, every read gives what memory gives. -/
def AnswersAsMemory (s : FolderStore) (keys : Set String) : Prop :=
  ∀ rs : List StoreRequest, (∀ r ∈ rs, r.key ∈ keys) → Store.WritesSucceed s rs →
    Store.answers s rs = Store.answers MemoryStore.empty rs

theorem Bare.mirrors (h : s.Bare) : s.Mirrors .empty := by
  intro key
  refine ⟨?_, h key⟩
  cases hread : s.read key with
  | none => rfl
  | some value =>
    have hopened := read_opened_of_read hread
    rw [h key] at hopened
    cases hopened

theorem Mirrors.write (h : s.Mirrors m) {key value : String} (hw : (s.write key value).2 = none) :
    (s.write key value).1.Mirrors (m.write (keyStem key) value) := by
  intro other
  rw [opened_write hw, read_write hw, MemoryStore.read_write, (h other).2]
  exact ⟨rfl, rfl⟩

theorem Mirrors.answers (h : s.Mirrors m) {rs : List StoreRequest}
    (hw : Store.WritesSucceed s rs) :
    Store.answers s rs = Store.answers m (rs.map (StoreRequest.rename keyStem)) := by
  refine Store.answers_rename keyStem (fun _ => True) Mirrors ?_ ?_ h (fun _ _ => trivial) hw
  · intro s m key h _
    exact (h key).1
  · intro s m key value h _ hw
    exact h.write hw

/-- Files only count as texts, so a folder of folders has nothing to read. -/
theorem bare_of_folders (h : ∀ e ∈ s.opened.tree.entries, e.2 = .folder) : s.Bare := by
  intro key
  rw [read_eq_toOption, FileTree.toOption_readText]
  cases s.opened.tree.locate (s.opened.path key) with
  | error fault => rfl
  | ok p => exact FileTree.text?_of_folders h p

/-- What is written under a key is read under every key of its stem, also where memory has
nothing. -/
theorem answers_of_keyStem_eq {key other value : String} (hw : (s.write key value).2 = none)
    (hne : key ≠ other) (hstem : keyStem key = keyStem other) :
    Store.answers s [.write key value, .read other] = [some value] ∧
      Store.answers MemoryStore.empty [.write key value, .read other] = [none] := by
  show [(s.write key value).1.read other] = [some value] ∧
    [(MemoryStore.empty.write key value).read other] = [none]
  rw [read_write hw, if_pos hstem.symm, MemoryStore.read_write, if_neg hne.symm]
  exact ⟨rfl, rfl⟩

/-- From a folder with nothing to read, and as long as no write fails, every read gives what memory
gives when each key stands for its stem. So folder and memory answer alike in every run over keys no
two of which have the same stem, and over keys that can be written at all they do so in no other
case. -/
theorem answers_eq_memory_iff (s : FolderStore) (keys : Set String) (hbare : s.Bare) :
    (∀ rs, Store.WritesSucceed s rs → Store.answers s rs =
      Store.answers MemoryStore.empty (rs.map (StoreRequest.rename keyStem))) ∧
    (Set.InjOn keyStem keys → s.AnswersAsMemory keys) ∧
    ((∀ key ∈ keys, ∃ value, (s.write key value).2 = none) → s.AnswersAsMemory keys →
      Set.InjOn keyStem keys) := by
  refine ⟨fun rs hw => hbare.mirrors.answers hw, ?_, ?_⟩
  · intro hinj rs hrs hw
    rw [hbare.mirrors.answers hw]
    exact (MemoryStore.answers_rename_of_injOn hinj hrs).symm
  · intro hkeys hall key hkey other hother hstem
    by_contra hne
    obtain ⟨value, hvalue⟩ := hkeys key hkey
    obtain ⟨hfolder, hmemory⟩ := answers_of_keyStem_eq hvalue hne hstem
    have hsame := hall [.write key value, .read other] (by simp [StoreRequest.key, hkey, hother])
      ⟨hvalue, trivial⟩
    rw [hfolder, hmemory] at hsame
    cases hsame

def unmade : FolderStore := ⟨"layouts", .empty⟩

theorem unmade_bare : unmade.Bare := bare_of_folders (by decide +kernel)

def twoKeys : Set String := {"panel-dock.panelState", "../evil/key"}

def twoKeysRun : List StoreRequest :=
  [.read "panel-dock.panelState", .write "panel-dock.panelState" "first", .write "../evil/key" "",
    .write "panel-dock.panelState" "second", .read "../evil/key", .read "panel-dock.panelState"]

theorem answers_eq_memory_iff_twoKeys :
    Set.InjOn keyStem twoKeys ∧ unmade.AnswersAsMemory twoKeys ∧
      Store.answers unmade twoKeysRun = Store.answers MemoryStore.empty twoKeysRun ∧
      Store.answers MemoryStore.empty twoKeysRun = [none, some "", some "second"] := by
  have hkeys : ∀ key ∈ twoKeys, ∃ value, (unmade.write key value).2 = none := by
    rintro key (rfl | rfl)
    · exact ⟨"", by decide +kernel⟩
    · exact ⟨"", by decide +kernel⟩
  have hstems : Set.InjOn keyStem twoKeys := by
    rintro key (rfl | rfl) other (rfl | rfl) hstem
    · rfl
    · exact absurd hstem (by decide +kernel)
    · exact absurd hstem (by decide +kernel)
    · rfl
  obtain ⟨-, halike, hapart⟩ := answers_eq_memory_iff unmade twoKeys unmade_bare
  have hall := halike hstems
  refine ⟨hapart hkeys hall, hall, ?_, by decide +kernel⟩
  exact hall twoKeysRun (by simp [twoKeysRun, twoKeys, StoreRequest.key]) (by decide +kernel)

/-- The two stores answer differently as soon as two keys in use differ only in characters that no
file name keeps. -/
theorem slash_key_read_under_underscore :
    ¬ ∀ (s : FolderStore) (rs : List StoreRequest), s.Bare → Store.WritesSucceed s rs →
      Store.answers s rs = Store.answers MemoryStore.empty rs := by
  intro h
  have hsame := h unmade [.write "a/b" "v1", .read "a_b"] unmade_bare (by decide +kernel)
  exact absurd hsame (by decide +kernel)

end FolderStore

end Docking
