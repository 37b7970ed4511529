/-! Stores of texts under keys: what a store does, a store for one session, and one that notes the
writes asked of another store and may refuse them. -/
namespace Docking

/-- The steps of a write to a file. A text goes to a file beside the target first, so that no
interruption leaves half a text in its place. -/
inductive WriteStep where
  | makeFolders (folder : String)
  | writeText (path text : String)
  | rename (source target : String)
  deriving DecidableEq, Repr

inductive StoreError where
  | refused
  | failed (step : WriteStep)
  deriving DecidableEq, Repr

def StoreError.message : StoreError → String
  | refused => "write refused"
  | failed (.makeFolders folder) => "Failed to create layout directory " ++ folder
  | failed (.writeText path _) => "Failed to write layout to " ++ path
  | failed (.rename _ target) => "Failed to replace layout at " ++ target

/-- A store gives back the store after a write, also after one that failed. -/
class Store (σ : Type) where
  read : σ → String → Option String
  write : σ → String → String → σ × Option StoreError

structure MemoryStore where
  entries : List (String × String)
  deriving DecidableEq, Repr

namespace MemoryStore

def empty : MemoryStore := ⟨[]⟩

def read (s : MemoryStore) (key : String) : Option String :=
  (s.entries.find? fun e => e.1 = key).map Prod.snd

def write (s : MemoryStore) (key value : String) : MemoryStore :=
  ⟨(key, value) :: s.entries.filter fun e => e.1 ≠ key⟩

instance : Store MemoryStore where
  read := read
  write s key value := (s.write key value, none)

end MemoryStore

/-- Which writes are refused, by their number from zero. -/
abbrev Refusals := Nat → Bool

instance : Coe Bool Refusals := ⟨fun all _ => all⟩

structure MeteredStore (σ : Type) where
  inner : σ
  refusing : Refusals := false
  /-- The keys and values of all writes asked for, in order. -/
  asked : List (String × String) := []

namespace MeteredStore

variable {σ : Type} [Store σ]

def attempts (s : MeteredStore σ) : Nat := s.asked.length

/-- A refused write is noted and changes nothing else; the others may still fail by themselves. -/
def write (s : MeteredStore σ) (key value : String) : MeteredStore σ × Option StoreError :=
  let noted := { s with asked := s.asked ++ [(key, value)] }
  if s.refusing s.attempts then (noted, some .refused)
  else
    let (inner, error) := Store.write s.inner key value
    ({ noted with inner := inner }, error)

instance : Store (MeteredStore σ) where
  read s key := Store.read s.inner key
  write := write

end MeteredStore

end Docking
