/-! Hexadecimal digits of either case, and texts as bytes. A character has one to four bytes, and
its first byte tells how many. Bytes that make no character are read in stretches: a first byte with
those behind it that may follow it. -/
namespace Docking

namespace Hex

def digit? (c : Char) : Option Nat :=
  if '0' ≤ c && c ≤ '9' then some (c.toNat - '0'.toNat)
  else if 'a' ≤ c && c ≤ 'f' then some (c.toNat - 'a'.toNat + 10)
  else if 'A' ≤ c && c ≤ 'F' then some (c.toNat - 'A'.toNat + 10)
  else none

def number? (digits : List Char) : Option Nat :=
  digits.foldlM (fun n c => (digit? c).map (n * 16 + ·)) 0

end Hex

namespace Utf8

/-- A character of which some bytes are still owed. The next one must lie between two bounds. -/
structure Unfinished where
  /-- The bits so far. -/
  code : Nat
  owed : Nat
  least : Nat := 0x80
  greatest : Nat := 0xBF
  deriving DecidableEq, Repr

/-- What a first byte beyond ASCII begins. The bounds keep out codes that fewer bytes can write,
surrogates and codes beyond the last character. -/
def begin? (b : Nat) : Option Unfinished :=
  if 0xC2 ≤ b && b ≤ 0xDF then some ⟨b - 0xC0, 1, 0x80, 0xBF⟩
  else if b = 0xE0 then some ⟨b - 0xE0, 2, 0xA0, 0xBF⟩
  else if b = 0xED then some ⟨b - 0xE0, 2, 0x80, 0x9F⟩
  else if 0xE1 ≤ b && b ≤ 0xEF then some ⟨b - 0xE0, 2, 0x80, 0xBF⟩
  else if b = 0xF0 then some ⟨b - 0xF0, 3, 0x90, 0xBF⟩
  else if 0xF1 ≤ b && b ≤ 0xF3 then some ⟨b - 0xF0, 3, 0x80, 0xBF⟩
  else if b = 0xF4 then some ⟨b - 0xF0, 3, 0x80, 0x8F⟩
  else none

/-- What a byte ends, a character or a stretch that is none, and what it begins. -/
def start (b : Nat) : List (Option Char) × Option Unfinished :=
  if b < 0x80 then ([some (Char.ofNat b)], none)
  else
    match begin? b with
    | some u => ([], some u)
    | none => ([none], none)

def step : Option Unfinished → Nat → List (Option Char) × Option Unfinished
  | none, b => start b
  | some u, b =>
    if u.least ≤ b && b ≤ u.greatest then
      let code := u.code * 0x40 + (b - 0x80)
      if u.owed ≤ 1 then ([some (Char.ofNat code)], none)
      else ([], some { code := code, owed := u.owed - 1 })
    else
      let (parts, next) := start b
      (none :: parts, next)

/-- The characters of the bytes, with nothing for each stretch that is no character. -/
def partsFrom : Option Unfinished → List UInt8 → List (Option Char)
  | none, [] => []
  | some _, [] => [none]
  | state, b :: rest =>
    let (parts, next) := step state b.toNat
    parts ++ partsFrom next rest

def parts (bytes : List UInt8) : List (Option Char) := partsFrom none bytes

def decode? (bytes : List UInt8) : Option String := ((parts bytes).mapM id).map String.ofList

/-- The text of the bytes, with the replacement character for each stretch that is none. -/
def decode (bytes : List UInt8) : String :=
  String.ofList ((parts bytes).map fun c => c.getD '\ufffd')

end Utf8

end Docking
