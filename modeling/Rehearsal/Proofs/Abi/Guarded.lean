import Rehearsal.Abi.Decode

namespace Rehearsal.Abi

/-! The decoder with the checks that its steps pass or fail on a machine. Positions and lengths come
out of the data, so that whoever writes the data chooses them. The guarded decoder takes the same
steps as the decoder, but panics when a sum or a product does not fit 64 bits, and when a piece is cut
from octets that do not go on for so long. Memory is taken to suffice: setting up more items of a
fixed array than a machine has room for is no panic here. -/

inductive Panic where
  | overflow (n : Nat)
  /-- A piece up to `stop` is cut from `length` octets. -/
  | outside (stop length : Nat)
  deriving DecidableEq, Repr

/-- A run that panics, or ends with a result. -/
abbrev Guarded := ExceptT Fault (Except Panic)

variable {α β : Type}

def panics (p : Panic) : Guarded α :=
  ExceptT.mk (.error p)

def returned (x : Result α) : Guarded α :=
  ExceptT.mk (.ok x)

namespace Guarded

def number (n : Nat) : Guarded Nat :=
  if n < Text.limit64 then pure n else panics (.overflow n)

def cut (bytes : List UInt8) (start stop : Nat) : Guarded (List UInt8) :=
  if start ≤ stop ∧ stop ≤ bytes.length then pure (slice bytes start (stop - start))
  else panics (.outside stop bytes.length)

def wordAt (data : List UInt8) (position : Nat) : Guarded (List UInt8) := do
  let stop ← number (position + 32)
  returned (requireLength data stop)
  cut data position stop

def positionAt (data : List UInt8) (position : Nat) : Guarded Nat := do
  let n := Word.ofBigEndian (← wordAt data position)
  if greatestPosition < n then returned (.error (.outOfRange n)) else return n

def countedAt (data : List UInt8) (start : Nat) : Guarded (List UInt8) := do
  let length ← positionAt data start
  let first ← number (start + 32)
  let stop ← number (first + length)
  returned (requireLength data stop)
  cut data first stop

mutual

def headLength : AbiType → Guarded Nat
  | .fixedArray item count =>
      if item.isDynamic then return 32
      else do
        let length ← headLength item
        number (length * count)
  | .tuple items => if AbiType.anyDynamic items then return 32 else headLengths 0 items
  | .address => return 32
  | .uint _ => return 32
  | .int _ => return 32
  | .bool => return 32
  | .string => return 32
  | .bytes => return 32
  | .fixedBytes _ => return 32
  | .array _ => return 32

def headLengths (sum : Nat) : List AbiType → Guarded Nat
  | [] => return sum
  | item :: rest => do
      let length ← headLength item
      let sum ← number (sum + length)
      headLengths sum rest

end

def decodeMany (one : (position : Nat) → Guarded (Json × Nat)) :
    (count position : Nat) → Guarded (List Json)
  | 0, _ => return []
  | count + 1, position => do
      let (value, length) ← one position
      let next ← number (position + length)
      let rest ← decodeMany one count next
      return value :: rest

mutual

/-- Decodes the value whose head stands at a position. That there is room for as many items as the type
of a fixed array says is assumed, so a capacity beyond the machine is left out. -/
def decodeValue (data : List UInt8) :
    AbiType → (base position : Nat) → Guarded (Json × Nat)
  | .address, _, position => do
      let word ← wordAt data position
      let octets ← cut word 12 32
      return (.string (Hex.marked octets), 32)
  | .uint _, _, position => do
      let word ← wordAt data position
      return (natJson (Word.ofBigEndian word), 32)
  | .int _, _, position => do
      let word ← wordAt data position
      -- The sign stands in the first octet.
      let _ ← cut word 0 1
      return (signedJson (Word.ofBigEndian word), 32)
  | .bool, _, position => do
      let word ← wordAt data position
      let last ← cut word 31 32
      return (.bool (truth last), 32)
  | .fixedBytes size, _, position => do
      let word ← wordAt data position
      let octets ← cut word 0 size
      return (.string (Hex.marked octets), 32)
  | .bytes, base, position => do
      let offset ← positionAt data position
      let start ← number (base + offset)
      let octets ← countedAt data start
      return (.string (Hex.marked octets), 32)
  | .string, base, position => do
      let offset ← positionAt data position
      let start ← number (base + offset)
      let octets ← countedAt data start
      match Utf8.decodeString octets with
      | .ok s => return (.string s, 32)
      | .error fault => returned (.error (.invalidText fault))
  | .array item, base, position => do
      let offset ← positionAt data position
      let start ← number (base + offset)
      let length ← positionAt data start
      let first ← number (start + 32)
      let room ← number (length * 32)
      let stop ← number (first + room)
      returned (requireLength data stop)
      let values ← decodeMany (fun position => decodeValue data item first position) length first
      return (.array values, 32)
  | .fixedArray item count, base, position => do
      if item.isDynamic then
        let offset ← positionAt data position
        let start ← number (base + offset)
        let values ← decodeMany (fun position => decodeValue data item start position) count start
        return (.array values, 32)
      else
        let start := position
        let values ← decodeMany (fun position => decodeValue data item start position) count start
        let length ← headLength (.fixedArray item count)
        return (.array values, length)
  | .tuple items, base, position => do
      if AbiType.anyDynamic items then
        let offset ← positionAt data position
        let start ← number (base + offset)
        let values ← decodeEach data items start start
        return (.array values, 32)
      else
        let values ← decodeEach data items position position
        let length ← headLength (.tuple items)
        return (.array values, length)

def decodeEach (data : List UInt8) :
    List AbiType → (base position : Nat) → Guarded (List Json)
  | [], _, _ => return []
  | item :: rest, base, position => do
      let (value, length) ← decodeValue data item base position
      let next ← number (position + length)
      let values ← decodeEach data rest base next
      return value :: values

end

/-- Decodes data as a tuple of the given types with numbers of 64 bits. -/
def decode (types : List AbiType) (data : List UInt8) : Guarded (List Json) :=
  decodeEach data types 0 0

end Guarded

/-! A guarded run beside the plain one. -/

/-- A guarded run ends like the plain one, unless it panics in a tolerated way. -/
def Runs (tolerated : Panic → Prop) (x : Guarded α) (y : Result α) : Prop :=
  x = returned y ∨ ∃ p, tolerated p ∧ x = panics p

variable {tolerated : Panic → Prop}

namespace Runs

theorem refl (y : Result α) : Runs tolerated (returned y) y :=
  .inl rfl

theorem bind {x : Guarded α} {y : Result α} {f : α → Guarded β} {g : α → Result β}
    (first : Runs tolerated x y) (rest : ∀ a, y = .ok a → Runs tolerated (f a) (g a)) :
    Runs tolerated (x >>= f) (y >>= g) := by
  rcases first with rfl | ⟨p, fine, rfl⟩
  · cases y with
    | error fault => exact .inl rfl
    | ok a => exact rest a rfl
  · exact .inr ⟨p, fine, rfl⟩

theorem number {n : Nat} {f : Nat → Guarded β} {y : Result β} (small : n < Text.limit64)
    (rest : Runs tolerated (f n) y) : Runs tolerated (Guarded.number n >>= f) y := by
  rw [Guarded.number, if_pos small]
  exact rest

theorem cut {bytes : List UInt8} {start stop : Nat} {f : List UInt8 → Guarded β} {y : Result β}
    (forward : start ≤ stop) (inside : stop ≤ bytes.length)
    (rest : Runs tolerated (f (slice bytes start (stop - start))) y) :
    Runs tolerated (Guarded.cut bytes start stop >>= f) y := by
  rw [Guarded.cut, if_pos ⟨forward, inside⟩]
  exact rest

end Runs

end Rehearsal.Abi
