/-!
The Keccak hash of 256 bits, with the padding that contract platforms use.

The state is twenty-five lanes of 64 bits; each round is written lane by lane from the state
before it.
-/

namespace Rehearsal

abbrev Bytes32 := Vector UInt8 32

namespace Keccak

abbrev State := Vector UInt64 25

/-- The lane of column `x` in plane `y`, both counted modulo five. -/
def State.lane (s : State) (x y : Nat) : UInt64 :=
  s.get (Fin.ofNat 25 (x % 5 + 5 * (y % 5)))

def State.build (lane : (x y : Nat) → UInt64) : State :=
  Vector.ofFn fun i => lane (i.val % 5) (i.val / 5)

def rotate (w : UInt64) (n : Nat) : UInt64 :=
  if n % 64 = 0 then w
  else w <<< UInt64.ofNat (n % 64) ||| w >>> UInt64.ofNat (64 - n % 64)

/-- How far the lane of column `x` in plane `y` is rotated, at position `x + 5 y`. -/
def offsets : Vector Nat 25 :=
  #v[0, 1, 62, 28, 27, 36, 44, 6, 55, 20, 3, 10, 43, 25, 39, 41, 45, 15, 21, 8, 18, 2, 61, 56, 14]

def offset (x y : Nat) : Nat :=
  offsets.get (Fin.ofNat 25 (x % 5 + 5 * (y % 5)))

def roundConstants : List UInt64 :=
  [0x0000000000000001, 0x0000000000008082, 0x800000000000808A, 0x8000000080008000,
    0x000000000000808B, 0x0000000080000001, 0x8000000080008081, 0x8000000000008009,
    0x000000000000008A, 0x0000000000000088, 0x0000000080008009, 0x000000008000000A,
    0x000000008000808B, 0x800000000000008B, 0x8000000000008089, 0x8000000000008003,
    0x8000000000008002, 0x8000000000000080, 0x000000000000800A, 0x800000008000000A,
    0x8000000080008081, 0x8000000000008080, 0x0000000080000001, 0x8000000080008008]

def diffuse (s : State) : State :=
  let parities : Vector UInt64 5 := Vector.ofFn fun x =>
    s.lane x 0 ^^^ s.lane x 1 ^^^ s.lane x 2 ^^^ s.lane x 3 ^^^ s.lane x 4
  let parity (x : Nat) : UInt64 := parities.get (Fin.ofNat 5 x)
  State.build fun x y => s.lane x y ^^^ parity (x + 4) ^^^ rotate (parity (x + 1)) 1

def permute (s : State) : State :=
  State.build fun x y => rotate (s.lane (x + 3 * y) x) (offset (x + 3 * y) x)

def mix (s : State) : State :=
  State.build fun x y => s.lane x y ^^^ (~~~ s.lane (x + 1) y &&& s.lane (x + 2) y)

def round (s : State) (constant : UInt64) : State :=
  let s := mix (permute (diffuse s))
  s.set 0 (s.lane 0 0 ^^^ constant)

def permutation (s : State) : State :=
  roundConstants.foldl round s

def rate : Nat := 136

def word (bytes : List UInt8) : UInt64 :=
  bytes.foldr (fun b w => w <<< 8 ||| b.toUInt64) 0

/-- Adds a block to the first seventeen lanes. -/
def absorb (s : State) (block : List UInt8) : State :=
  let lanes : Vector UInt64 25 := Vector.ofFn fun i => word ((block.drop (8 * i.val)).take 8)
  permutation (State.build fun x y => s.lane x y ^^^ lanes.get (Fin.ofNat 25 (x + 5 * y)))

/-- Fills the last block: a one bit behind the data and a one bit at the end. -/
def pad (data : List UInt8) : List UInt8 :=
  let missing := rate - data.length % rate
  if missing = 1 then data ++ [0x81]
  else data ++ 0x01 :: (List.replicate (missing - 2) 0x00 ++ [0x80])

def sponge (s : State) : (blocks : Nat) → List UInt8 → State
  | 0, _ => s
  | blocks + 1, data => sponge (absorb s (data.take rate)) blocks (data.drop rate)

def hash (data : List UInt8) : Bytes32 :=
  let padded := pad data
  let s := sponge (Vector.replicate 25 0) (padded.length / rate) padded
  Vector.ofFn fun i =>
    ((s.get (Fin.ofNat 25 (i.val / 8))) >>> UInt64.ofNat (8 * (i.val % 8))).toUInt8

/-! Hashes of no text and of a digit, each computed in a proof of its own: the kernel keeps whatever it
has computed until it is done with a proof. -/

theorem head_hash_nil : (hash [])[0] = 0xC5 := by decide +kernel

theorem head_hash_five : (hash [0x35])[0] = 0xCE := by decide +kernel

end Keccak

end Rehearsal
