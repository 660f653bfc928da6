import Rehearsal.Json.Printer
import Rehearsal.Keccak
import Rehearsal.Text.Blank
import Rehearsal.Text.Search
/-!
Unsigned integers of 256 bits: their octets, most significant first, and their text.
-/

namespace Rehearsal.Word

def limit : Nat := Nat.pow 2 256

def bigEndian : (count : Nat) → Nat → List UInt8
  | 0, _ => []
  | count + 1, n => bigEndian count (n / 256) ++ [UInt8.ofNat (n % 256)]

/-- The number that octets denote, most significant first. -/
def ofBigEndian (bytes : List UInt8) : Nat :=
  bytes.foldl (fun n b => n * 256 + b.toNat) 0

@[simp] theorem length_bigEndian (count n : Nat) : (bigEndian count n).length = count := by
  induction count generalizing n with
  | zero => rfl
  | succ count ih => simp [bigEndian, ih]

@[simp] theorem ofBigEndian_concat (bytes : List UInt8) (b : UInt8) :
    ofBigEndian (bytes ++ [b]) = ofBigEndian bytes * 256 + b.toNat := by
  simp [ofBigEndian]

theorem ofBigEndian_bigEndian (count n : Nat) :
    ofBigEndian (bigEndian count n) = n % Nat.pow 256 count := by
  induction count generalizing n with
  | zero => exact (Nat.mod_one n).symm
  | succ count ih =>
      have hp : Nat.pow 256 (count + 1) = 256 * Nat.pow 256 count := Nat.mul_comm _ _
      rw [bigEndian, ofBigEndian_concat, ih, hp, Nat.mod_mul, UInt8.toNat_ofNat']
      omega

def bytes (n : Nat) : List UInt8 :=
  bigEndian 32 n

/-- Sixty-four hexadecimal digits at most, a mark in front of them or not; no digits are zero. -/
def ofHex? (digits : List Char) : Option Nat :=
  let digits := (Text.dropPrefix? ['0', 'x'] digits).getD digits
  if digits.length ≤ 64 then Text.readDigits 16 0 digits else none

/-- Decimal digits of a number below the limit; no digits are zero. -/
def ofDecimal? (digits : List Char) : Option Nat :=
  match Text.readDigits 10 0 digits with
  | some n => if n < limit then some n else none
  | none => none

/-- Reads a word in decimal, or in hexadecimal behind a mark, without looking for blanks. -/
def ofDigits? (s : List Char) : Option Nat :=
  match s with
  | '0' :: 'x' :: digits => ofHex? digits
  | '0' :: 'X' :: digits => ofHex? digits
  | s => ofDecimal? s

def complement (n : Nat) : Nat :=
  (limit - n) % limit

end Rehearsal.Word
