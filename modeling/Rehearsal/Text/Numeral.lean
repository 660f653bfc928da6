/-!
Unsigned numerals: digits in a base, most significant first.
-/

namespace Rehearsal.Text

/-- The value of a digit in bases up to 16, of either case. -/
def digitValue? (c : Char) : Option Nat :=
  if '0' ≤ c ∧ c ≤ '9' then some (c.toNat - '0'.toNat)
  else if 'a' ≤ c ∧ c ≤ 'f' then some (c.toNat - 'a'.toNat + 10)
  else if 'A' ≤ c ∧ c ≤ 'F' then some (c.toNat - 'A'.toNat + 10)
  else none

def isDecimal (c : Char) : Bool :=
  '0' ≤ c && c ≤ '9'

def isHexadecimal (c : Char) : Bool :=
  (digitValue? c).isSome

def readDigits (base : Nat) : (acc : Nat) → List Char → Option Nat
  | acc, [] => some acc
  | acc, c :: rest =>
      match digitValue? c with
      | some d => if d < base then readDigits base (acc * base + d) rest else none
      | none => none

def readNat (base : Nat) : List Char → Option Nat
  | [] => none
  | s => readDigits base 0 s

/-- Reads one or more digits, after a plus sign or not, of a number below `limit`. -/
def readBelow (base limit : Nat) (s : List Char) : Option Nat :=
  let digits := match s with
    | '+' :: rest => rest
    | s => s
  match readNat base digits with
  | some n => if n < limit then some n else none
  | none => none

def limit64 : Nat := Nat.pow 2 64

/-- Reads a decimal number of 64 bits, after a plus sign or not. -/
def readCount (s : List Char) : Option Nat :=
  readBelow 10 limit64 s

def decimal (n : Nat) : List Char :=
  Nat.toDigits 10 n

def hexadecimal (width n : Nat) : List Char :=
  let digits := Nat.toDigits 16 n
  List.replicate (width - digits.length) '0' ++ digits

end Rehearsal.Text
