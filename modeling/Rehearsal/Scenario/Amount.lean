import Rehearsal.Abi.Encode
import Rehearsal.Scenario.Error
/-!
Amounts of native currency: whole numbers of the smallest unit, or a number and a unit.
-/

namespace Rehearsal.Amount

def decimals? (unit : List Char) : Option Nat :=
  let unit := Text.lower (Text.trim unit)
  if unit = "wei".toList then some 0
  else if unit = "gwei".toList then some 9
  else if unit = "ether".toList ∨ unit = "eth".toList then some 18
  else none

def parts (amount : List Char) : List Char × List Char :=
  (Text.splitAt? '.' amount).getD (amount, [])

/-- `amount · 10 ^ decimals` if that is a whole number below the limit. -/
def scale? (amount : List Char) (decimals : Nat) : Option Nat :=
  let (whole, fraction) := parts amount
  if fraction.length ≤ decimals ∧ whole.all Text.isDecimal ∧ fraction.all Text.isDecimal
      ∧ ¬(whole = [] ∧ fraction = []) then
    Word.ofDecimal?
      (whole ++ fraction ++ List.replicate (decimals - fraction.length) '0')
  else none

/-- The amount that a text tells: with a unit behind the first blank, or a bare number. -/
def ofText? (s : List Char) : Option Nat :=
  let s := Text.trim s
  match Text.splitAtBlank s with
  | some (amount, unit) => (decimals? unit).bind (scale? amount)
  | none => (Abi.unsignedOfText s).toOption

def parse (value : Json) : Except RunError Nat :=
  let amount := match value with
    | .string s => ofText? s.toList
    | value => value.nat?
  match amount with
  | some n => .ok n
  | none => .error (.configuration (.malformedValue value))

end Rehearsal.Amount
