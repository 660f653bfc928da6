/-!
Finite binary floating-point numbers of 64 bits, as exact fractions.

A number is a sign, a significand below 2^53 and a power of two. Every operation computes an
exact quotient of naturals and rounds once, a half going to the even neighbour, so no rule
here rests on the machine's own arithmetic.
-/

namespace Rehearsal

/-- The number `± significand · 2 ^ exponent`. -/
structure Binary64 where
  negative : Bool
  significand : Nat
  exponent : Int
  deriving DecidableEq, Repr, Inhabited

namespace Binary64

def leastExponent : Int := -1074
def greatestExponent : Int := 971
def hiddenBit : Nat := Nat.pow 2 52

def zero (negative : Bool) : Binary64 := ⟨negative, 0, leastExponent⟩

def isZero (x : Binary64) : Bool := x.significand == 0

/-- The quotient rounded to the nearest natural, a half to the even one. -/
def roundDiv (num den : Nat) : Nat :=
  let q := num / den
  let r := num % den
  if 2 * r < den then q
  else if den < 2 * r then q + 1
  else if q % 2 = 0 then q else q + 1

/-- The greatest `e` with `2 ^ e ≤ num / den`, both positive. -/
def floorLog (num den : Nat) : Int :=
  let e : Int := (Nat.log2 num : Int) - (Nat.log2 den : Int)
  let reached :=
    if 0 ≤ e then den * Nat.pow 2 e.toNat ≤ num else den ≤ num * Nat.pow 2 (-e).toNat
  if reached then e else e - 1

/-- The number nearest to `num / den`, or nothing when it is too great. -/
def ofRatio (negative : Bool) (num den : Nat) : Option Binary64 :=
  if num = 0 then some (zero negative)
  else
    let exponent := max (floorLog num den - 52) leastExponent
    let significand :=
      if 0 ≤ exponent then roundDiv num (den * Nat.pow 2 exponent.toNat)
      else roundDiv (num * Nat.pow 2 (-exponent).toNat) den
    let rounded :=
      if significand = Nat.pow 2 53 then (⟨negative, hiddenBit, exponent + 1⟩ : Binary64)
      else ⟨negative, significand, exponent⟩
    if rounded.exponent ≤ greatestExponent then some rounded else none

def ofNat (n : Nat) : Option Binary64 := ofRatio false n 1

def ratio (x : Binary64) : Nat × Nat :=
  if 0 ≤ x.exponent then (x.significand * Nat.pow 2 x.exponent.toNat, 1)
  else (x.significand, Nat.pow 2 (-x.exponent).toNat)

def mul? (x y : Binary64) : Option Binary64 :=
  ofRatio (x.negative != y.negative) (x.ratio.1 * y.ratio.1) (x.ratio.2 * y.ratio.2)

def div? (x y : Binary64) : Option Binary64 :=
  ofRatio (x.negative != y.negative) (x.ratio.1 * y.ratio.2) (x.ratio.2 * y.ratio.1)

/-- The number nearest to `digits · 10 ^ scale`, or nothing when it is too great.
Scales beyond the range are settled by the count of digits alone. -/
def ofDecimal (negative : Bool) (digits : Nat) (scale : Int) : Option Binary64 :=
  if digits = 0 then some (zero negative)
  else
    let size := scale + (Nat.toDigits 10 digits).length
    if 310 < size then none
    else if size < -330 then some (zero negative)
    else if 0 ≤ scale then ofRatio negative (digits * Nat.pow 10 scale.toNat) 1
    else ofRatio negative digits (Nat.pow 10 (-scale).toNat)

def powerOfTen (n : Nat) : Binary64 :=
  (ofRatio false (Nat.pow 10 n) 1).getD (zero false)

/-- Divides by `10 ^ 308` as long as the scale calls for it and something is left. -/
def shrink : (steps : Nat) → Binary64 → (scale : Nat) → Binary64 × Nat
  | 0, x, scale => (x, scale)
  | steps + 1, x, scale =>
      if scale ≤ 308 ∨ x.isZero then (x, scale)
      else shrink steps ((x.div? (powerOfTen 308)).getD (zero false)) (scale - 308)

/-- A decimal read in two roundings: the digits, which fit 64 bits, become a number first, and
that is multiplied or divided by a rounded power of ten. Nothing when the result is too great.
Four steps of shrinking reach zero from every such number. -/
def ofScaled (negative : Bool) (digits : Nat) (scale : Int) : Option Binary64 := do
  let x ← ofNat digits
  let magnitude ←
    if x.isZero then some x
    else if 0 ≤ scale then
      if 308 < scale then none else x.mul? (powerOfTen scale.toNat)
    else
      let (x, scale) := shrink 4 x (-scale).toNat
      if x.isZero then some x else x.div? (powerOfTen scale)
  return { magnitude with negative }

end Binary64

end Rehearsal
