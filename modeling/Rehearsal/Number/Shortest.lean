import Rehearsal.Number.Binary64
import Rehearsal.Text.Numeral
/-!
The fewest decimal digits that still read back as a given binary number.

On each decimal grid, coarse to fine, the two neighbours of the value are tried; the first
grid with a neighbour inside the interval of reals that round to the value wins, the nearer
neighbour first, and of two equally near ones the even one.
-/

namespace Rehearsal.Decimal

/-- The value `digits · 10 ^ (point - count of digits)`, digits without a zero at either end. -/
structure Digits where
  digits : List Char
  point : Int
  deriving DecidableEq, Repr

def orderFrom (num den : Nat) : (fuel : Nat) → (k : Nat) → Nat
  | 0, k => k
  | fuel + 1, k => if num < den * Nat.pow 10 k then k else orderFrom num den fuel (k + 1)

/-- Greatest `k` with `num · 10 ^ k < den`, from `k` up. -/
def smallnessFrom (num den : Nat) : (fuel : Nat) → (k : Nat) → Nat
  | 0, k => k
  | fuel + 1, k =>
      if num * Nat.pow 10 (k + 1) < den then smallnessFrom num den fuel (k + 1) else k

/-- The `k` with `10 ^ (k - 1) ≤ num / den < 10 ^ k`, within the range of the format. -/
def order (num den : Nat) : Int :=
  if den ≤ num then (orderFrom num den 310 0 : Nat)
  else -((smallnessFrom num den 330 0 : Nat) : Int)

/-- The interval of reals that round to a number, in units of `1 / den`. -/
structure Interval where
  low : Nat
  value : Nat
  high : Nat
  den : Nat
  closed : Bool

/-- Below a power of two the next number is only half as far away. -/
def Interval.of (x : Binary64) : Interval :=
  let lower :=
    if x.significand = Binary64.hiddenBit ∧ Binary64.leastExponent < x.exponent then 1 else 2
  let scale := x.exponent - 2
  let up := if 0 ≤ scale then Nat.pow 2 scale.toNat else 1
  let den := if 0 ≤ scale then 1 else Nat.pow 2 (-scale).toNat
  { low := (4 * x.significand - lower) * up
    value := 4 * x.significand * up
    high := (4 * x.significand + 2) * up
    den
    closed := x.significand % 2 == 0 }

def Interval.holds (i : Interval) (digits : Nat) (scale : Int) : Bool :=
  let num := if 0 ≤ scale then digits * Nat.pow 10 scale.toNat * i.den else digits * i.den
  let unit := if 0 ≤ scale then 1 else Nat.pow 10 (-scale).toNat
  if i.closed then i.low * unit ≤ num && num ≤ i.high * unit
  else i.low * unit < num && num < i.high * unit

def Interval.pick (i : Interval) (scale : Int) : Option Nat :=
  let num := if 0 ≤ scale then i.value else i.value * Nat.pow 10 (-scale).toNat
  let den := if 0 ≤ scale then i.den * Nat.pow 10 scale.toNat else i.den
  let below := num / den
  let rest := num % den
  match i.holds below scale, i.holds (below + 1) scale with
  | false, false => none
  | true, false => some below
  | false, true => some (below + 1)
  | true, true =>
      if 2 * rest < den ∨ (2 * rest = den ∧ below % 2 = 0) then some below
      else some (below + 1)

/-- Tries grids of `count`, `count + 1`, … digits. -/
def Interval.search (i : Interval) (order : Int) :
    (fuel : Nat) → (count : Nat) → Nat × Int
  | 0, count => (i.value / i.den, order - count)
  | fuel + 1, count =>
      match i.pick (order - count) with
      | some digits => (digits, order - count)
      | none => i.search order fuel (count + 1)

/-- The fewest digits that read back as the magnitude of a number other than zero;
seventeen always suffice. -/
def shortest (x : Binary64) : Digits :=
  let i := Interval.of x
  let (digits, scale) := i.search (order i.value i.den) 17 1
  let written := Text.decimal digits
  let kept := (written.reverse.dropWhile (· == '0')).reverse
  ⟨kept, scale + written.length⟩

structure Layout where
  /-- The decimal exponents written positionally are those from here … -/
  leastPositional : Int
  /-- … up to this one, which is the first written with an exponent. -/
  firstExponential : Int
  mark : Char
  /-- Whether an exponent that is not negative carries a plus sign. -/
  signed : Bool

def positional (d : Digits) : List Char :=
  let count : Int := d.digits.length
  if d.point ≤ 0 then
    '0' :: '.' :: (List.replicate (-d.point).toNat '0' ++ d.digits)
  else if count ≤ d.point then
    d.digits ++ List.replicate (d.point - count).toNat '0' ++ ['.', '0']
  else
    d.digits.take d.point.toNat ++ '.' :: d.digits.drop d.point.toNat

def exponential (layout : Layout) (d : Digits) : List Char :=
  let exponent := d.point - 1
  let sign := if exponent < 0 then ['-'] else if layout.signed then ['+'] else []
  let fraction := match d.digits.drop 1 with
    | [] => []
    | rest => '.' :: rest
  d.digits.take 1 ++ fraction ++ [layout.mark] ++ sign ++ Text.decimal exponent.natAbs

def write (layout : Layout) (x : Binary64) : List Char :=
  let sign := if x.negative then ['-'] else []
  if x.isZero then sign ++ ['0', '.', '0']
  else
    let d := shortest x
    let exponent := d.point - 1
    sign ++
      if layout.leastPositional ≤ exponent ∧ exponent < layout.firstExponential then positional d
      else exponential layout d

end Rehearsal.Decimal
