import Rehearsal.Number.Binary64
import Rehearsal.Text.Numeral
import Rehearsal.Toml.Basic
/-!
Numbers and moments in time.

Single underscores may stand between digits. A number that begins with a zero has no other
digit in front of its point.
-/

namespace Rehearsal.Toml.Numeral

/-- Whether underscores stand between digits only. -/
def isGrouped : List Char → Bool
  | [] => false
  | ['_'] => false
  | [_] => true
  | '_' :: _ => false
  | _ :: '_' :: '_' :: _ => false
  | _ :: '_' :: rest => isGrouped rest
  | _ :: rest => isGrouped rest

def digits? (isDigit : Char → Bool) (s : List Char) : Option (List Char × List Char) :=
  let mine (c : Char) : Bool := isDigit c || c == '_'
  let run := s.takeWhile mine
  if isGrouped run then some (run.filter (· != '_'), s.dropWhile mine) else none

def wholeDigits? (s : List Char) : Option (List Char × List Char) :=
  match digits? Text.isDecimal s with
  | some ('0' :: _ :: _, _) => none
  | result => result

def sign : List Char → Bool × List Char
  | '-' :: rest => (true, rest)
  | '+' :: rest => (false, rest)
  | s => (false, s)

def fits64 (n : Int) : Bool :=
  -(Nat.pow 2 63) ≤ n && n < Nat.pow 2 63

def integer? (negative : Bool) (base : Nat) (digits : List Char) : Option Value :=
  match Text.readNat base digits with
  | some n =>
      let n : Int := if negative then -(n : Int) else n
      if fits64 n then some (.integer n) else none
  | none => none

def based? (base : Nat) (s : List Char) : Option (Value × List Char) := do
  let isDigit (c : Char) : Bool := (Text.digitValue? c).any (· < base)
  let (digits, rest) ← digits? isDigit s
  return (← integer? false base digits, rest)

def fraction? : List Char → Option (List Char × List Char)
  | '.' :: rest => digits? Text.isDecimal rest
  | s => some ([], s)

def exponent? : List Char → Option (Int × List Char)
  | c :: rest =>
      if c = 'e' ∨ c = 'E' then do
        let (negative, rest) := sign rest
        let (digits, rest) ← digits? Text.isDecimal rest
        let n ← Text.readNat 10 digits
        return (if negative then -(n : Int) else n, rest)
      else some (0, c :: rest)
  | [] => some (0, [])

/-- Whether a float is refused: one that is too great, but not one that is too small. -/
def overflows (negative : Bool) (digits : List Char) (scale : Int) : Bool :=
  match Text.readNat 10 digits with
  | some n => (Binary64.ofDecimal negative n scale).isNone && !negative
  | none => true

def consumed (s rest : List Char) : String :=
  String.ofList (s.take (s.length - rest.length))

/-- A decimal number: an integer, unless a fraction or an exponent follows. -/
def decimal? (s : List Char) : Option (Value × List Char) := do
  let (negative, unsigned) := sign s
  let (whole, behind) ← wholeDigits? unsigned
  let (fraction, rest) ← fraction? behind
  let (exponent, rest) ← exponent? rest
  if rest.length = behind.length then return (← integer? negative 10 whole, rest)
  else if overflows negative (whole ++ fraction) (exponent - fraction.length) then none
  else return (.float (consumed s rest), rest)

def number? (s : List Char) : Option (Value × List Char) :=
  match s, (sign s).2 with
  | '0' :: 'x' :: rest, _ => based? 16 rest
  | '0' :: 'o' :: rest, _ => based? 8 rest
  | '0' :: 'b' :: rest, _ => based? 2 rest
  | s, 'i' :: 'n' :: 'f' :: rest => some (.float (consumed s rest), rest)
  | s, 'n' :: 'a' :: 'n' :: rest => some (.float (consumed s rest), rest)
  | s, _ => decimal? s

def count? (width : Nat) (s : List Char) : Option (Nat × List Char) :=
  let digits := s.take width
  if digits.length = width ∧ digits.all Text.isDecimal then
    (Text.readNat 10 digits).map fun n => (n, s.drop width)
  else none

def isLeapYear (year : Nat) : Bool :=
  year % 4 == 0 && (year % 100 != 0 || year % 400 == 0)

def daysIn (year month : Nat) : Nat :=
  if month = 2 then if isLeapYear year then 29 else 28
  else if month = 4 ∨ month = 6 ∨ month = 9 ∨ month = 11 then 30
  else 31

def behind? (mark : Char) : List Char → Option (List Char)
  | c :: rest => if c = mark then some rest else none
  | [] => none

def date? (s : List Char) : Option (List Char) := do
  let (year, s) ← count? 4 s
  let s ← behind? '-' s
  let (month, s) ← count? 2 s
  let s ← behind? '-' s
  let (day, s) ← count? 2 s
  if 1 ≤ month ∧ month ≤ 12 ∧ 1 ≤ day ∧ day ≤ daysIn year month then some s else none

def minutes? (s : List Char) : Option (List Char) := do
  let (hour, s) ← count? 2 s
  let s ← behind? ':' s
  let (minute, s) ← count? 2 s
  if hour ≤ 23 ∧ minute ≤ 59 then some s else none

def time? (s : List Char) : Option (List Char) := do
  let s ← minutes? s
  let s ← behind? ':' s
  let (second, s) ← count? 2 s
  if 60 < second then none
  else
    match s with
    | '.' :: rest =>
        if rest.takeWhile Text.isDecimal = [] then none else some (rest.dropWhile Text.isDecimal)
    | s => some s

def offset? : List Char → Option (List Char)
  | 'Z' :: rest => some rest
  | 'z' :: rest => some rest
  | '+' :: rest => minutes? rest
  | '-' :: rest => minutes? rest
  | s => some s

def timeOfDate? : List Char → Option (List Char)
  | c :: rest =>
      if c = 'T' ∨ c = 't' ∨ c = ' ' then
        match time? rest with
        | some rest => offset? rest
        | none => some (c :: rest)
      else some (c :: rest)
  | [] => some []

def moment? (s : List Char) : Option (Value × List Char) := do
  let rest ← match date? s with
    | some rest => timeOfDate? rest
    | none => time? s
  return (.moment (consumed s rest), rest)

end Rehearsal.Toml.Numeral
