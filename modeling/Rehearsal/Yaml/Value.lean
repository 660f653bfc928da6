import Rehearsal.Json.Basic
import Rehearsal.Yaml.Node
/-!
The values that scalars denote, and values of any shape.
-/

namespace Rehearsal.Yaml

inductive Value where
  | null
  | bool (value : Bool)
  | integer (value : Int)
  | float (value : Binary64)
  /-- An infinite number or none at all. -/
  | infinite
  | string (value : String)
  | sequence (items : List Value)
  | mapping (entries : List (Value × Value))
  deriving Repr, Inhabited

namespace Scalar

def isNullWord (s : String) : Bool :=
  s == "null" || s == "Null" || s == "NULL" || s == "~"

def bool? (s : String) : Option Bool :=
  if s = "true" ∨ s = "True" ∨ s = "TRUE" then some true
  else if s = "false" ∨ s = "False" ∨ s = "FALSE" then some false
  else none

def hasLeadingZero (s : List Char) : Bool :=
  let digits := match s with
    | '-' :: rest => rest
    | '+' :: rest => rest
    | s => s
  match digits with
  | '0' :: d :: rest => (d :: rest).all Text.isDecimal
  | _ => false

def magnitude? (s : List Char) : Option Nat :=
  match s with
  | '0' :: 'x' :: digits => Text.readNat 16 digits
  | '0' :: 'o' :: digits => Text.readNat 8 digits
  | '0' :: 'b' :: digits => Text.readNat 2 digits
  | s => if hasLeadingZero s then none else Text.readNat 10 s

def integer? (s : List Char) : Option Int :=
  match s with
  | '-' :: rest => (magnitude? rest).map fun n => -(n : Int)
  | '+' :: rest => (magnitude? rest).map Int.ofNat
  | s => (magnitude? s).map Int.ofNat

def exponent? : List Char → Option Int
  | [] => some 0
  | e :: rest =>
      if e = 'e' ∨ e = 'E' then
        match rest with
        | '-' :: digits => (Text.readNat 10 digits).map fun n => -(n : Int)
        | '+' :: digits => (Text.readNat 10 digits).map Int.ofNat
        | digits => (Text.readNat 10 digits).map Int.ofNat
      else none

def decimal? (negative : Bool) (s : List Char) : Option Binary64 := do
  let whole := s.takeWhile Text.isDecimal
  let rest := s.dropWhile Text.isDecimal
  let (fraction, rest) := match rest with
    | '.' :: rest => (rest.takeWhile Text.isDecimal, rest.dropWhile Text.isDecimal)
    | rest => ([], rest)
  let digits ← Text.readNat 10 (whole ++ fraction)
  let exponent ← exponent? rest
  Binary64.ofDecimal negative digits (exponent - fraction.length)

def isInfinite (s : String) : Bool :=
  [".inf", ".Inf", ".INF", "+.inf", "+.Inf", "+.INF", "-.inf", "-.Inf", "-.INF", ".nan", ".NaN",
    ".NAN"].contains s

def float? (s : String) : Option Value :=
  if isInfinite s then some .infinite
  else
    match s.toList with
    | '-' :: rest => (decimal? true rest).map .float
    | '+' :: rest => (decimal? false rest).map .float
    | s => (decimal? false s).map .float

def fits64 (n : Int) : Bool :=
  Json.leastInteger ≤ n && n < Json.integerLimit

def fits128 (n : Int) : Bool :=
  -(Nat.pow 2 127) ≤ n && n < Nat.pow 2 128

/-- An integer of 64 bits; greater ones are refused as long as 128 bits hold them. -/
def wholeNumber? (s : String) : Option (Result Value) :=
  match integer? s.toList with
  | none => none
  | some n =>
      if fits64 n then some (.ok (.integer n))
      else if fits128 n then some (.error (.expected "an integer of 64 bits"))
      else none

/-- The value of a plain scalar without a tag. -/
def ofPlain (s : String) : Result Value :=
  if s = "" ∨ isNullWord s then .ok .null
  else
    match bool? s with
    | some b => .ok (.bool b)
    | none =>
        match wholeNumber? s with
        | some result => result
        | none =>
            if hasLeadingZero s.toList then .ok (.string s)
            else .ok ((float? s).getD (.string s))

def coreTag (name : String) : String := "tag:yaml.org,2002:" ++ name

def localTag? : Option String → Option String
  | none => none
  | some tag =>
      match tag.toList with
      | ['!'] => some "!"
      | '!' :: name => some (String.ofList name)
      | _ => none

/-- Whether a scalar may be meant as a value of the core schema that is no string: it is plain,
or a literal block with the tag of that value. -/
def mayDenote (name : String) (tag : Option String) (style : Style) : Bool :=
  style == .plain || (style == .literal && tag == some (coreTag name))

def orExpected {α : Type} (shape : String) : Option α → Result α
  | some a => .ok a
  | none => .error (.expected shape)

def value (tag : Option String) (text : String) (style : Style) : Result Value :=
  match tag with
  | none => if style = .plain then ofPlain text else .ok (.string text)
  | some tag =>
      if (localTag? (some tag)).isSome then .error (.expected "a value")
      else if tag = coreTag "bool" then orExpected "a boolean" ((bool? text).map .bool)
      else if tag = coreTag "int" then (wholeNumber? text).getD (.error (.expected "an integer"))
      else if tag = coreTag "float" then orExpected "a number" (float? text)
      else if tag = coreTag "null" then
        if isNullWord text then .ok .null else .error (.expected "null")
      else .ok (.string text)

end Scalar

namespace Value

def number (n : Int) : Json := .number (.integer n)

mutual

def toJson : Value → Result Json
  | .null => .ok .null
  | .bool b => .ok (.bool b)
  | .integer n => .ok (number n)
  | .float x => .ok (.number (.float x))
  | .infinite => .ok .null
  | .string s => .ok (.string s)
  | .sequence items => do return .array (← toJsonItems items)
  | .mapping entries => do return .object (Json.Mapping.ofList (← toJsonEntries entries))

def toJsonItems : List Value → Result (List Json)
  | [] => .ok []
  | item :: rest => do
      let item ← toJson item
      let items ← toJsonItems rest
      return item :: items

def toJsonEntries : List (Value × Value) → Result (List (String × Json))
  | [] => .ok []
  | (.string name, value) :: rest => do
      let value ← toJson value
      let entries ← toJsonEntries rest
      return (name, value) :: entries
  | _ => .error (.expected "a string")

end

end Value

end Rehearsal.Yaml
