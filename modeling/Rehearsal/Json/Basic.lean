import Rehearsal.Number.Binary64
/-!
JSON values.

An object keeps its fields in the order given, repeated names included, because some readers
have to see them; `Json.canonical` sorts the names and keeps the last value of each.
-/

namespace Rehearsal

/-- A number is an integer from `-2 ^ 63` below `2 ^ 64`, or a binary fraction. -/
inductive Json.Number where
  | integer (value : Int)
  | float (value : Binary64)
  deriving DecidableEq, Repr, Inhabited

inductive Json where
  | null
  | bool (value : Bool)
  | number (value : Json.Number)
  | string (value : String)
  | array (items : List Json)
  | object (fields : List (String × Json))
  deriving Repr, Inhabited

namespace Json

def ofNat (n : Nat) : Json := .number (.integer n)

def leastInteger : Int := -(Nat.pow 2 63)

def integerLimit : Int := Nat.pow 2 64

def ofOption {α : Type} (write : α → Json) : Option α → Json
  | some a => write a
  | none => .null

/-- A list of named values with ascending names and no name twice. -/
abbrev Mapping (α : Type) := List (String × α)

end Json

namespace Json.Mapping

variable {α : Type}

/-- Binds a name, in place of its former value if it has one. -/
def insert (name : String) (value : α) : Mapping α → Mapping α
  | [] => [(name, value)]
  | (key, old) :: rest =>
      if name = key then (name, value) :: rest
      else if name < key then (name, value) :: (key, old) :: rest
      else (key, old) :: insert name value rest

/-- Binds names one after the other, so that the last value of a name stays. -/
def ofList (entries : List (String × α)) : Mapping α :=
  entries.foldl (fun m entry => insert entry.1 entry.2 m) []

def get? (name : String) : Mapping α → Option α
  | [] => none
  | (key, value) :: rest => if key = name then some value else get? name rest

def contains (name : String) (m : Mapping α) : Bool :=
  (m.get? name).isSome

def names (m : Mapping α) : List String :=
  m.map Prod.fst

theorem get?_insert (name other : String) (value : α) (m : Mapping α) :
    get? other (insert name value m) = if name = other then some value else get? other m := by
  induction m with
  | nil => simp [insert, get?]
  | cons entry rest ih =>
      obtain ⟨key, old⟩ := entry
      simp only [insert]
      split
      · next h => subst h; by_cases h : name = other <;> simp [get?, h]
      · next h =>
          split
          · by_cases h : name = other <;> simp [get?, h]
          · by_cases hk : key = other
            · subst hk; simp [get?, h]
            · simp [get?, hk, ih]

end Json.Mapping

namespace Json

mutual

/-- Names ascending by code points and each once, with its last value, at every depth. -/
def canonical : Json → Json
  | .array items => .array (canonicalItems items)
  | .object fields => .object (Mapping.ofList (canonicalFields fields))
  | .null => .null
  | .bool b => .bool b
  | .number n => .number n
  | .string s => .string s

def canonicalItems : List Json → List Json
  | [] => []
  | item :: rest => item.canonical :: canonicalItems rest

def canonicalFields : List (String × Json) → List (String × Json)
  | [] => []
  | (name, value) :: rest => (name, value.canonical) :: canonicalFields rest

end

def string? : Json → Option String
  | .string s => some s
  | _ => none

def array? : Json → Option (List Json)
  | .array items => some items
  | _ => none

def nat? : Json → Option Nat
  | .number (.integer n) => if 0 ≤ n ∧ n < integerLimit then some n.toNat else none
  | _ => none

def int? : Json → Option Int
  | .number (.integer n) => if leastInteger ≤ n ∧ n < -leastInteger then some n else none
  | _ => none

/-- The value of a field, null when the value is no object or has no such field. -/
def field (name : String) : Json → Json
  | .object fields => (Mapping.get? name fields).getD .null
  | _ => .null

def isNull : Json → Bool
  | .null => true
  | _ => false

end Json

end Rehearsal
