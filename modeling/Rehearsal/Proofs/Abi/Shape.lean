import Mathlib.Tactic.Common
import Rehearsal.Abi.Declaration
import Rehearsal.Json.Basic
import Rehearsal.Proofs.Result

namespace Rehearsal

/-! The shape of types: properties of every nested type, and the room that a type takes in the
head of a tuple. -/

namespace AbiType

@[elab_as_elim, induction_eliminator]
theorem induction {motive : AbiType → Prop} (address : motive .address)
    (uint : ∀ bits, motive (.uint bits)) (int : ∀ bits, motive (.int bits))
    (bool : motive .bool) (string : motive .string) (bytes : motive .bytes)
    (fixedBytes : ∀ size, motive (.fixedBytes size))
    (array : ∀ item, motive item → motive (.array item))
    (fixedArray : ∀ item count, motive item → motive (.fixedArray item count))
    (tuple : ∀ items, (∀ item ∈ items, motive item) → motive (.tuple items))
    (type : AbiType) : motive type := by
  refine @AbiType.rec motive (fun items => ∀ item ∈ items, motive item) address uint int bool
    string bytes fixedBytes array fixedArray tuple ?_ ?_ type
  · exact fun item member => absurd member List.not_mem_nil
  · intro head tail headHolds tailHolds item member
    rcases List.mem_cons.mp member with rfl | member
    · exact headHolds
    · exact tailHolds item member

mutual

/-- A property holds of a type and of every type nested in it. -/
def Everywhere (p : AbiType → Prop) : AbiType → Prop
  | .array item => p (.array item) ∧ item.Everywhere p
  | .fixedArray item count => p (.fixedArray item count) ∧ item.Everywhere p
  | .tuple items => p (.tuple items) ∧ AllEverywhere p items
  | .address => p .address
  | .uint bits => p (.uint bits)
  | .int bits => p (.int bits)
  | .bool => p .bool
  | .string => p .string
  | .bytes => p .bytes
  | .fixedBytes size => p (.fixedBytes size)

def AllEverywhere (p : AbiType → Prop) : List AbiType → Prop
  | [] => True
  | item :: rest => item.Everywhere p ∧ AllEverywhere p rest

end

theorem allEverywhere_iff {p : AbiType → Prop} {items : List AbiType} :
    AllEverywhere p items ↔ ∀ item ∈ items, item.Everywhere p := by
  induction items with
  | nil => simp [AllEverywhere]
  | cons item rest ih => simp [AllEverywhere, ih]

theorem Everywhere.imp {p q : AbiType → Prop} (implies : ∀ type, p type → q type)
    {type : AbiType} (holds : type.Everywhere p) : type.Everywhere q := by
  induction type with
  | array item ih => exact ⟨implies _ holds.1, ih holds.2⟩
  | fixedArray item count ih => exact ⟨implies _ holds.1, ih holds.2⟩
  | tuple items ih =>
      have each := allEverywhere_iff.mp holds.2
      refine ⟨implies _ holds.1, allEverywhere_iff.mpr ?_⟩
      exact fun item member => ih item member (each item member)
  | _ => exact implies _ holds

theorem everywhere_of_forall {p : AbiType → Prop} (all : ∀ type, p type) (type : AbiType) :
    type.Everywhere p := by
  induction type with
  | array item ih => exact ⟨all _, ih⟩
  | fixedArray item count ih => exact ⟨all _, ih⟩
  | tuple items ih => exact ⟨all _, allEverywhere_iff.mpr ih⟩
  | _ => exact all _

/-- Octets of a fixed number fit into a word. -/
def FitsWord : AbiType → Prop
  | .fixedBytes size => size ≤ 32
  | _ => True

/-- The items of a dynamic array take room in its head. -/
def ItemsTakeRoom : AbiType → Prop
  | .array item => 0 < item.headLength
  | _ => True

def IsElementary : AbiType → Prop
  | .array _ => False
  | .fixedArray _ _ => False
  | .tuple _ => False
  | _ => True

/-! In every type that is read from parameters, octets of a fixed number fit into a word. -/

theorem le_of_width? {greatest step n : Nat} {digits : List Char}
    (read : width? greatest step digits = some n) : n ≤ greatest := by
  unfold width? at read
  split at read
  · split at read
    · next holds =>
      cases read
      exact holds.2.1
    · contradiction
  · contradiction

theorem fitsWord_of_sized? {kind : List Char} {type : AbiType}
    (read : sized? kind = some type) : type.Everywhere FitsWord := by
  simp only [sized?, Option.orElse_eq_orElse, Option.orElse_eq_or, Option.or_eq_some_iff,
    Option.map_eq_some_iff, Option.bind_eq_some_iff] at read
  rcases read with ⟨_, _, rfl⟩ | ⟨_, ⟨_, _, rfl⟩ | ⟨_, size, ⟨_, _, width⟩, rfl⟩⟩
  · trivial
  · trivial
  · exact le_of_width? width

variable {components : Unit → Except Fault (List AbiType)}

theorem fitsWord_of_ofBase
    (ofComponents : ∀ types, components () = .ok types → AllEverywhere FitsWord types)
    {kind : List Char} {type : AbiType} (read : ofBase components kind = .ok type) :
    type.Everywhere FitsWord := by
  unfold ofBase at read
  split at read
  · cases read; trivial
  · split at read
    · cases read; trivial
    · split at read
      · cases read; trivial
      · split at read
        · cases read; trivial
        · split at read
          · cases read; trivial
          · split at read
            · cases read; trivial
            · split at read
              · obtain ⟨types, found, rfl⟩ := Except.map_eq_ok.mp read
                exact ⟨trivial, ofComponents types found⟩
              · split at read
                · next found =>
                  cases read
                  exact fitsWord_of_sized? found
                · contradiction

theorem fitsWord_of_ofKindWithin
    (ofComponents : ∀ types, components () = .ok types → AllEverywhere FitsWord types)
    {fuel : Nat} {kind : List Char} {type : AbiType}
    (read : ofKindWithin components fuel kind = .ok type) : type.Everywhere FitsWord := by
  induction fuel generalizing kind type with
  | zero => contradiction
  | succ fuel ih =>
      unfold ofKindWithin at read
      split at read
      · exact fitsWord_of_ofBase ofComponents read
      · split at read
        · contradiction
        · split at read
          · contradiction
          · next item inner =>
            split at read
            · cases read
              exact ⟨trivial, ih inner⟩
            · split at read
              · cases read
                exact ⟨trivial, ih inner⟩
              · contradiction

end AbiType

namespace Abi

open AbiType

mutual

theorem fitsWord_of_type : ∀ {param : Param} {type : AbiType}, param.type = .ok type →
    type.Everywhere FitsWord
  | ⟨_, _, _, _⟩, _, read =>
      fitsWord_of_ofKindWithin (fun _ found => fitsWord_of_typesOf found) read

theorem fitsWord_of_typesOf : ∀ {params : List Param} {types : List AbiType},
    typesOf params = .ok types → AllEverywhere FitsWord types
  | [], _, read => by
      cases read
      trivial
  | param :: rest, types, read => by
      unfold typesOf at read
      split at read
      · contradiction
      · next type first =>
        split at read
        · contradiction
        · next others tail =>
          cases read
          exact ⟨fitsWord_of_type first, fitsWord_of_typesOf tail⟩

end

end Abi

namespace AbiType

/-! Room in the head. -/

theorem anyDynamic_eq_false {items : List AbiType} :
    anyDynamic items = false ↔ ∀ item ∈ items, item.isDynamic = false := by
  induction items with
  | nil => simp [anyDynamic]
  | cons item rest ih => simp [anyDynamic, ih]

theorem headLength_of_isDynamic {type : AbiType} (dynamic : type.isDynamic = true) :
    type.headLength = 32 := by
  cases type with
  | fixedArray item count => exact if_pos dynamic
  | tuple items => exact if_pos dynamic
  | _ => rfl

theorem headLength_of_isElementary {type : AbiType} (elementary : type.IsElementary) :
    type.headLength = 32 := by
  cases type with
  | array item => contradiction
  | fixedArray item count => contradiction
  | tuple items => contradiction
  | _ => rfl

theorem dvd_headLengths {items : List AbiType} (each : ∀ item ∈ items, 32 ∣ item.headLength) :
    32 ∣ headLengths items := by
  induction items with
  | nil => exact ⟨0, rfl⟩
  | cons item rest ih =>
      rw [headLengths]
      exact Nat.dvd_add (each item List.mem_cons_self)
        (ih fun other member => each other (List.mem_cons_of_mem item member))

theorem dvd_headLength (type : AbiType) : 32 ∣ type.headLength := by
  induction type with
  | fixedArray item count ih =>
      rw [headLength]
      split
      · exact ⟨1, rfl⟩
      · exact Nat.dvd_mul_right_of_dvd ih count
  | tuple items ih =>
      rw [headLength]
      split
      · exact ⟨1, rfl⟩
      · exact dvd_headLengths ih
  | _ => exact ⟨1, rfl⟩

theorem le_headLength {type : AbiType} (room : type.headLength ≠ 0) : 32 ≤ type.headLength :=
  Nat.le_of_dvd (Nat.pos_of_ne_zero room) (dvd_headLength type)

theorem headLengths_replicate (count : Nat) (item : AbiType) :
    headLengths (List.replicate count item) = item.headLength * count := by
  induction count with
  | zero => rfl
  | succ count ih =>
      rw [List.replicate_succ, headLengths, ih, Nat.mul_succ, Nat.add_comm]

end AbiType

end Rehearsal
