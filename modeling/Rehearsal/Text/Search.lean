/-!
Finding and removing fixed pieces of text.
-/

namespace Rehearsal.Text

/-- What follows `piece` at the front of the text, if it starts with it. -/
def dropPrefix? : (piece text : List Char) → Option (List Char)
  | [], text => some text
  | _ :: _, [] => none
  | p :: piece, c :: text => if p = c then dropPrefix? piece text else none

/-- What precedes `piece` at the end of the text, if it ends with it. -/
def dropSuffix? (piece text : List Char) : Option (List Char) :=
  (dropPrefix? piece.reverse text.reverse).map List.reverse

theorem dropPrefix?_eq_some_iff {piece text rest : List Char} :
    dropPrefix? piece text = some rest ↔ text = piece ++ rest := by
  induction piece generalizing text with
  | nil => simp [dropPrefix?, eq_comm]
  | cons p piece ih =>
      cases text with
      | nil => simp [dropPrefix?]
      | cons c text =>
          by_cases h : p = c
          · simp [dropPrefix?, h, ih]
          · simp [dropPrefix?, h, Ne.symm h]

/-- What follows the first occurrence of `piece`. -/
def after? (piece : List Char) : List Char → Option (List Char)
  | [] => dropPrefix? piece []
  | c :: text =>
      match dropPrefix? piece (c :: text) with
      | some rest => some rest
      | none => after? piece text

def contains (piece text : List Char) : Bool :=
  (after? piece text).isSome

theorem isSome_dropPrefix?_iff {piece text : List Char} :
    (dropPrefix? piece text).isSome = true ↔ piece <+: text := by
  rw [Option.isSome_iff_exists]
  simp only [dropPrefix?_eq_some_iff]
  constructor
  · rintro ⟨rest, whole⟩
    exact ⟨rest, whole.symm⟩
  · rintro ⟨rest, whole⟩
    exact ⟨rest, whole.symm⟩

theorem contains_eq_true_iff {piece text : List Char} :
    contains piece text = true ↔ piece <:+: text := by
  unfold contains
  induction text with
  | nil =>
      rw [after?, isSome_dropPrefix?_iff]
      simp
  | cons c text ih =>
      rw [after?, List.infix_cons_iff, ← isSome_dropPrefix?_iff]
      cases dropPrefix? piece (c :: text) with
      | some rest => simp
      | none => simpa using ih

/-- Drops every leading repetition of the two characters `a`, `b`. -/
def dropPairs (a b : Char) : List Char → List Char
  | x :: y :: rest => if x = a ∧ y = b then dropPairs a b rest else x :: y :: rest
  | text => text

def dropHexMarks (s : List Char) : List Char :=
  dropPairs '0' 'x' s

/-- The text before and after the first `mark`, if it occurs. -/
def splitAt? (mark : Char) : List Char → Option (List Char × List Char)
  | [] => none
  | c :: text =>
      if c = mark then some ([], text)
      else (splitAt? mark text).map fun (before, rest) => (c :: before, rest)

def splitAtLast? (mark : Char) (text : List Char) : Option (List Char × List Char) :=
  (splitAt? mark text.reverse).map fun (rest, before) => (before.reverse, rest.reverse)

def join (separator : String) (pieces : List String) : String :=
  String.intercalate separator pieces

end Rehearsal.Text
