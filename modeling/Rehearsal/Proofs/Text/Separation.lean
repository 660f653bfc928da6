import Mathlib.Data.List.Basic
import Rehearsal.Text.Search

namespace Rehearsal.Text

/-! When the pieces of a text can be told from the whole. Pieces stand one behind the other with a
mark between neighbours. Two lists of pieces make up different texts when no piece is a piece of the
other list that goes on with a mark. Pieces without the mark are like that, and so are pieces in
which the mark stands between brackets only. -/

def Apart (mark : Char) (x y : List Char) : Prop :=
  ∀ rest, y ≠ x ++ mark :: rest ∧ x ≠ y ++ mark :: rest

def Stops (mark : Char) (rest : List Char) : Prop :=
  ∀ c ∈ rest.head?, c = mark

variable {mark : Char} {x y : List Char}

theorem apart_of_count_eq (same : x.count mark = y.count mark) : Apart mark x y := by
  intro rest
  constructor
  · rintro rfl
    rw [List.count_append, List.count_cons_self] at same
    omega
  · rintro rfl
    rw [List.count_append, List.count_cons_self] at same
    omega

theorem apart_of_notMem (noneLeft : mark ∉ x) (noneRight : mark ∉ y) : Apart mark x y := by
  apply apart_of_count_eq
  rw [List.count_eq_zero.mpr noneLeft, List.count_eq_zero.mpr noneRight]

theorem stops_nil : Stops mark [] := by
  intro c member
  contradiction

theorem stops_cons (rest : List Char) : Stops mark (mark :: rest) := by
  intro c member
  exact (Option.mem_some_iff.mp member).symm

theorem eq_of_append_eq {r s : List Char} (apart : Apart mark x y) (stopsLeft : Stops mark r)
    (stopsRight : Stops mark s) (same : x ++ r = y ++ s) : x = y ∧ r = s := by
  rcases List.append_eq_append_iff.mp same with ⟨more, rfl, rfl⟩ | ⟨more, rfl, rfl⟩
  · cases more with
    | nil => simp
    | cons c more =>
        obtain rfl := stopsLeft c rfl
        exact absurd rfl (apart more).1
  · cases more with
    | nil => simp
    | cons c more =>
        obtain rfl := stopsRight c rfl
        exact absurd rfl (apart more).2

def following (mark : Char) (pieces : List (List Char)) : List Char :=
  pieces.flatMap (mark :: ·)

theorem stops_following (pieces : List (List Char)) : Stops mark (following mark pieces) := by
  cases pieces with
  | nil => exact stops_nil
  | cons piece pieces => exact stops_cons _

theorem eq_of_following_eq {xs ys : List (List Char)}
    (apart : ∀ pair ∈ xs.zip ys, Apart mark pair.1 pair.2)
    (same : following mark xs = following mark ys) : xs = ys := by
  induction xs generalizing ys with
  | nil =>
      cases ys with
      | nil => rfl
      | cons y ys => contradiction
  | cons x xs ih =>
      cases ys with
      | nil => contradiction
      | cons y ys =>
          have first : Apart mark x y := apart (x, y) List.mem_cons_self
          have others : ∀ pair ∈ xs.zip ys, Apart mark pair.1 pair.2 :=
            fun pair member => apart pair (List.mem_cons_of_mem _ member)
          obtain ⟨rfl, rest⟩ := eq_of_append_eq first (stops_following xs) (stops_following ys)
            (List.cons.inj same).2
          rw [ih others rest]

theorem cons_intercalate (piece : List Char) (pieces : List (List Char)) :
    mark :: List.intercalate [mark] (piece :: pieces) = following mark (piece :: pieces) := by
  induction pieces generalizing piece with
  | nil => simp [following]
  | cons next pieces ih =>
      rw [List.intercalate_cons_cons, List.append_assoc, List.singleton_append, ih]
      rfl

/-- Joined pieces are told from the whole. That there are none cannot be told from one without
characters. -/
theorem eq_of_intercalate_eq {xs ys : List (List Char)}
    (apart : ∀ pair ∈ xs.zip ys, Apart mark pair.1 pair.2) (none : xs = [] ↔ ys = [])
    (same : List.intercalate [mark] xs = List.intercalate [mark] ys) : xs = ys := by
  cases xs with
  | nil => exact (none.mp rfl).symm
  | cons x xs =>
      cases ys with
      | nil => exact none.mpr rfl
      | cons y ys =>
          apply eq_of_following_eq apart
          rw [← cons_intercalate, ← cons_intercalate, same]

theorem intercalate_ne_nil {pieces : List (List Char)} (full : ∀ piece ∈ pieces, piece ≠ [])
    (some : pieces ≠ []) : List.intercalate [mark] pieces ≠ [] := by
  cases pieces with
  | nil => contradiction
  | cons piece pieces =>
      cases pieces with
      | nil =>
          rw [List.intercalate_singleton]
          exact full piece List.mem_cons_self
      | cons next pieces =>
          rw [List.intercalate_cons_cons]
          simp

theorem eq_nil_iff_of_intercalate_eq {xs ys : List (List Char)} (fullLeft : ∀ x ∈ xs, x ≠ [])
    (fullRight : ∀ y ∈ ys, y ≠ [])
    (same : List.intercalate [mark] xs = List.intercalate [mark] ys) : xs = [] ↔ ys = [] := by
  constructor
  · rintro rfl
    by_contra some
    exact intercalate_ne_nil fullRight some same.symm
  · rintro rfl
    by_contra some
    exact intercalate_ne_nil fullLeft some same

/-! Brackets. -/

def depthBehind (mark opening closing : Char) : (depth : Nat) → List Char → Option Nat
  | depth, [] => some depth
  | depth, c :: rest =>
      if c = opening then depthBehind mark opening closing (depth + 1) rest
      else
        match depth with
        | 0 => if c = closing ∨ c = mark then none else depthBehind mark opening closing 0 rest
        | depth + 1 =>
            if c = closing then depthBehind mark opening closing depth rest
            else depthBehind mark opening closing (depth + 1) rest

/-- Each bracket that is opened is closed again, and the mark stands between brackets only. -/
def Enclosed (mark opening closing : Char) (s : List Char) : Prop :=
  depthBehind mark opening closing 0 s = some 0

variable {opening closing : Char}

theorem depthBehind_append (depth : Nat) (s t : List Char) :
    depthBehind mark opening closing depth (s ++ t) =
      (depthBehind mark opening closing depth s).bind
        fun depth => depthBehind mark opening closing depth t := by
  induction s generalizing depth with
  | nil => rfl
  | cons c s ih =>
      rw [List.cons_append]
      cases depth with
      | zero =>
          simp only [depthBehind]
          split
          · exact ih 1
          · split
            · rfl
            · exact ih 0
      | succ depth =>
          simp only [depthBehind]
          split
          · exact ih (depth + 2)
          · split
            · exact ih depth
            · exact ih (depth + 1)

theorem depthBehind_succ {depth behind : Nat} {s : List Char}
    (found : depthBehind mark opening closing depth s = some behind) :
    depthBehind mark opening closing (depth + 1) s = some (behind + 1) := by
  induction s generalizing depth with
  | nil =>
      cases found
      rfl
  | cons c s ih =>
      cases depth with
      | zero =>
          simp only [depthBehind] at found ⊢
          split at found
          · next opens =>
            rw [if_pos opens]
            exact ih found
          · next opensNot =>
            rw [if_neg opensNot]
            split at found
            · contradiction
            · next plain =>
              rw [if_neg (fun closes => plain (.inl closes))]
              exact ih found
      | succ depth =>
          simp only [depthBehind] at found ⊢
          split at found
          · next opens =>
            rw [if_pos opens]
            exact ih found
          · next opensNot =>
            rw [if_neg opensNot]
            split at found
            · next closes =>
              rw [if_pos closes]
              exact ih found
            · next closesNot =>
              rw [if_neg closesNot]
              exact ih found

namespace Enclosed

theorem nil : Enclosed mark opening closing [] := rfl

theorem append {s t : List Char} (front : Enclosed mark opening closing s)
    (behind : Enclosed mark opening closing t) : Enclosed mark opening closing (s ++ t) := by
  rw [Enclosed, depthBehind_append, front]
  exact behind

theorem of_plain {s : List Char} (plain : ∀ c ∈ s, c ≠ opening ∧ c ≠ closing ∧ c ≠ mark) :
    Enclosed mark opening closing s := by
  induction s with
  | nil => exact nil
  | cons c s ih =>
      obtain ⟨⟨opensNot, closesNot, markNot⟩, others⟩ := List.forall_mem_cons.mp plain
      rw [Enclosed, depthBehind, if_neg opensNot]
      simp only [if_neg (not_or.mpr ⟨closesNot, markNot⟩)]
      exact ih others

theorem apart (left : Enclosed mark opening closing x) (right : Enclosed mark opening closing y)
    (opensNot : mark ≠ opening) : Apart mark x y := by
  -- Behind an enclosed text no bracket is open, so that the mark has no answer there.
  have stopped (rest : List Char) : depthBehind mark opening closing 0 (mark :: rest) = none := by
    rw [depthBehind, if_neg opensNot]
    exact if_pos (.inr rfl)
  have ends {s rest : List Char} (front : Enclosed mark opening closing s) :
      ¬Enclosed mark opening closing (s ++ mark :: rest) := by
    intro whole
    rw [Enclosed, depthBehind_append, front, Option.bind_some, stopped] at whole
    contradiction
  intro rest
  constructor
  · rintro rfl
    exact ends left right
  · rintro rfl
    exact ends right left

theorem depthBehind_intercalate {pieces : List (List Char)}
    (each : ∀ piece ∈ pieces, Enclosed mark opening closing piece) (opensNot : mark ≠ opening)
    (closesNot : mark ≠ closing) :
    depthBehind mark opening closing 1 (List.intercalate [mark] pieces) = some 1 := by
  induction pieces with
  | nil => rfl
  | cons piece pieces ih =>
      obtain ⟨first, others⟩ := List.forall_mem_cons.mp each
      have behind := depthBehind_succ first
      cases pieces with
      | nil => rw [List.intercalate_singleton, behind]
      | cons next pieces =>
          rw [List.intercalate_cons_cons, List.append_assoc, depthBehind_append, behind,
            Option.bind_some, List.singleton_append, depthBehind, if_neg opensNot]
          simp only [Nat.zero_add, if_neg closesNot]
          exact ih others

theorem bracketed {pieces : List (List Char)}
    (each : ∀ piece ∈ pieces, Enclosed mark opening closing piece) (opensNot : mark ≠ opening)
    (closesNot : mark ≠ closing) (differ : closing ≠ opening) :
    Enclosed mark opening closing (opening :: (List.intercalate [mark] pieces ++ [closing])) := by
  rw [Enclosed, depthBehind, if_pos rfl, depthBehind_append,
    depthBehind_intercalate each opensNot closesNot, Option.bind_some, depthBehind, if_neg differ]
  simp [depthBehind]

end Enclosed

end Rehearsal.Text
