import Mathlib.Data.List.Infix
import Rehearsal.Text.Blank
import Rehearsal.Text.Search

namespace Rehearsal.Text

/-! Fixed pieces of a text: where a piece is found first, and what is left without it. -/

variable {piece body front back rest text : List Char} {c mark : Char}

theorem dropPrefix?_append (piece rest : List Char) :
    dropPrefix? piece (piece ++ rest) = some rest :=
  dropPrefix?_eq_some_iff.mpr rfl

theorem after?_of_prefix (full : piece ≠ []) (whole : text = piece ++ rest) :
    after? piece text = some rest := by
  subst whole
  cases piece with
  | nil => contradiction
  | cons p piece => rw [List.cons_append, after?, ← List.cons_append, dropPrefix?_append]

theorem after?_eq_none_iff : after? piece text = none ↔ ¬piece <:+: text := by
  rw [← contains_eq_true_iff, contains, Bool.not_eq_true, Option.isSome_eq_false_iff,
    Option.isNone_iff_eq_none]

theorem dropPrefix?_eq_none_iff : dropPrefix? piece text = none ↔ ¬piece <+: text := by
  rw [← isSome_dropPrefix?_iff, Bool.not_eq_true, Option.isSome_eq_false_iff,
    Option.isNone_iff_eq_none]

/-- A piece that ends in a character it has nowhere else does not begin within a text in front of
it: it would end within itself. -/
theorem not_prefix_of_overlap (once : c ∉ body) (full : front ≠ [])
    (absent : ¬body ++ [c] <:+: front) (rest : List Char) :
    ¬body ++ [c] <+: front ++ (body ++ [c]) ++ rest := by
  intro here
  by_cases within : (body ++ [c]).length ≤ front.length
  · have before : front <+: front ++ (body ++ [c]) ++ rest := ⟨_, (List.append_assoc ..).symm⟩
    exact absent (List.prefix_of_prefix_length_le here before within).isInfix
  · have some : 0 < front.length := List.length_pos_iff.mpr full
    simp only [List.length_append, List.length_singleton, Nat.not_le] at within
    have last : (front ++ (body ++ [c]) ++ rest)[body.length]? = .some c := by
      obtain ⟨behind, whole⟩ := here
      rw [← whole, List.append_assoc, List.getElem?_append_right (Nat.le_refl _), Nat.sub_self]
      rfl
    rw [List.append_assoc, List.getElem?_append_right (by omega), List.append_assoc,
      List.getElem?_append_left (by omega)] at last
    exact once (List.mem_of_getElem? last)

theorem after?_append (once : c ∉ body) (absent : ¬body ++ [c] <:+: front) :
    after? (body ++ [c]) (front ++ (body ++ [c]) ++ rest) = some rest := by
  induction front with
  | nil => exact after?_of_prefix (by simp) rfl
  | cons d front ih =>
      have next : ¬body ++ [c] <:+: front := fun found => absent (List.infix_cons found)
      have notHere := dropPrefix?_eq_none_iff.mpr
        (not_prefix_of_overlap once (List.cons_ne_nil d front) absent rest)
      rw [List.cons_append, List.cons_append] at notHere ⊢
      rw [after?, notHere]
      exact ih next

theorem dropSuffix?_append (text suffix : List Char) :
    dropSuffix? suffix (text ++ suffix) = some text := by
  rw [dropSuffix?, List.reverse_append, dropPrefix?_append, Option.map_some, List.reverse_reverse]

theorem dropSuffix?_eq_none_iff {suffix : List Char} :
    dropSuffix? suffix text = none ↔ ¬suffix <:+ text := by
  rw [dropSuffix?, Option.map_eq_none_iff, dropPrefix?_eq_none_iff, List.reverse_prefix]

theorem dropSuffix?_eq_some_iff {suffix : List Char} :
    dropSuffix? suffix text = some rest ↔ text = rest ++ suffix := by
  rw [dropSuffix?, Option.map_eq_some_iff]
  constructor
  · rintro ⟨backwards, found, rfl⟩
    apply List.reverse_injective
    rw [dropPrefix?_eq_some_iff.mp found, List.reverse_append, List.reverse_reverse]
  · rintro rfl
    refine ⟨rest.reverse, ?_, List.reverse_reverse rest⟩
    rw [List.reverse_append, dropPrefix?_append]

/-! A text around its first mark, and around its last one. -/

theorem splitAt?_of_notMem (absent : mark ∉ text) : splitAt? mark text = none := by
  induction text with
  | nil => rfl
  | cons c rest ih =>
      rw [List.mem_cons, not_or] at absent
      rw [splitAt?, if_neg (Ne.symm absent.1), ih absent.2]
      rfl

theorem splitAt?_append (absent : mark ∉ front) :
    splitAt? mark (front ++ mark :: back) = some (front, back) := by
  induction front with
  | nil => exact if_pos rfl
  | cons c rest ih =>
      rw [List.mem_cons, not_or] at absent
      rw [List.cons_append, splitAt?, if_neg (Ne.symm absent.1), ih absent.2]
      rfl

theorem append_of_splitAt? (split : splitAt? mark text = some (front, back)) :
    text = front ++ mark :: back := by
  induction text generalizing front with
  | nil => contradiction
  | cons c rest ih =>
      rw [splitAt?] at split
      split at split
      · next same =>
        cases split
        rw [same]
        rfl
      · obtain ⟨⟨before, behind⟩, found, same⟩ := Option.map_eq_some_iff.mp split
        cases same
        rw [ih found]
        rfl

theorem notMem_of_splitAt? (split : splitAt? mark text = some (front, back)) : mark ∉ front := by
  induction text generalizing front with
  | nil => contradiction
  | cons c rest ih =>
      rw [splitAt?] at split
      split at split
      · cases split
        exact List.not_mem_nil
      · next other =>
        obtain ⟨⟨before, behind⟩, found, same⟩ := Option.map_eq_some_iff.mp split
        cases same
        rw [List.mem_cons, not_or]
        exact ⟨Ne.symm other, ih found⟩

theorem splitAtLast?_eq_some_iff :
    splitAtLast? mark text = some (front, back) ↔ text = front ++ mark :: back ∧ mark ∉ back := by
  rw [splitAtLast?, Option.map_eq_some_iff]
  constructor
  · rintro ⟨⟨behind, before⟩, split, same⟩
    cases same
    have whole := congrArg List.reverse (append_of_splitAt? split)
    rw [List.reverse_reverse, List.reverse_append, List.reverse_cons, List.append_assoc] at whole
    refine ⟨whole, ?_⟩
    rw [List.mem_reverse]
    exact notMem_of_splitAt? split
  · rintro ⟨rfl, absent⟩
    refine ⟨(back.reverse, front.reverse), ?_, by simp⟩
    rw [List.reverse_append, List.reverse_cons, List.append_assoc]
    exact splitAt?_append (by rwa [List.mem_reverse])

/-! Marks of hexadecimal digits. -/

def hexMarks (count : Nat) : List Char :=
  (List.replicate count ['0', 'x']).flatten

theorem hexMarks_succ (count : Nat) : hexMarks (count + 1) = '0' :: 'x' :: hexMarks count := by
  rw [hexMarks, List.replicate_succ, List.flatten_cons]
  rfl

theorem ink_hexMarks (count : Nat) : ∀ c ∈ hexMarks count, isBlank c = false := by
  intro c member
  obtain ⟨mark, repeated, member⟩ := List.mem_flatten.mp member
  rw [List.eq_of_mem_replicate repeated] at member
  simp only [List.mem_cons, List.not_mem_nil, or_false] at member
  rcases member with rfl | rfl
  · rfl
  · rfl

theorem dropHexMarks_hexMarks (count : Nat) : dropHexMarks (hexMarks count) = [] := by
  induction count with
  | zero => rfl
  | succ count ih => rwa [hexMarks_succ, dropHexMarks, dropPairs, if_pos ⟨rfl, rfl⟩]

theorem dropHexMarks_eq_nil_iff {text : List Char} :
    dropHexMarks text = [] ↔ ∃ count, text = hexMarks count := by
  constructor
  · intro nothing
    rw [dropHexMarks] at nothing
    match text, nothing with
    | [], _ => exact ⟨0, rfl⟩
    | x :: y :: rest, nothing =>
        rw [dropPairs] at nothing
        split at nothing
        · next mark =>
          obtain ⟨rfl, rfl⟩ := mark
          obtain ⟨count, rfl⟩ := dropHexMarks_eq_nil_iff.mp nothing
          exact ⟨count + 1, (hexMarks_succ count).symm⟩
        · contradiction
  · rintro ⟨count, rfl⟩
    exact dropHexMarks_hexMarks count
termination_by text.length

end Rehearsal.Text
