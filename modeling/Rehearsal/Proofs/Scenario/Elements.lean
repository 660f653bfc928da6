import Rehearsal.Proofs.Json.Shape
import Rehearsal.Proofs.Scenario.Decimal
import Rehearsal.Proofs.Text.Separation
import Rehearsal.Scenario.Matching

namespace Rehearsal.Normal

/-! Arrays compared by their normal forms. The normal form of an array is one text, in which the
normal forms of the items are joined by commas, and nothing tells these commas from those of the
items. So arrays with different items may have the same normal form. Arrays with the same normal form
have the same items just when their items have the same numbers of commas, as they do when each text
in them has characters and keeps its commas between brackets, with each bracket closed. -/

theorem normalize_eq_iff {v w : Json} : normalize v = normalize w ↔ chars v = chars w :=
  String.ofList_inj

theorem charsAll_eq_intercalate (items : List Json) :
    charsAll items = List.intercalate [','] (items.map chars) := by
  induction items with
  | nil => rfl
  | cons item rest ih =>
      cases rest with
      | nil => rw [charsAll, List.map_singleton, List.intercalate_singleton]
      | cons next rest =>
          rw [List.map_cons, List.map_cons, List.intercalate_cons_cons, ← List.map_cons, ← ih,
            List.append_assoc]
          rfl

variable {xs ys : List Json}

theorem normalize_array_eq_iff :
    normalize (.array xs) = normalize (.array ys) ↔
      List.intercalate [','] (xs.map chars) = List.intercalate [','] (ys.map chars) := by
  rw [normalize_eq_iff, chars, chars, charsAll_eq_intercalate, charsAll_eq_intercalate,
    List.cons.injEq, List.append_left_inj]
  exact and_iff_right rfl

/-- The same length, and at each position the same normal form. -/
def Elementwise (xs ys : List Json) : Prop :=
  List.Forall₂ (fun x y => normalize x = normalize y) xs ys

theorem elementwise_iff : Elementwise xs ys ↔ xs.map chars = ys.map chars := by
  rw [← List.forall₂_eq_eq_eq, List.forall₂_map_left_iff, List.forall₂_map_right_iff]
  simp only [Elementwise, normalize_eq_iff]

theorem normalize_of_elementwise (each : Elementwise xs ys) :
    normalize (.array xs) = normalize (.array ys) := by
  rw [normalize_array_eq_iff, elementwise_iff.mp each]

/-- The number of commas in the normal form. -/
def commas (value : Json) : Nat :=
  (chars value).count ','

theorem elementwise_of_commas (same : normalize (.array xs) = normalize (.array ys))
    (sameCommas : xs.map commas = ys.map commas) : Elementwise xs ys := by
  have counts : List.Forall₂ (fun x y => x.count ',' = y.count ',') (xs.map chars)
      (ys.map chars) := by
    rw [List.forall₂_map_left_iff, List.forall₂_map_right_iff]
    rw [← List.forall₂_eq_eq_eq, List.forall₂_map_left_iff, List.forall₂_map_right_iff] at sameCommas
    exact sameCommas
  obtain ⟨lengths, apart⟩ := List.forall₂_iff_zip.mp counts
  rw [elementwise_iff]
  apply Text.eq_of_intercalate_eq _ _ (normalize_array_eq_iff.mp same)
  · exact fun pair member => Text.apart_of_count_eq (apart member)
  · rw [← List.length_eq_zero_iff, lengths, List.length_eq_zero_iff]

/-- Text with characters, in which brackets are closed and commas stand between brackets. -/
def TidyText (s : List Char) : Prop :=
  s ≠ [] ∧ Text.Enclosed ',' '[' ']' s

/-- The normal form of a value that is no array, boolean or integer is tidy. -/
def Tidy : Json → Prop
  | .string s => TidyText (ofText s.toList)
  | .number (.float x) => TidyText (chars (.number (.float x)))
  | .object fields => TidyText (chars (.object fields))
  | _ => True

theorem tidyText_integer (n : Int) : TidyText (Json.Number.integer n).text := by
  have plain {c : Char} (decimal : Text.isDecimal c = true) : c ≠ '[' ∧ c ≠ ']' ∧ c ≠ ',' := by
    refine ⟨?_, ?_, ?_⟩ <;> rintro rfl <;> contradiction
  rw [Json.Number.text]
  split
  · refine ⟨List.cons_ne_nil _ _, .of_plain ?_⟩
    intro c member
    rcases List.mem_cons.mp member with rfl | digit
    · decide
    · exact plain (Text.isDecimal_of_mem_decimal digit)
  · exact ⟨Text.decimal_ne_nil _, .of_plain fun c digit => plain (Text.isDecimal_of_mem_decimal digit)⟩

theorem tidyText_chars {value : Json} (tidy : value.Everywhere Tidy) : TidyText (chars value) := by
  induction value with
  | null => exact ⟨by decide, rfl⟩
  | bool b =>
      cases b with
      | false => exact ⟨by decide, rfl⟩
      | true => exact ⟨by decide, rfl⟩
  | number n =>
      cases n with
      | integer n =>
          rw [chars_integer]
          exact tidyText_integer n
      | float x => exact tidy
  | string s => exact tidy
  | array items ih =>
      obtain ⟨-, each⟩ := Json.everywhere_array.mp tidy
      rw [chars, charsAll_eq_intercalate]
      refine ⟨List.cons_ne_nil _ _, Text.Enclosed.bracketed ?_ (by decide) (by decide) (by decide)⟩
      intro piece member
      obtain ⟨item, inItems, rfl⟩ := List.mem_map.mp member
      exact (ih item inItems (each item inItems)).2
  | object fields => exact tidy.1

theorem elementwise_of_tidy (tidy : (Json.array xs).Everywhere Tidy)
    (otherTidy : (Json.array ys).Everywhere Tidy)
    (same : normalize (.array xs) = normalize (.array ys)) : Elementwise xs ys := by
  have pieces {items : List Json} (tidy : (Json.array items).Everywhere Tidy) :
      ∀ piece ∈ items.map chars, TidyText piece := by
    intro piece member
    obtain ⟨item, inItems, rfl⟩ := List.mem_map.mp member
    exact tidyText_chars ((Json.everywhere_array.mp tidy).2 item inItems)
  have joined := normalize_array_eq_iff.mp same
  rw [elementwise_iff]
  apply Text.eq_of_intercalate_eq _ _ joined
  · rintro ⟨x, y⟩ member
    obtain ⟨left, right⟩ := List.of_mem_zip member
    exact (pieces tidy x left).2.apart (pieces otherTidy y right).2 (by decide)
  · exact Text.eq_nil_iff_of_intercalate_eq (fun x member => (pieces tidy x member).1)
      (fun y member => (pieces otherTidy y member).1) joined

/-- Two arrays have the same items, in their normal forms, just when the arrays have the same normal
form and their items have the same numbers of commas. When the texts in both are tidy, the normal form
of the arrays decides alone, and so does the expectation of a returned value. -/
theorem elementwise_iff_same_form (xs ys : List Json) :
    (Elementwise xs ys ↔
      normalize (.array xs) = normalize (.array ys) ∧ xs.map commas = ys.map commas) ∧
    ((Json.array xs).Everywhere Tidy → (Json.array ys).Everywhere Tidy →
      (normalize (.array xs) = normalize (.array ys) ↔ Elementwise xs ys) ∧
      ∀ (expectation : Expectation) (outcome : Outcome),
        expectation.returnValue = some (.array ys) → outcome.returnValue = some (.array xs) →
        (Matching.returnValue expectation outcome = [] ↔ Elementwise xs ys)) := by
  refine ⟨⟨?_, ?_⟩, ?_⟩
  · intro each
    refine ⟨normalize_of_elementwise each, ?_⟩
    have counts := congrArg (List.map (List.count ',')) (elementwise_iff.mp each)
    rwa [List.map_map, List.map_map] at counts
  · rintro ⟨same, sameCommas⟩
    exact elementwise_of_commas same sameCommas
  · intro tidy otherTidy
    have decides : normalize (.array xs) = normalize (.array ys) ↔ Elementwise xs ys :=
      ⟨elementwise_of_tidy tidy otherTidy, normalize_of_elementwise⟩
    refine ⟨decides, ?_⟩
    intro expectation outcome expected got
    rw [Matching.returnValue, expected, got, ← decides]
    simp

def spelledOut : List Json :=
  [.string " 007", .array [.string "TRUE", .string "f[x,y]"]]

def spelledShort : List Json :=
  [.number (.integer 7), .array [.bool true, .string "f[x,y] "]]

theorem elementwise_of_spellings :
    normalize (.array spelledOut) = normalize (.array spelledShort) ∧
      Elementwise spelledOut spelledShort := by
  have tidy : (Json.array spelledOut).Everywhere Tidy :=
    ⟨trivial, ⟨by decide, rfl⟩, ⟨trivial, ⟨by decide, rfl⟩, ⟨by decide, rfl⟩, trivial⟩, trivial⟩
  have otherTidy : (Json.array spelledShort).Everywhere Tidy :=
    ⟨trivial, trivial, ⟨trivial, trivial, ⟨by decide, rfl⟩, trivial⟩, trivial⟩
  have same : normalize (.array spelledOut) = normalize (.array spelledShort) := rfl
  exact ⟨same, ((elementwise_iff_same_form _ _).2 tidy otherTidy).1.mp same⟩

def joinedItem : List Json := [.string "a,b"]

def twoItems : List Json := [.string "a", .string "b"]

theorem not_elementwise_of_comma :
    normalize (.array joinedItem) = normalize (.array twoItems) ∧
      ¬Elementwise joinedItem twoItems ∧
      Matching.returnValue (.returning (.array twoItems))
        { Outcome.success with returnValue := some (.array joinedItem) } = [] ∧
      normalize (.array []) = normalize (.array [.string ""]) ∧ ¬Elementwise [] [.string ""] := by
  have lengths : joinedItem.length ≠ twoItems.length := by decide
  have same : normalize (.array joinedItem) = normalize (.array twoItems) := rfl
  refine ⟨same, fun each => lengths each.length_eq, ?_, rfl, nofun⟩
  simp [Matching.returnValue, Expectation.returning, same]

end Rehearsal.Normal
