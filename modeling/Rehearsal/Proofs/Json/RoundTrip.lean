import Rehearsal.Proofs.Json.Scalar
import Rehearsal.Proofs.Json.Shape

namespace Rehearsal.Json

/-! Text that is laid out by lines is read back as the value it was written of, and refused when
the value nests deeper than the reader goes. The reader's fuel covers the length of the text: each
step spends one unit and leaves at least one character behind. -/

/-- Every number inside a value can be read back. -/
def Legible (value : Json) : Prop :=
  value.Everywhere fun
    | .number n => n.Legible
    | _ => True

@[simp] theorem legible_bool (b : Bool) : (Json.bool b).Legible := trivial

@[simp] theorem legible_string (s : String) : (Json.string s).Legible := trivial

@[simp] theorem legible_array {items : List Json} :
    (Json.array items).Legible ↔ ∀ item ∈ items, item.Legible := by
  rw [Legible, everywhere_array, true_and]
  rfl

@[simp] theorem legible_object {fields : List (String × Json)} :
    (Json.object fields).Legible ↔ ∀ entry ∈ fields, entry.2.Legible := by
  rw [Legible, everywhere_object, true_and]
  rfl

theorem legible_ofNat {n : Nat} : (ofNat n).Legible ↔ n < 2 ^ 64 := by
  have least : leastInteger = -(2 ^ 63) := rfl
  have limit : integerLimit = 2 ^ 64 := rfl
  have whole : (ofNat n).Legible ↔ leastInteger ≤ n ∧ (n : Int) < integerLimit := Iff.rfl
  rw [whole, least, limit]
  omega

namespace Parser

/-! Blanks. -/

theorem skip_skip (s : List Char) : skip (skip s) = skip s :=
  List.dropWhile_idempotent _ _

theorem skip_lineBreak (count : Nat) (s : List Char) : skip (lineBreak count ++ s) = skip s := by
  have blank : ∀ c ∈ lineBreak count, isSpace c = true := by
    intro c member
    rcases List.mem_cons.mp member with rfl | member
    · rfl
    · rw [List.eq_of_mem_replicate member]
      rfl
  exact List.dropWhile_append_of_pos blank

theorem value_eq_of_skip {s t : List Char} (same : skip s = skip t) (fuel depth : Nat) :
    value fuel depth s = value fuel depth t := by
  cases fuel with
  | zero => rfl
  | succ fuel => rw [value, value, same]

theorem items_eq_of_skip {s t : List Char} (same : skip s = skip t) (fuel depth : Nat) :
    items fuel depth s = items fuel depth t := by
  cases fuel with
  | zero => rfl
  | succ fuel => rw [items, items, value_eq_of_skip same]

theorem fields_eq_of_skip {s t : List Char} (same : skip s = skip t) (fuel depth : Nat) :
    fields fuel depth s = fields fuel depth t := by
  cases fuel with
  | zero => rfl
  | succ fuel => rw [fields, fields, same]

theorem items_of_bracket {s rest : List Char} (bracket : skip s = ']' :: rest) (fuel depth : Nat) :
    items fuel depth s = none := by
  cases fuel with
  | zero => rfl
  | succ fuel =>
      have refused : value fuel depth s = none := by
        cases fuel with
        | zero => rfl
        | succ fuel =>
            rw [value, bracket]
            rfl
      rw [items, refused]
      rfl

theorem fields_of_brace {s rest : List Char} (brace : skip s = '\x7d' :: rest) (fuel depth : Nat) :
    fields fuel depth s = none := by
  cases fuel with
  | zero => rfl
  | succ fuel =>
      rw [fields, brace]
      rfl

end Parser

def ReadsBack (v : Json) : Prop :=
  ∀ (indent fuel depth : Nat) (rest : List Char), Closes rest →
    (v.prettyChars indent).length ≤ fuel →
    Parser.value fuel depth (v.prettyChars indent ++ rest) =
      if v.depth ≤ depth then some (v, rest) else none

theorem readsBack_of_value_succ {v : Json} (flat : v.depth = 0)
    (written : ∀ indent, v.prettyChars indent ≠ [])
    (reads : ∀ (indent fuel depth : Nat) (rest : List Char), Closes rest →
      Parser.value (fuel + 1) depth (v.prettyChars indent ++ rest) = some (v, rest)) :
    v.ReadsBack := by
  intro indent fuel depth rest closes enough
  have positive : 0 < (v.prettyChars indent).length := List.length_pos_iff.mpr (written indent)
  obtain ⟨fuel, rfl⟩ : ∃ less, fuel = less + 1 := ⟨fuel - 1, by omega⟩
  rw [flat, if_pos (Nat.zero_le depth)]
  exact reads indent fuel depth rest closes

theorem closes_lineBreak (count : Nat) (rest : List Char) : Closes (lineBreak count ++ rest) :=
  .line _

theorem length_lineBreak (count : Nat) : (lineBreak count).length = 2 * count + 1 := by
  simp [lineBreak]

theorem succ_of_pos {fuel length : Nat} (positive : 0 < length) (enough : length ≤ fuel) :
    ∃ less, fuel = less + 1 :=
  Nat.exists_eq_succ_of_ne_zero (Nat.ne_of_gt (Nat.lt_of_lt_of_le positive enough))

/-! Arrays. -/

theorem items_prettyItems (indent outer depth : Nat) (rest : List Char) (item : Json)
    (others : List Json) (each : ∀ v ∈ item :: others, v.ReadsBack) (fuel : Nat)
    (enough : (prettyItems indent (item :: others)).length ≤ fuel) :
    Parser.items fuel depth
        (prettyItems indent (item :: others) ++ (lineBreak outer ++ ']' :: rest)) =
      if depthItems (item :: others) ≤ depth then some (item :: others, rest) else none := by
  induction others generalizing item fuel with
  | nil =>
      rw [prettyItems, List.length_append, length_lineBreak] at enough
      obtain ⟨fuel, rfl⟩ := succ_of_pos (by omega) enough
      have first := each item List.mem_cons_self indent fuel depth (lineBreak outer ++ ']' :: rest)
        (closes_lineBreak _ _) (by omega)
      rw [prettyItems, List.append_assoc, Parser.items,
        Parser.value_eq_of_skip (Parser.skip_lineBreak indent _), first, depthItems, depthItems,
        Nat.max_zero]
      split
      · simp only [Option.bind_eq_bind, Option.bind_some, Parser.skip_lineBreak]
        rfl
      · rfl
  | cons next others ih =>
      rw [prettyItems, List.length_append, List.length_append, length_lineBreak,
        List.length_cons] at enough
      · obtain ⟨fuel, rfl⟩ := succ_of_pos (by omega) enough
        have first := each item List.mem_cons_self indent fuel depth
          (',' :: (prettyItems indent (next :: others) ++ (lineBreak outer ++ ']' :: rest)))
          (.comma _) (by omega)
        have behind := ih next (fun v member => each v (List.mem_cons_of_mem _ member)) fuel (by omega)
        rw [prettyItems, List.append_assoc, List.append_assoc, List.cons_append, Parser.items,
          Parser.value_eq_of_skip (Parser.skip_lineBreak indent _), first, depthItems]
        · by_cases fits : item.depth ≤ depth
          · rw [if_pos fits]
            simp only [Option.bind_eq_bind, Option.bind_some, Parser.skip_cons (c := ',') rfl, behind,
              Nat.max_le, fits, true_and]
            split
            · rfl
            · rfl
          · rw [if_neg fits, if_neg (by omega)]
            rfl
        · simp
      · simp

theorem readsBack_array {items : List Json} (each : ∀ item ∈ items, item.ReadsBack) :
    (Json.array items).ReadsBack := by
  intro indent fuel depth rest closes enough
  cases items with
  | nil =>
      obtain ⟨fuel, rfl⟩ := succ_of_pos (Nat.succ_pos _) enough
      cases depth with
      | zero => rfl
      | succ depth => rfl
  | cons item others =>
      rw [prettyChars, List.length_cons, List.length_append, List.length_append,
        length_lineBreak] at enough
      obtain ⟨fuel, rfl⟩ := succ_of_pos (by omega) enough
      have inside := fun depth => items_prettyItems (indent + 1) indent depth rest item others each
        fuel (by omega)
      rw [prettyChars, List.cons_append, List.append_assoc, List.append_assoc, List.singleton_append,
        Parser.value, Parser.skip_cons rfl, Json.depth]
      cases depth with
      | zero => rfl
      | succ depth =>
          simp only [Nat.succ_le_succ_iff]
          split
          · next bracket =>
            -- At a depth that suffices the items would be read, but none begins with a bracket.
            have read := inside (depthItems (item :: others))
            rw [Parser.items_of_bracket bracket, if_pos (Nat.le_refl _)] at read
            cases read
          · rw [Parser.items_eq_of_skip (Parser.skip_skip _), inside]
            split
            · rfl
            · rfl

/-! Objects. -/

theorem fields_named (fuel depth count : Nat) (name : String) (s : List Char) :
    Parser.fields (fuel + 1) depth (lineBreak count ++ (quote name ++ ':' :: ' ' :: s)) =
      (Parser.value fuel depth s).bind fun read =>
        match Parser.skip read.2 with
        | ',' :: rest =>
            (Parser.fields fuel depth rest).bind fun more => some ((name, read.1) :: more.1, more.2)
        | '\x7d' :: rest => some ([(name, read.1)], rest)
        | _ => none := by
  have named := Parser.stringBody_escaped name.toList (':' :: ' ' :: s)
  have blank : Parser.skip (' ' :: s) = Parser.skip s := rfl
  rw [Parser.fields, Parser.skip_lineBreak, quote, List.cons_append, List.append_assoc,
    List.singleton_append, Parser.skip_cons rfl]
  simp only [named, Option.bind_eq_bind, Option.bind_some, Parser.skip_cons (c := ':') rfl,
    Parser.value_eq_of_skip blank, String.ofList_toList]
  rfl

theorem fields_prettyFields (indent outer depth : Nat) (rest : List Char) (entry : String × Json)
    (others : List (String × Json)) (each : ∀ v ∈ entry :: others, v.2.ReadsBack) (fuel : Nat)
    (enough : (prettyFields indent (entry :: others)).length ≤ fuel) :
    Parser.fields fuel depth
        (prettyFields indent (entry :: others) ++ (lineBreak outer ++ '\x7d' :: rest)) =
      if depthFields (entry :: others) ≤ depth then some (entry :: others, rest) else none := by
  induction others generalizing entry fuel with
  | nil =>
      obtain ⟨name, v⟩ := entry
      simp only [prettyFields, List.length_append, length_lineBreak, List.length_cons] at enough
      obtain ⟨fuel, rfl⟩ := succ_of_pos (by omega) enough
      have reads : v.ReadsBack := each (name, v) List.mem_cons_self
      have first := reads indent fuel depth
        (lineBreak outer ++ '\x7d' :: rest) (closes_lineBreak _ _) (by omega)
      simp only [prettyFields, List.append_assoc, List.cons_append]
      rw [fields_named, first, depthFields, depthFields, Nat.max_zero]
      split
      · simp only [Option.bind_some, Parser.skip_lineBreak]
        rfl
      · rfl
  | cons next others ih =>
      obtain ⟨name, v⟩ := entry
      rw [prettyFields] at enough ⊢
      · simp only [List.length_append, length_lineBreak, List.length_cons] at enough
        obtain ⟨fuel, rfl⟩ := succ_of_pos (by omega) enough
        have reads : v.ReadsBack := each (name, v) List.mem_cons_self
        have first := reads indent fuel depth
          (',' :: (prettyFields indent (next :: others) ++ (lineBreak outer ++ '\x7d' :: rest)))
          (.comma _) (by omega)
        have behind := ih next (fun v member => each v (List.mem_cons_of_mem _ member)) fuel (by omega)
        simp only [List.append_assoc, List.cons_append]
        rw [fields_named, first, depthFields]
        by_cases fits : v.depth ≤ depth
        · rw [if_pos fits]
          simp only [Option.bind_some, Parser.skip_cons (c := ',') rfl, behind, Nat.max_le, fits,
            true_and]
          split
          · rfl
          · rfl
        · rw [if_neg fits, if_neg (by omega)]
          rfl
      all_goals simp

theorem readsBack_object {fields : List (String × Json)} (each : ∀ v ∈ fields, v.2.ReadsBack) :
    (Json.object fields).ReadsBack := by
  intro indent fuel depth rest closes enough
  cases fields with
  | nil =>
      obtain ⟨fuel, rfl⟩ := succ_of_pos (Nat.succ_pos _) enough
      cases depth with
      | zero => rfl
      | succ depth => rfl
  | cons entry others =>
      rw [prettyChars, List.length_cons, List.length_append, List.length_append,
        length_lineBreak] at enough
      obtain ⟨fuel, rfl⟩ := succ_of_pos (by omega) enough
      have inside := fun depth => fields_prettyFields (indent + 1) indent depth rest entry others each
        fuel (by omega)
      rw [prettyChars, List.cons_append, List.append_assoc, List.append_assoc, List.singleton_append,
        Parser.value, Parser.skip_cons rfl, Json.depth]
      cases depth with
      | zero => rfl
      | succ depth =>
          simp only [Nat.succ_le_succ_iff]
          split
          · next brace =>
            -- At a depth that suffices the fields would be read, but none begins with a brace.
            have read := inside (depthFields (entry :: others))
            rw [Parser.fields_of_brace brace, if_pos (Nat.le_refl _)] at read
            cases read
          · rw [Parser.fields_eq_of_skip (Parser.skip_skip _), inside]
            split
            · rfl
            · rfl

theorem readsBack (v : Json) (legible : v.Legible) : v.ReadsBack := by
  induction v with
  | null =>
      refine readsBack_of_value_succ rfl (fun _ => List.cons_ne_nil _ _) ?_
      intro indent fuel depth rest closes
      rfl
  | bool b =>
      cases b with
      | true =>
          refine readsBack_of_value_succ rfl (fun _ => List.cons_ne_nil _ _) ?_
          intro indent fuel depth rest closes
          rfl
      | false =>
          refine readsBack_of_value_succ rfl (fun _ => List.cons_ne_nil _ _) ?_
          intro indent fuel depth rest closes
          rfl
  | number n =>
      have holds : n.Legible := legible.self
      exact readsBack_of_value_succ rfl (fun _ => n.text_ne_nil)
        fun indent fuel depth rest closes => value_text holds fuel depth closes
  | string s =>
      exact readsBack_of_value_succ rfl (fun _ => List.cons_ne_nil _ _)
        fun indent fuel depth rest _ => value_quote s fuel depth rest
  | array items each =>
      have inside := legible_array.mp legible
      exact readsBack_array fun item member => each item member (inside item member)
  | object fields each =>
      have inside := legible_object.mp legible
      exact readsBack_object fun entry member => each entry member (inside entry member)

/-- A value is read back from the text that it is laid out in, unless it nests too deep: then the
text is refused. -/
theorem parse_pretty {v : Json} (legible : v.Legible) :
    parse v.pretty = if v.depth ≤ depthLimit then some v else none := by
  have read := readsBack v legible 0 (2 * (v.prettyChars 0).length + 2) depthLimit [] .nothing
    (by omega)
  rw [List.append_nil] at read
  rw [parse, pretty, String.toList_ofList, parseChars, read]
  split
  · rfl
  · rfl

end Rehearsal.Json
