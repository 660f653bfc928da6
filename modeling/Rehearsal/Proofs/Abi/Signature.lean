import Rehearsal.Proofs.Abi.Shape
import Rehearsal.Proofs.Json.Scalar
import Rehearsal.Proofs.Text.Separation
import Rehearsal.Proofs.Text.Utf8

namespace Rehearsal

/-! Types and declarations told from their texts. An array is known by the bracket at the end of its
text and what stands in front of it. A tuple is known by the parenthesis at the end; between its
parentheses each component is enclosed, so that the commas of nested tuples are no commas of its
own. Any other type is letters, and digits if it has a width. -/

namespace AbiType

def chars (type : AbiType) : List Char :=
  type.canonical.toList

theorem toList_natText (n : Nat) : (natText n).toList = Text.decimal n := by
  rw [natText, String.toList_ofList]

theorem canonicals_eq_map (items : List AbiType) : canonicals items = items.map canonical := by
  induction items with
  | nil => rfl
  | cons item rest ih => rw [canonicals, ih, List.map_cons]

theorem chars_array (item : AbiType) : (array item).chars = item.chars ++ '[' :: [] ++ [']'] := by
  simp [chars, canonical]

theorem chars_fixedArray (item : AbiType) (count : Nat) :
    (fixedArray item count).chars = item.chars ++ '[' :: Text.decimal count ++ [']'] := by
  simp [chars, canonical, toList_natText]

theorem chars_tuple (items : List AbiType) :
    (tuple items).chars = '(' :: (List.intercalate [','] (items.map chars) ++ [')']) := by
  simp only [chars, canonical, Text.join, canonicals_eq_map, String.toList_append,
    String.toList_intercalate, List.map_map]
  rfl

/-! Types without components: letters, and the digits of a width. -/

def stem : AbiType → String
  | .address => "address"
  | .uint _ => "uint"
  | .int _ => "int"
  | .bool => "bool"
  | .string => "string"
  | .bytes => "bytes"
  | .fixedBytes _ => "bytes"
  | _ => ""

def letters (type : AbiType) : List Char :=
  type.stem.toList

def digits : AbiType → List Char
  | .uint bits => Text.decimal bits
  | .int bits => Text.decimal bits
  | .fixedBytes size => Text.decimal size
  | _ => []

def stems : List String :=
  ["address", "uint", "int", "bool", "string", "bytes", ""]

def punctuation : List Char :=
  ['(', ')', '[', ']', ',']

variable {type other : AbiType}

theorem chars_of_isElementary (elementary : type.IsElementary) :
    type.chars = type.letters ++ type.digits := by
  cases type with
  | uint _ | int _ | fixedBytes _ =>
      simp [chars, canonical, letters, stem, digits, toList_natText]
  | address | bool | string | bytes => rfl
  | array _ | fixedArray _ _ | tuple _ => contradiction

theorem stem_mem (type : AbiType) : type.stem ∈ stems := by
  cases type <;> simp [stem, stems]

theorem letters_ne_nil (elementary : type.IsElementary) : type.letters ≠ [] := by
  rw [letters, ne_eq, String.toList_eq_nil_iff]
  cases type with
  | array _ | fixedArray _ _ | tuple _ => contradiction
  | _ => simp [stem]

theorem notMem_of_mem_letters {c : Char} (member : c ∈ type.letters) :
    Text.isDecimal c = false ∧ c ∉ punctuation := by
  have each : (stems.all fun stem =>
      stem.toList.all fun c => !Text.isDecimal c && decide (c ∉ punctuation)) = true := by decide
  have plain := List.all_eq_true.mp (List.all_eq_true.mp each type.stem (stem_mem type)) c member
  simpa using plain

theorem isDecimal_of_mem_digits {c : Char} (member : c ∈ type.digits) :
    Text.isDecimal c = true := by
  cases type with
  | uint _ | int _ | fixedBytes _ => exact Text.isDecimal_of_mem_decimal member
  | _ => contradiction

theorem notMem_punctuation_of_isDecimal {c : Char} (decimal : Text.isDecimal c = true) :
    c ∉ punctuation := by
  intro member
  have none : punctuation.all (fun c => !Text.isDecimal c) = true := by decide
  have plain := List.all_eq_true.mp none c member
  rw [decimal] at plain
  contradiction

theorem notMem_punctuation (elementary : type.IsElementary) {c : Char} (member : c ∈ type.chars) :
    c ∉ punctuation := by
  rw [chars_of_isElementary elementary] at member
  rcases List.mem_append.mp member with letter | digit
  · exact (notMem_of_mem_letters letter).2
  · exact notMem_punctuation_of_isDecimal (isDecimal_of_mem_digits digit)

theorem eq_of_letters_eq (elementary : type.IsElementary) (otherElementary : other.IsElementary)
    (sameLetters : type.letters = other.letters) (sameDigits : type.digits = other.digits) :
    type = other := by
  have sameStem : type.stem = other.stem := String.toList_inj.mp sameLetters
  cases type <;> cases other <;>
    simp_all [IsElementary, stem, digits, Text.decimal_injective.eq_iff, Text.decimal_ne_nil]

theorem eq_of_chars_eq_of_isElementary (elementary : type.IsElementary)
    (otherElementary : other.IsElementary) (same : type.chars = other.chars) : type = other := by
  have front (kind : AbiType) (plain : kind.IsElementary) :
      kind.chars.takeWhile (fun c => !Text.isDecimal c) = kind.letters := by
    have stop : kind.digits.takeWhile (fun c => !Text.isDecimal c) = [] := by
      rw [List.takeWhile_eq_nil_iff]
      intro some
      simp [isDecimal_of_mem_digits (List.getElem_mem some)]
    rw [chars_of_isElementary plain, List.takeWhile_append_of_pos, stop, List.append_nil]
    intro c member
    rw [(notMem_of_mem_letters member).1]
    rfl
  have sameLetters : type.letters = other.letters := by
    rw [← front type elementary, same, front other otherElementary]
  apply eq_of_letters_eq elementary otherElementary sameLetters
  rw [chars_of_isElementary elementary, chars_of_isElementary otherElementary, sameLetters] at same
  exact List.append_cancel_left same

/-! Arrays and tuples. -/

def ending : AbiType → Option Char
  | .array _ => some ']'
  | .fixedArray _ _ => some ']'
  | .tuple _ => some ')'
  | _ => none

theorem ending_of_isElementary (elementary : type.IsElementary) : type.ending = none := by
  cases type with
  | array _ | fixedArray _ _ | tuple _ => contradiction
  | _ => rfl

theorem ending_eq (type : AbiType) :
    type.ending = type.chars.getLast?.filter fun c => c ∈ [']', ')'] := by
  have plain {kind : AbiType} (elementary : kind.IsElementary) :
      kind.ending = kind.chars.getLast?.filter fun c => c ∈ [']', ')'] := by
    rw [ending_of_isElementary elementary, eq_comm, Option.filter_eq_none_iff]
    intro c last closing
    have none := notMem_punctuation elementary (List.mem_of_getLast? last)
    have some : ∀ c ∈ [']', ')'], c ∈ punctuation := by simp [punctuation]
    exact none (some c (of_decide_eq_true closing))
  cases type with
  | array item =>
      rw [chars_array, List.getLast?_append]
      rfl
  | fixedArray item count =>
      rw [chars_fixedArray, List.getLast?_append]
      rfl
  | tuple items =>
      rw [chars_tuple, ← List.cons_append, List.getLast?_append]
      rfl
  | _ => exact plain trivial

theorem ending_eq_of_chars_eq (same : type.chars = other.chars) : other.ending = type.ending := by
  rw [ending_eq, ← same, ← ending_eq]

theorem chars_ne_nil_of_isElementary (elementary : type.IsElementary) : type.chars ≠ [] := by
  rw [chars_of_isElementary elementary]
  exact List.append_ne_nil_of_left_ne_nil (letters_ne_nil elementary) type.digits

theorem chars_ne_nil (type : AbiType) : type.chars ≠ [] := by
  cases type with
  | array item => simp [chars_array]
  | fixedArray item count => simp [chars_fixedArray]
  | tuple items => simp [chars_tuple]
  | _ => exact chars_ne_nil_of_isElementary trivial

theorem enclosed_of_notMem {s : List Char} (plain : ∀ c ∈ s, c ∉ punctuation) :
    Text.Enclosed ',' '(' ')' s := by
  apply Text.Enclosed.of_plain
  intro c member
  have none := plain c member
  simp only [punctuation, List.mem_cons, not_or] at none
  exact ⟨none.1, none.2.1, none.2.2.2.2.1⟩

theorem enclosed_of_isElementary (elementary : type.IsElementary) :
    Text.Enclosed ',' '(' ')' type.chars :=
  enclosed_of_notMem fun _ => notMem_punctuation elementary

theorem notMem_punctuation_of_mem_decimal {n : Nat} {c : Char} (digit : c ∈ Text.decimal n) :
    c ∉ punctuation :=
  notMem_punctuation_of_isDecimal (Text.isDecimal_of_mem_decimal digit)

theorem notMem_decimal (n : Nat) : '[' ∉ Text.decimal n :=
  fun digit => notMem_punctuation_of_mem_decimal digit (by decide)

theorem enclosed_sized {x size : List Char} (front : Text.Enclosed ',' '(' ')' x)
    (plain : Text.Enclosed ',' '(' ')' size) :
    Text.Enclosed ',' '(' ')' (x ++ '[' :: size ++ [']']) := by
  have opens : Text.Enclosed ',' '(' ')' ['['] := rfl
  have closes : Text.Enclosed ',' '(' ')' [']'] := rfl
  exact (front.append (opens.append plain)).append closes

theorem enclosed_chars (type : AbiType) : Text.Enclosed ',' '(' ')' type.chars := by
  induction type with
  | array item ih =>
      rw [chars_array]
      exact enclosed_sized ih .nil
  | fixedArray item count ih =>
      rw [chars_fixedArray]
      exact enclosed_sized ih (enclosed_of_notMem fun _ => notMem_punctuation_of_mem_decimal)
  | tuple items ih =>
      rw [chars_tuple]
      apply Text.Enclosed.bracketed _ (by decide) (by decide) (by decide)
      intro piece member
      obtain ⟨item, inItems, rfl⟩ := List.mem_map.mp member
      exact ih item inItems
  | _ => exact enclosed_of_isElementary trivial

theorem eq_of_sized_eq {x y size otherSize : List Char} (plain : '[' ∉ size)
    (otherPlain : '[' ∉ otherSize)
    (same : x ++ '[' :: size ++ [']'] = y ++ '[' :: otherSize ++ [']']) :
    x = y ∧ size = otherSize := by
  have backwards := congrArg List.reverse (List.append_cancel_right same)
  simp only [List.reverse_append, List.reverse_cons, List.append_assoc,
    List.singleton_append] at backwards
  have apart : Text.Apart '[' size.reverse otherSize.reverse :=
    Text.apart_of_notMem (by rwa [List.mem_reverse]) (by rwa [List.mem_reverse])
  obtain ⟨sizes, rest⟩ := Text.eq_of_append_eq apart (Text.stops_cons _) (Text.stops_cons _) backwards
  exact ⟨List.reverse_injective (List.cons.inj rest).2, List.reverse_injective sizes⟩

theorem eq_of_map_chars_eq {items others : List AbiType}
    (each : ∀ item ∈ items, ∀ other : AbiType, item.chars = other.chars → item = other)
    (same : items.map chars = others.map chars) : items = others := by
  induction items generalizing others with
  | nil => exact (List.map_eq_nil_iff.mp same.symm).symm
  | cons item items ih =>
      cases others with
      | nil => contradiction
      | cons other others =>
          obtain ⟨first, rest⟩ := List.forall_mem_cons.mp each
          obtain ⟨head, tail⟩ := List.cons.inj same
          rw [first other head, ih rest tail]

theorem items_eq_of_chars_eq {items others : List AbiType}
    (each : ∀ item ∈ items, ∀ other : AbiType, item.chars = other.chars → item = other)
    (same : (tuple items).chars = (tuple others).chars) : items = others := by
  rw [chars_tuple, chars_tuple] at same
  have joined := List.append_cancel_right (List.cons.inj same).2
  have full (types : List AbiType) : ∀ piece ∈ types.map chars, piece ≠ [] := by
    intro piece member
    obtain ⟨type, -, rfl⟩ := List.mem_map.mp member
    exact chars_ne_nil type
  have apart : ∀ pair ∈ (items.map chars).zip (others.map chars), Text.Apart ',' pair.1 pair.2 := by
    rintro ⟨x, y⟩ member
    obtain ⟨left, right⟩ := List.of_mem_zip member
    obtain ⟨item, -, rfl⟩ := List.mem_map.mp left
    obtain ⟨other, -, rfl⟩ := List.mem_map.mp right
    exact (enclosed_chars item).apart (enclosed_chars other) (by decide)
  apply eq_of_map_chars_eq each
  exact Text.eq_of_intercalate_eq apart
    (Text.eq_nil_iff_of_intercalate_eq (full items) (full others) joined) joined

theorem eq_of_chars_eq (same : type.chars = other.chars) : type = other := by
  induction type generalizing other with
  | array item ih =>
      have ends : other.ending = some ']' := ending_eq_of_chars_eq same
      cases other with
      | array other =>
          rw [chars_array, chars_array] at same
          obtain ⟨texts, -⟩ := eq_of_sized_eq List.not_mem_nil List.not_mem_nil same
          rw [ih texts]
      | fixedArray other count =>
          rw [chars_array, chars_fixedArray] at same
          obtain ⟨-, sizes⟩ := eq_of_sized_eq List.not_mem_nil (notMem_decimal count) same
          exact absurd sizes.symm (Text.decimal_ne_nil count)
      | _ => simp [ending] at ends
  | fixedArray item count ih =>
      have ends : other.ending = some ']' := ending_eq_of_chars_eq same
      cases other with
      | array other =>
          rw [chars_array, chars_fixedArray] at same
          obtain ⟨-, sizes⟩ := eq_of_sized_eq (notMem_decimal count) List.not_mem_nil same
          exact absurd sizes (Text.decimal_ne_nil count)
      | fixedArray other otherCount =>
          rw [chars_fixedArray, chars_fixedArray] at same
          obtain ⟨texts, sizes⟩ :=
            eq_of_sized_eq (notMem_decimal count) (notMem_decimal otherCount) same
          rw [ih texts, Text.decimal_injective sizes]
      | _ => simp [ending] at ends
  | tuple items ih =>
      have ends : other.ending = some ')' := ending_eq_of_chars_eq same
      cases other with
      | tuple others => rw [items_eq_of_chars_eq (fun item member other => ih item member) same]
      | _ => simp [ending] at ends
  | _ =>
      have ends : other.ending = none := ending_eq_of_chars_eq same
      cases other with
      | array _ | fixedArray _ _ | tuple _ => simp [ending] at ends
      | _ => exact eq_of_chars_eq_of_isElementary trivial trivial same

end AbiType

namespace Abi

theorem signature_of_paramTypes {params : List Param} {types : List AbiType}
    (typed : paramTypes params = .ok types) (name : String) :
    signature name params = .ok (name ++ (AbiType.tuple types).canonical) := by
  rw [signature, typed]
  rfl

theorem eq_of_append_canonical_eq {name other : String} {types others : List AbiType}
    (plain : '(' ∉ name.toList) (otherPlain : '(' ∉ other.toList)
    (same : name ++ (AbiType.tuple types).canonical = other ++ (AbiType.tuple others).canonical) :
    name = other ∧ types = others := by
  have texts := congrArg String.toList same
  rw [String.toList_append, String.toList_append] at texts
  change name.toList ++ (AbiType.tuple types).chars = other.toList ++ (AbiType.tuple others).chars
    at texts
  have stops (types : List AbiType) : Text.Stops '(' (AbiType.tuple types).chars := by
    rw [AbiType.chars_tuple]
    exact Text.stops_cons _
  obtain ⟨names, tuples⟩ := Text.eq_of_append_eq (Text.apart_of_notMem plain otherPlain)
    (stops types) (stops others) texts
  exact ⟨String.toList_inj.mp names, AbiType.tuple.inj (AbiType.eq_of_chars_eq tuples)⟩

/-- Selectors and topics of declarations are taken from the hash of these octets. -/
structure HashedFrom (name : String) (params : List Param) (octets : List UInt8) : Prop where
  hash : signatureHash name params = .ok (Keccak.hash octets)
  selector : ∀ f : Function, f.name = name → f.inputs = params →
    f.selector = .ok (selectorOf (Keccak.hash octets))
  topic : ∀ e : Event, e.name = name → e.inputs = params → e.topic = .ok (Keccak.hash octets)

theorem hashedFrom {name text : String} {params : List Param}
    (signed : signature name params = .ok text) :
    HashedFrom name params (Utf8.encodeString text) := by
  have hash : signatureHash name params = .ok (Keccak.hash (Utf8.encodeString text)) := by
    rw [signatureHash, signed]
    rfl
  refine ⟨hash, ?_, ?_⟩
  · rintro f rfl rfl
    rw [Function.selector, hash]
    rfl
  · rintro e rfl rfl
    exact hash

/-- Declarations with one signature have one name, and the same types at the same positions. The hashes
of others are hashes of different octets. -/
theorem signature_identifies {name other : String} {params others : List Param}
    {types otherTypes : List AbiType} (plain : '(' ∉ name.toList) (otherPlain : '(' ∉ other.toList)
    (typed : paramTypes params = .ok types) (otherTyped : paramTypes others = .ok otherTypes) :
    (signature name params = signature other others ↔ name = other ∧ types = otherTypes) ∧
    ∃ octets otherOctets, HashedFrom name params octets ∧ HashedFrom other others otherOctets ∧
      (octets = otherOctets ↔ name = other ∧ types = otherTypes) := by
  have signed := signature_of_paramTypes typed name
  have otherSigned := signature_of_paramTypes otherTyped other
  have identifies : name ++ (AbiType.tuple types).canonical =
      other ++ (AbiType.tuple otherTypes).canonical ↔ name = other ∧ types = otherTypes := by
    constructor
    · exact eq_of_append_canonical_eq plain otherPlain
    · rintro ⟨rfl, rfl⟩
      rfl
  refine ⟨?_, _, _, hashedFrom signed, hashedFrom otherSigned, ?_⟩
  · rw [signed, otherSigned, Except.ok.injEq, identifies]
  · rw [Utf8.encodeString_injective.eq_iff, identifies]

def pairBehind : List Param :=
  [⟨"", "uint8[]", [], false⟩,
    ⟨"", "tuple", [⟨"", "uint8", [], false⟩, ⟨"", "bool", [], false⟩], false⟩]

def pairInFront : List Param :=
  [⟨"", "tuple", [⟨"", "uint8[]", [], false⟩, ⟨"", "uint8", [], false⟩], false⟩,
    ⟨"", "bool", [], false⟩]

theorem signature_identifies_parentheses :
    ∃ octets otherOctets, HashedFrom "f" pairBehind octets ∧ HashedFrom "f" pairInFront otherOctets ∧
      octets ≠ otherOctets := by
  have typed : paramTypes pairBehind =
      .ok [.array (.uint 8), .tuple [.uint 8, .bool]] := rfl
  have otherTyped : paramTypes pairInFront =
      .ok [.tuple [.array (.uint 8), .uint 8], .bool] := rfl
  have plain : '(' ∉ "f".toList := by decide
  obtain ⟨octets, otherOctets, hashed, otherHashed, same⟩ :=
    (signature_identifies plain plain typed otherTyped).2
  refine ⟨octets, otherOctets, hashed, otherHashed, ?_⟩
  rw [ne_eq, same]
  simp

end Abi

end Rehearsal
