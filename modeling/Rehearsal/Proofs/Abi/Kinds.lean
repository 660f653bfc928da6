import Rehearsal.Proofs.Abi.Signature
import Rehearsal.Proofs.Scenario.Decimal
import Rehearsal.Proofs.Text.Search

namespace Rehearsal

/-! The kinds that types are read from. A kind is a base and array suffixes behind it, and every number
in it is a width or a size. The canonical text of a type is the kind that it was read from, with the
aliases of the base spelled out, and with each number in its plain form: signs and zeros in front of a
number are passed over. -/

namespace Text

variable {digits s : List Char} {n : Nat}

inductive SpellsCount : List Char → Nat → Prop where
  | plain {digits : List Char} (some : digits ≠ [])
      (decimals : ∀ c ∈ digits, isDecimal c = true) (fits : numeral 10 digits < limit64) :
      SpellsCount digits (numeral 10 digits)
  | signed {digits : List Char} (some : digits ≠ [])
      (decimals : ∀ c ∈ digits, isDecimal c = true) (fits : numeral 10 digits < limit64) :
      SpellsCount ('+' :: digits) (numeral 10 digits)

theorem readNat_eq_some_iff : readNat 10 digits = some n ↔
    digits ≠ [] ∧ (∀ c ∈ digits, isDecimal c = true) ∧ numeral 10 digits = n := by
  have decimals : (∀ c ∈ digits, isDecimal c = true) ↔
      ∀ c ∈ digits, ∃ d, digitValue? c = some d ∧ d < 10 := by
    simp only [isDecimal_iff, and_comm]
  cases digits with
  | nil => simp [readNat]
  | cons c rest =>
      rw [readNat, readDigits_eq_some_iff, decimals]
      · simp
      · simp

theorem readCount_eq_some_iff : readCount s = some n ↔ SpellsCount s n := by
  constructor
  · intro read
    unfold readCount readBelow at read
    split at read
    · next rest =>
      dsimp only at read
      split at read
      · next m found =>
        obtain ⟨some, decimals, rfl⟩ := readNat_eq_some_iff.mp found
        obtain ⟨fits, same⟩ := Option.ite_none_right_eq_some.mp read
        cases same
        exact .signed some decimals fits
      · contradiction
    · dsimp only at read
      split at read
      · next m found =>
        obtain ⟨some, decimals, rfl⟩ := readNat_eq_some_iff.mp found
        obtain ⟨fits, same⟩ := Option.ite_none_right_eq_some.mp read
        cases same
        exact .plain some decimals fits
      · contradiction
  · intro spelled
    cases spelled with
    | signed some decimals fits =>
        have read := readNat_eq_some_iff.mpr ⟨some, decimals, rfl⟩
        simp only [readCount, readBelow, read, if_pos fits]
    | plain some decimals fits =>
        have read := readNat_eq_some_iff.mpr ⟨some, decimals, rfl⟩
        have notPlus : ∀ rest, s ≠ '+' :: rest := by
          rintro rest rfl
          exact absurd (decimals '+' List.mem_cons_self) (by decide)
        simp only [readCount, readBelow, read, if_pos fits]

theorem SpellsCount.ne_nil (spelled : SpellsCount s n) : s ≠ [] := by
  cases spelled with
  | plain some => exact some
  | signed => exact List.cons_ne_nil _ _

/-- Numbers in their plain form. Plus signs are dropped, and so are zeros in front of a number that
goes on behind them; `within` tells whether a digit has been kept just before. -/
def plainFrom : (within : Bool) → List Char → List Char
  | _, [] => []
  | within, c :: rest =>
      if c = '+' then plainFrom false rest
      else if c = '0' ∧ within = false ∧ rest.head?.any isDecimal = true then plainFrom false rest
      else c :: plainFrom (isDecimal c) rest

def plainNumbers (s : List Char) : List Char :=
  plainFrom false s

def IsApart (c : Char) : Prop :=
  isDecimal c = false ∧ c ≠ '+'

theorem plainFrom_of_isApart {c : Char} (apart : IsApart c) (within : Bool) (rest : List Char) :
    plainFrom within (c :: rest) = c :: plainFrom false rest := by
  have notZero : c ≠ '0' := by
    rintro rfl
    exact absurd apart.1 (by decide)
  rw [plainFrom, if_neg apart.2, if_neg fun zero => notZero zero.1, apart.1]

theorem plainFrom_append {c : Char} (apart : IsApart c) (within : Bool) (front rest : List Char) :
    plainFrom within (front ++ c :: rest) = plainFrom within front ++ c :: plainFrom false rest := by
  induction front generalizing within with
  | nil => exact plainFrom_of_isApart apart within rest
  | cons d front ih =>
      have next : (front ++ c :: rest).head?.any isDecimal = front.head?.any isDecimal := by
        cases front with
        | nil => exact apart.1
        | cons e front => rfl
      rw [List.cons_append, plainFrom, plainFrom, next]
      split
      · exact ih false
      · split
        · exact ih false
        · rw [ih, List.cons_append]

theorem plainFrom_of_letters {letters : List Char} (apart : ∀ c ∈ letters, IsApart c)
    (rest : List Char) : plainFrom false (letters ++ rest) = letters ++ plainFrom false rest := by
  induction letters with
  | nil => rfl
  | cons c letters ih =>
      obtain ⟨first, others⟩ := List.forall_mem_cons.mp apart
      rw [List.cons_append, plainFrom_of_isApart first, ih others, List.cons_append]

theorem plainFrom_within (decimals : ∀ c ∈ digits, isDecimal c = true) :
    plainFrom true digits = digits := by
  induction digits with
  | nil => rfl
  | cons c digits ih =>
      obtain ⟨first, others⟩ := List.forall_mem_cons.mp decimals
      have notPlus : c ≠ '+' := by
        rintro rfl
        contradiction
      rw [plainFrom, if_neg notPlus, if_neg (by simp), first, ih others]

theorem plainFrom_digits (some : digits ≠ []) (decimals : ∀ c ∈ digits, isDecimal c = true) :
    plainFrom false digits = decimal (numeral 10 digits) := by
  induction digits with
  | nil => contradiction
  | cons c digits ih =>
      obtain ⟨first, others⟩ := List.forall_mem_cons.mp decimals
      have notPlus : c ≠ '+' := by
        rintro rfl
        contradiction
      by_cases zero : c = '0'
      · subst zero
        cases digits with
        | nil => rfl
        | cons d digits =>
            have goesOn : (d :: digits).head?.any isDecimal = true := others d List.mem_cons_self
            have zeroValue : digitValue '0' = 0 := rfl
            rw [plainFrom, if_neg notPlus, if_pos ⟨rfl, rfl, goesOn⟩,
              ih (List.cons_ne_nil _ _) others, numeral_cons_zero zeroValue (d :: digits)]
      · rw [plainFrom, if_neg notPlus, if_neg fun padding => zero padding.1, first,
          plainFrom_within others, (decimal_numeral zero decimals).1]

theorem SpellsCount.plain_eq (spelled : SpellsCount s n) : plainNumbers s = decimal n := by
  cases spelled with
  | plain some decimals => exact plainFrom_digits some decimals
  | signed some decimals => exact plainFrom_digits some decimals

end Text

namespace AbiType

/-- A width from `step` to `greatest` that `step` divides. -/
structure SpellsWidth (greatest step : Nat) (digits : List Char) (n : Nat) : Prop where
  spelled : Text.SpellsCount digits n
  positive : 0 < n
  most : n ≤ greatest
  divides : n % step = 0

inductive Sized : List Char → Nat → Nat → (Nat → AbiType) → Prop where
  | uint : Sized "uint".toList 256 8 AbiType.uint
  | int : Sized "int".toList 256 8 AbiType.int
  | fixedBytes : Sized "bytes".toList 32 1 AbiType.fixedBytes

/-- The type that a base denotes. -/
inductive SpellsBase (components : Except Fault (List AbiType)) : List Char → AbiType → Prop where
  | address : SpellsBase components "address".toList .address
  | bool : SpellsBase components "bool".toList .bool
  | string : SpellsBase components "string".toList .string
  | bytes : SpellsBase components "bytes".toList .bytes
  | plainUint : SpellsBase components "uint".toList (.uint 256)
  | plainInt : SpellsBase components "int".toList (.int 256)
  | tuple {items : List AbiType} (typed : components = .ok items) :
      SpellsBase components "tuple".toList (.tuple items)
  | sized {name digits : List Char} {greatest step n : Nat} {ofWidth : Nat → AbiType}
      (named : Sized name greatest step ofWidth) (width : SpellsWidth greatest step digits n) :
      SpellsBase components (name ++ digits) (ofWidth n)

/-- The type that a kind denotes: that of its base, or an array of what it denotes without its last
suffix. -/
inductive Spells (components : Except Fault (List AbiType)) : List Char → AbiType → Prop where
  | base {kind : List Char} {type : AbiType} (spells : SpellsBase components kind type) :
      Spells components kind type
  | array {kind : List Char} {item : AbiType} (items : Spells components kind item) :
      Spells components (kind ++ '[' :: [] ++ [']']) (.array item)
  | fixedArray {kind size : List Char} {item : AbiType} {count : Nat}
      (items : Spells components kind item) (counted : Text.SpellsCount size count) :
      Spells components (kind ++ '[' :: size ++ [']']) (.fixedArray item count)

variable {components : Except Fault (List AbiType)} {kind name digits : List Char} {type : AbiType}
  {greatest step n : Nat} {ofWidth : Nat → AbiType}

/-! The reader of kinds accepts just these. -/

theorem width?_eq_some_iff :
    width? greatest step digits = some n ↔ SpellsWidth greatest step digits n := by
  unfold width?
  cases read : Text.readCount digits with
  | none =>
      refine iff_of_false nofun ?_
      rintro ⟨spelled, -⟩
      rw [Text.readCount_eq_some_iff.mpr spelled] at read
      contradiction
  | some m =>
      simp only [Option.ite_none_right_eq_some, Option.some.injEq]
      constructor
      · rintro ⟨⟨positive, most, divides⟩, rfl⟩
        exact ⟨Text.readCount_eq_some_iff.mp read, positive, most, divides⟩
      · rintro ⟨spelled, positive, most, divides⟩
        rw [Text.readCount_eq_some_iff.mpr spelled] at read
        cases read
        exact ⟨⟨positive, most, divides⟩, rfl⟩

theorem notMem_of_spellsCount (spelled : Text.SpellsCount digits n) {c : Char} (member : c ∈ digits) :
    c ∉ punctuation := by
  cases spelled with
  | plain _ decimals => exact notMem_punctuation_of_isDecimal (decimals c member)
  | signed _ decimals =>
      rcases List.mem_cons.mp member with rfl | member
      · decide
      · exact notMem_punctuation_of_isDecimal (decimals c member)

theorem spellsBase_of_sized? (read : sized? kind = some type) : SpellsBase components kind type := by
  simp only [sized?, Option.orElse_eq_orElse, Option.orElse_eq_or, Option.or_eq_some_iff,
    Option.map_eq_some_iff, Option.bind_eq_some_iff, Text.dropPrefix?_eq_some_iff,
    width?_eq_some_iff] at read
  rcases read with ⟨_, ⟨_, rfl, width⟩, rfl⟩ | ⟨_, ⟨_, ⟨_, rfl, width⟩, rfl⟩ | ⟨_, _, ⟨_, rfl, width⟩, rfl⟩⟩
  · exact .sized .uint width
  · exact .sized .int width
  · exact .sized .fixedBytes width

theorem spellsBase_of_ofBase (read : ofBase (fun _ => components) kind = .ok type) :
    SpellsBase components kind type := by
  unfold ofBase at read
  split_ifs at read with address bool string bytes uint int tuple
  · cases read
    exact address ▸ .address
  · cases read
    exact bool ▸ .bool
  · cases read
    exact string ▸ .string
  · cases read
    exact bytes ▸ .bytes
  · cases read
    exact uint ▸ .plainUint
  · cases read
    exact int ▸ .plainInt
  · obtain ⟨items, typed, rfl⟩ := Except.map_eq_ok.mp read
    exact tuple ▸ .tuple typed
  · split at read
    · next found =>
      cases read
      exact spellsBase_of_sized? found
    · contradiction

theorem sized?_of_sized (named : Sized name greatest step ofWidth)
    (width : SpellsWidth greatest step digits n) : sized? (name ++ digits) = some (ofWidth n) := by
  cases named with
  | uint | int | fixedBytes =>
      rw [sized?, Text.dropPrefix?_append, Option.bind_some, width?_eq_some_iff.mpr width]
      rfl

theorem ofBase_of_sized? (unnamed : kind ∉ ["address".toList, "bool".toList, "string".toList,
      "bytes".toList, "uint".toList, "int".toList, "tuple".toList])
    (found : sized? kind = some type) : ofBase (fun _ => components) kind = .ok type := by
  simp only [List.mem_cons, List.not_mem_nil, or_false, not_or] at unnamed
  obtain ⟨address, bool, string, bytes, uint, int, tuple⟩ := unnamed
  rw [ofBase, if_neg address, if_neg bool, if_neg string, if_neg bytes, if_neg uint, if_neg int,
    if_neg tuple, found]

theorem ofBase_of_spellsBase (spells : SpellsBase components kind type) :
    ofBase (fun _ => components) kind = .ok type := by
  cases spells with
  | address | bool | string | bytes | plainUint | plainInt => rfl
  | tuple typed =>
      rw [typed]
      rfl
  | sized named width =>
      have some := width.spelled.ne_nil
      apply ofBase_of_sized? _ (sized?_of_sized named width)
      cases named with
      | uint | int | fixedBytes => simp [some]

theorem Sized.isApart (named : Sized name greatest step ofWidth) :
    ∀ c ∈ name, Text.IsApart c ∧ c ∉ punctuation := by
  have each : (name.all fun c => !Text.isDecimal c && c != '+' && decide (c ∉ punctuation)) = true := by
    cases named with
    | uint | int | fixedBytes => rfl
  intro c letter
  have plain := List.all_eq_true.mp each c letter
  simpa [Text.IsApart] using plain

theorem notMem_of_spellsBase (spells : SpellsBase components kind type) :
    ∀ c ∈ kind, c ∉ punctuation := by
  have plain {base : List Char} (each : (base.all fun c => decide (c ∉ punctuation)) = true) :
      ∀ c ∈ base, c ∉ punctuation := by
    simpa using each
  cases spells with
  | address | bool | string | bytes | plainUint | plainInt | tuple => exact plain rfl
  | sized named width =>
      exact List.forall_mem_append.mpr
        ⟨fun c letter => (named.isApart c letter).2, fun c => notMem_of_spellsCount width.spelled⟩

theorem spells_of_ofKindWithin {fuel : Nat}
    (read : ofKindWithin (fun _ => components) fuel kind = .ok type) :
    Spells components kind type := by
  induction fuel generalizing kind type with
  | zero => contradiction
  | succ fuel ih =>
      unfold ofKindWithin at read
      split at read
      · exact .base (spellsBase_of_ofBase read)
      · next stripped suffix =>
        obtain rfl := Text.dropSuffix?_eq_some_iff.mp suffix
        split at read
        · contradiction
        · next inner size split =>
          obtain ⟨rfl, -⟩ := Text.splitAtLast?_eq_some_iff.mp split
          split at read
          · contradiction
          · next item items =>
            split at read
            · next empty =>
              cases read
              rw [List.isEmpty_iff.mp empty]
              exact .array (ih items)
            · split at read
              · next count counted =>
                cases read
                exact .fixedArray (ih items) (Text.readCount_eq_some_iff.mp counted)
              · contradiction

theorem ofKindWithin_of_spells (spells : Spells components kind type) {fuel : Nat}
    (enough : kind.length < fuel) : ofKindWithin (fun _ => components) fuel kind = .ok type := by
  induction spells generalizing fuel with
  | @base kind type spells =>
      obtain ⟨fuel, rfl⟩ := Nat.exists_eq_succ_of_ne_zero (Nat.ne_zero_of_lt enough)
      have plain : Text.dropSuffix? [']'] kind = none := by
        rw [Text.dropSuffix?_eq_none_iff]
        intro closes
        exact notMem_of_spellsBase spells ']' (closes.subset List.mem_cons_self) (by decide)
      rw [ofKindWithin, plain]
      exact ofBase_of_spellsBase spells
  | @array kind item items ih =>
      obtain ⟨fuel, rfl⟩ := Nat.exists_eq_succ_of_ne_zero (Nat.ne_zero_of_lt enough)
      simp only [List.length_append, List.length_cons] at enough
      have inner := ih (show kind.length < fuel by omega)
      have split : Text.splitAtLast? '[' (kind ++ '[' :: []) = some (kind, []) :=
        Text.splitAtLast?_eq_some_iff.mpr ⟨rfl, List.not_mem_nil⟩
      rw [ofKindWithin, Text.dropSuffix?_append]
      simp only [split, inner, List.isEmpty_nil, if_true]
  | @fixedArray kind size item count items counted ih =>
      obtain ⟨fuel, rfl⟩ := Nat.exists_eq_succ_of_ne_zero (Nat.ne_zero_of_lt enough)
      simp only [List.length_append, List.length_cons] at enough
      have inner := ih (show kind.length < fuel by omega)
      have noBracket : '[' ∉ size := fun member => notMem_of_spellsCount counted member (by decide)
      have split : Text.splitAtLast? '[' (kind ++ '[' :: size) = some (kind, size) :=
        Text.splitAtLast?_eq_some_iff.mpr ⟨rfl, noBracket⟩
      have full : size.isEmpty = false := by simp [counted.ne_nil]
      rw [ofKindWithin, Text.dropSuffix?_append]
      simp only [split, inner, full, Bool.false_eq_true, if_false,
        Text.readCount_eq_some_iff.mpr counted]

theorem ofKind_eq_ok_iff {kind : String} :
    ofKind (fun _ => components) kind = .ok type ↔ Spells components kind.toList type :=
  ⟨spells_of_ofKindWithin, fun spells => ofKindWithin_of_spells spells (Nat.lt_succ_self _)⟩

/-! The canonical text of a type and the kind that it was read from. -/

def spelledBase (components : Except Fault (List AbiType)) (base : List Char) : List Char :=
  if base = "uint".toList then "uint256".toList
  else if base = "int".toList then "int256".toList
  else if base = "tuple".toList then
    match components with
    | .ok items => '(' :: (List.intercalate [','] (items.map chars) ++ [')'])
    | .error _ => base
  else base

/-- A kind with the alias of its base spelled out, and its suffixes as they are. -/
def spelledOut (components : Except Fault (List AbiType)) (kind : List Char) : List Char :=
  spelledBase components (kind.takeWhile (· ≠ '[')) ++ kind.dropWhile (· ≠ '[')

theorem spelledOut_append (kind rest : List Char) :
    spelledOut components (kind ++ '[' :: rest) = spelledOut components kind ++ '[' :: rest := by
  have back : (kind ++ '[' :: rest).dropWhile (· ≠ '[') =
      kind.dropWhile (· ≠ '[') ++ '[' :: rest := by
    induction kind with
    | nil => rfl
    | cons c kind ih =>
        rw [List.cons_append, List.dropWhile_cons, List.dropWhile_cons]
        split
        · exact ih
        · rfl
  have whole (text : List Char) : text.takeWhile (· ≠ '[') ++ text.dropWhile (· ≠ '[') = text :=
    List.takeWhile_append_dropWhile
  have front : (kind ++ '[' :: rest).takeWhile (· ≠ '[') = kind.takeWhile (· ≠ '[') := by
    have both := (whole (kind ++ '[' :: rest)).trans (congrArg (· ++ '[' :: rest) (whole kind).symm)
    rw [back, List.append_assoc] at both
    exact List.append_cancel_right both
  rw [spelledOut, front, back, spelledOut, List.append_assoc]

theorem spelledOut_sized (kind size : List Char) :
    spelledOut components (kind ++ '[' :: size ++ [']']) =
      spelledOut components kind ++ '[' :: size ++ [']'] := by
  rw [List.append_assoc, List.cons_append, spelledOut_append, List.append_assoc, List.cons_append]

theorem spelledOut_of_notMem (plain : '[' ∉ kind) :
    spelledOut components kind = spelledBase components kind := by
  have each : ∀ c ∈ kind, decide (c ≠ '[') = true := by
    intro c member
    rw [decide_eq_true_eq]
    rintro rfl
    exact plain member
  rw [spelledOut, List.takeWhile_eq_self_iff.mpr each, List.dropWhile_eq_nil_iff.mpr each,
    List.append_nil]

theorem isApart_bracket {c : Char} (bracket : c ∈ ['[', ']']) : Text.IsApart c := by
  simp only [List.mem_cons, List.not_mem_nil, or_false] at bracket
  rcases bracket with rfl | rfl
  · exact ⟨rfl, by decide⟩
  · exact ⟨rfl, by decide⟩

theorem plainNumbers_sized (kind size : List Char) :
    Text.plainNumbers (kind ++ '[' :: size ++ [']']) =
      Text.plainNumbers kind ++ '[' :: Text.plainNumbers size ++ [']'] := by
  rw [Text.plainNumbers, Text.plainFrom_append (isApart_bracket (by simp)),
    Text.plainFrom_append (isApart_bracket (by simp))]
  rfl

theorem Sized.chars_eq (named : Sized name greatest step ofWidth) (n : Nat) :
    (ofWidth n).chars = name ++ Text.decimal n := by
  cases named with
  | uint | int | fixedBytes => exact chars_of_isElementary trivial

theorem plainNumbers_append (named : Sized name greatest step ofWidth) (digits : List Char) :
    Text.plainNumbers (name ++ digits) = name ++ Text.plainNumbers digits :=
  Text.plainFrom_of_letters (fun c letter => (named.isApart c letter).1) digits

theorem spelledOut_of_width (named : Sized name greatest step ofWidth) (some : digits ≠ [])
    (plain : '[' ∉ digits) : spelledOut components (name ++ digits) = name ++ digits := by
  have noBracket : '[' ∉ name := fun letter => (named.isApart '[' letter).2 (by decide)
  rw [spelledOut_of_notMem (List.not_mem_append noBracket plain)]
  unfold spelledBase
  cases named with
  | uint | int | fixedBytes => simp [some]

theorem spelledOut_plain_of_width (named : Sized name greatest step ofWidth)
    (spelled : Text.SpellsCount digits n) :
    spelledOut components (Text.plainNumbers (name ++ digits)) = name ++ Text.decimal n := by
  rw [plainNumbers_append named, spelled.plain_eq,
    spelledOut_of_width named (Text.decimal_ne_nil n) (notMem_decimal n)]

/-- The text of a type is what it was read from, spelled out and with plain numbers. -/
theorem Spells.chars_eq (spells : Spells components kind type) :
    type.chars = spelledOut components (Text.plainNumbers kind) := by
  induction spells with
  | base spells =>
      cases spells with
      | address | bool | string | bytes | plainUint | plainInt => rfl
      | tuple typed =>
          rw [typed, chars_tuple]
          exact (List.append_nil _).symm
      | @sized _ _ _ _ n _ named width =>
          rw [spelledOut_plain_of_width named width.spelled, named.chars_eq n]
  | array items ih =>
      rw [plainNumbers_sized, spelledOut_sized, chars_array, ih]
      rfl
  | fixedArray items counted ih =>
      rw [plainNumbers_sized, spelledOut_sized, chars_fixedArray, ih, counted.plain_eq]

theorem sized_eq_iff {x y size otherSize : List Char} (plain : '[' ∉ size)
    (otherPlain : '[' ∉ otherSize) :
    x ++ '[' :: size ++ [']'] = y ++ '[' :: otherSize ++ [']'] ↔ x = y ∧ size = otherSize := by
  constructor
  · exact eq_of_sized_eq plain otherPlain
  · rintro ⟨rfl, rfl⟩
    rfl

theorem Spells.plain_eq_iff (spells : Spells components kind type) :
    spelledOut components (Text.plainNumbers kind) = spelledOut components kind ↔
      Text.plainNumbers kind = kind := by
  induction spells with
  | base spells =>
      cases spells with
      | address | bool | string | bytes | plainUint | plainInt | tuple =>
          exact iff_of_true rfl rfl
      | sized named width =>
          have noBracket : '[' ∉ _ :=
            fun member => notMem_of_spellsCount width.spelled member (by decide)
          rw [spelledOut_plain_of_width named width.spelled,
            spelledOut_of_width named width.spelled.ne_nil noBracket, plainNumbers_append named,
            width.spelled.plain_eq]
  | array items ih =>
      rw [plainNumbers_sized, spelledOut_sized, spelledOut_sized]
      have empty : Text.plainNumbers [] = [] := rfl
      rw [empty, sized_eq_iff List.not_mem_nil List.not_mem_nil, ih,
        sized_eq_iff List.not_mem_nil List.not_mem_nil]
  | @fixedArray kind size item count items counted ih =>
      have noBracket : '[' ∉ size := fun member => notMem_of_spellsCount counted member (by decide)
      rw [plainNumbers_sized, spelledOut_sized, spelledOut_sized, counted.plain_eq,
        sized_eq_iff (notMem_decimal count) noBracket, ih,
        sized_eq_iff (notMem_decimal count) noBracket]

end AbiType

namespace Abi

namespace Param

def spelledOut (param : Param) : List Char :=
  AbiType.spelledOut (typesOf param.components) param.kind.toList

def plainlySpelledOut (param : Param) : List Char :=
  AbiType.spelledOut (typesOf param.components) (Text.plainNumbers param.kind.toList)

/-- No number in the kind has a sign or needless zeros. -/
def IsPlain (param : Param) : Prop :=
  Text.plainNumbers param.kind.toList = param.kind.toList

theorem type_eq_ok_iff (param : Param) (type : AbiType) :
    param.type = .ok type ↔ AbiType.Spells (typesOf param.components) param.kind.toList type := by
  cases param
  rw [Param.type]
  exact AbiType.ofKind_eq_ok_iff

/-- A type is read from the kinds that spell it, and from no others. Its text is the kind with the
alias spelled out unless a number in the kind is not in its plain form, and two parameters have
the same type when all that tells them apart are the aliases and such numbers. -/
theorem type_follows_kind (param : Param) :
    (∀ type, param.type = .ok type ↔
      AbiType.Spells (typesOf param.components) param.kind.toList type) ∧
    ∀ type, param.type = .ok type →
      (type.canonical.toList = param.spelledOut ↔ param.IsPlain) ∧
      ∀ (other : Param) (otherType : AbiType), other.type = .ok otherType →
        (type = otherType ↔ param.plainlySpelledOut = other.plainlySpelledOut) := by
  refine ⟨param.type_eq_ok_iff, ?_⟩
  intro type read
  have spells := (param.type_eq_ok_iff type).mp read
  have text : type.canonical.toList = param.plainlySpelledOut := spells.chars_eq
  constructor
  · rw [text]
    exact spells.plain_eq_iff
  · intro other otherType otherRead
    have otherSpells := (other.type_eq_ok_iff otherType).mp otherRead
    have otherText : otherType.canonical.toList = other.plainlySpelledOut := otherSpells.chars_eq
    rw [← text, ← otherText]
    constructor
    · rintro rfl
      rfl
    · exact AbiType.eq_of_chars_eq

def pairs : Param :=
  ⟨"", "tuple[2][]", [⟨"", "uint", [], false⟩, ⟨"", "bytes32", [], false⟩], false⟩

def signedPairs : Param :=
  ⟨"", "tuple[+2][]", [⟨"", "uint256", [], false⟩, ⟨"", "bytes032", [], false⟩], false⟩

theorem type_follows_kind_of_pairs :
    ∃ type, signedPairs.type = .ok type ∧ type.canonical.toList ≠ signedPairs.spelledOut ∧
      signedPairs.plainlySpelledOut = pairs.plainlySpelledOut := by
  have read : signedPairs.type =
      .ok (.array (.fixedArray (.tuple [.uint 256, .fixedBytes 32]) 2)) := rfl
  have alike : pairs.type = .ok (.array (.fixedArray (.tuple [.uint 256, .fixedBytes 32]) 2)) := rfl
  have signed : ¬signedPairs.IsPlain := by
    unfold IsPlain
    decide
  obtain ⟨text, others⟩ := signedPairs.type_follows_kind.2 _ read
  exact ⟨_, read, fun same => signed (text.mp same), (others pairs _ alike).mp rfl⟩

theorem padded_width_accepted : ¬∀ (param : Param) (type : AbiType), param.type = .ok type →
    type.canonical.toList = param.spelledOut := by
  intro follows
  have padded : Param.type ⟨"", "uint08", [], false⟩ = .ok (.uint 8) := rfl
  exact absurd (follows _ _ padded) (by decide)

end Param

end Abi

end Rehearsal
