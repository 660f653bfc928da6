import Rehearsal.Proofs.Abi.Reencoding
import Rehearsal.Proofs.Abi.Tuple

namespace Rehearsal

/-! Which integers the encoder takes. It looks at their magnitude, which has to fit into a word, and
never at the width that a type names. So the width is kept by all values that a type takes just when
every integer in them is unsigned and as wide as a word.

What all values of a type have in their leaves is a matter of its elementary types alone, since each
type takes some value, in which a leaf can be put. -/

namespace AbiType

mutual

/-- A property holds of every elementary type that values of a type have leaves of. An array without
items has none. -/
def EachLeafType (p : AbiType → Prop) : AbiType → Prop
  | .array item => item.EachLeafType p
  | .fixedArray item count => count = 0 ∨ item.EachLeafType p
  | .tuple items => AllLeafTypes p items
  | .address => p .address
  | .uint bits => p (.uint bits)
  | .int bits => p (.int bits)
  | .bool => p .bool
  | .string => p .string
  | .bytes => p .bytes
  | .fixedBytes size => p (.fixedBytes size)

def AllLeafTypes (p : AbiType → Prop) : List AbiType → Prop
  | [] => True
  | item :: rest => item.EachLeafType p ∧ AllLeafTypes p rest

end

theorem allLeafTypes_iff {p : AbiType → Prop} {items : List AbiType} :
    AllLeafTypes p items ↔ ∀ item ∈ items, item.EachLeafType p := by
  induction items with
  | nil => simp [AllLeafTypes]
  | cons item rest ih => simp [AllLeafTypes, ih]

theorem EachLeafType.imp {p q : AbiType → Prop} (implies : ∀ type, p type → q type)
    {type : AbiType} (each : type.EachLeafType p) : type.EachLeafType q := by
  induction type with
  | array item ih => exact ih each
  | fixedArray item count ih => exact Or.imp_right ih each
  | tuple items ih =>
      exact allLeafTypes_iff.mpr fun item member =>
        ih item member (allLeafTypes_iff.mp each item member)
  | _ => exact implies _ each

theorem AllLeafTypes.imp {p q : AbiType → Prop} (implies : ∀ type, p type → q type)
    {items : List AbiType} (each : AllLeafTypes p items) : AllLeafTypes q items :=
  allLeafTypes_iff.mpr fun item member => (allLeafTypes_iff.mp each item member).imp implies

theorem EachLeafType.of_forall {p : AbiType → Prop} (all : ∀ type, p type) (type : AbiType) :
    type.EachLeafType p := by
  induction type with
  | array item ih => exact ih
  | fixedArray item count ih => exact .inr ih
  | tuple items ih => exact allLeafTypes_iff.mpr ih
  | _ => exact all _

/-- An integer type has room for every magnitude of a word. -/
def IsWide : AbiType → Prop
  | .uint bits => 256 ≤ bits
  | .int bits => 256 < bits
  | _ => True

end AbiType

namespace Abi

open AbiType

/-! Every type takes some value. -/

theorem exists_forall₂_canonical {types : List AbiType}
    (each : ∀ type ∈ types, ∃ value, Canonical type value) :
    ∃ values, List.Forall₂ Canonical types values := by
  induction types with
  | nil => exact ⟨[], .nil⟩
  | cons type types ih =>
      obtain ⟨first, others⟩ := List.forall_mem_cons.mp each
      obtain ⟨value, head⟩ := first
      obtain ⟨values, tail⟩ := ih others
      exact ⟨value :: values, .cons head tail⟩

theorem exists_canonical (type : AbiType) : ∃ value, Canonical type value := by
  induction type with
  | address => exact ⟨_, Canonical.address (Address.ofLow 0)⟩
  | uint bits => exact ⟨_, Canonical.uint (n := 0) (by decide) bits⟩
  | int bits => exact ⟨_, Canonical.int (n := 0) (by decide) bits⟩
  | bool => exact ⟨_, Canonical.bool true⟩
  | string => exact ⟨_, Canonical.string ""⟩
  | bytes => exact ⟨_, Canonical.bytes []⟩
  | fixedBytes size =>
      have canonical := Canonical.fixedBytes (List.replicate size 0)
      rw [List.length_replicate] at canonical
      exact ⟨_, canonical⟩
  | array item ih =>
      have none : List.Forall₂ Canonical (List.replicate ([] : List Json).length item) [] := .nil
      exact ⟨.array [], Canonical.array none⟩
  | fixedArray item count ih =>
      have repeated : ∀ type ∈ List.replicate count item, ∃ value, Canonical type value :=
        fun type member => List.eq_of_mem_replicate member ▸ ih
      obtain ⟨values, each⟩ := exists_forall₂_canonical repeated
      have length := each.length_eq
      rw [List.length_replicate] at length
      subst length
      exact ⟨_, Canonical.fixedArray each⟩
  | tuple types ih =>
      obtain ⟨values, each⟩ := exists_forall₂_canonical ih
      exact ⟨_, Canonical.tuple each⟩

theorem exists_encodePieces (types : List AbiType) :
    ∃ values pieces, types.length = values.length ∧ encodePieces types values = .ok pieces := by
  obtain ⟨values, each⟩ := exists_forall₂_canonical fun type (_ : type ∈ types) =>
    exists_canonical type
  obtain ⟨pieces, encoded⟩ := Canonical.exists_encodePieces each
  exact ⟨values, pieces, each.length_eq, encoded⟩

/-! What leaves have in common. -/

variable {p : AbiType → Json → Prop}

def HoldsOfTaken (p : AbiType → Json → Prop) (type : AbiType) : Prop :=
  ∀ value bytes, encodeValue type value = .ok bytes → p type value

theorem encodePieces_cons_of {type : AbiType} {types : List AbiType} {value : Json}
    {values : List Json} {bytes : List UInt8} {pieces : List Piece}
    (first : encodeValue type value = .ok bytes) (others : encodePieces types values = .ok pieces) :
    encodePieces (type :: types) (value :: values) = .ok (Piece.of type bytes :: pieces) := by
  rw [encodePieces, first, ok_bind, others]
  rfl

theorem holdsOfTaken_of_encodePieces {types : List AbiType}
    (all : ∀ values pieces, types.length = values.length → encodePieces types values = .ok pieces →
      AllLeaves p types values) :
    ∀ type ∈ types, HoldsOfTaken (EachLeaf p) type := by
  induction types with
  | nil => exact fun type member => absurd member List.not_mem_nil
  | cons type types ih =>
      refine List.forall_mem_cons.mpr ⟨?_, ?_⟩
      · intro value bytes first
        obtain ⟨values, pieces, same, others⟩ := exists_encodePieces types
        exact (all (value :: values) _ (congrArg Nat.succ same)
          (encodePieces_cons_of first others)).1
      · obtain ⟨value, canonical⟩ := exists_canonical type
        obtain ⟨bytes, first⟩ := canonical.encodes
        apply ih
        intro values pieces same others
        exact (all (value :: values) _ (congrArg Nat.succ same)
          (encodePieces_cons_of first others)).2

theorem mapM_encodeValue_replicate {item : AbiType} {value : Json} {bytes : List UInt8}
    (encoded : encodeValue item value = .ok bytes) (count : Nat) :
    ((List.replicate count value).mapM fun v => encodeValue item v) =
      .ok (List.replicate count bytes) := by
  induction count with
  | zero => rfl
  | succ count ih =>
      rw [List.replicate_succ, List.mapM_cons, encoded, ok_bind, ih]
      rfl

theorem eachLeafType_of_holdsOfTaken {type : AbiType} (all : HoldsOfTaken (EachLeaf p) type) :
    type.EachLeafType (HoldsOfTaken p) := by
  induction type with
  | array item ih =>
      apply ih
      intro value bytes encoded
      have taken : ∃ whole, encodeValue (.array item) (.array (List.replicate 1 value)) =
          .ok whole := by
        rw [encodeValue, itemsOf, ok_bind, mapM_encodeValue_replicate encoded]
        exact ⟨_, rfl⟩
      obtain ⟨whole, taken⟩ := taken
      exact all _ whole taken value List.mem_cons_self
  | fixedArray item count ih =>
      cases count with
      | zero => exact .inl rfl
      | succ count =>
          apply Or.inr
          apply ih
          intro value bytes encoded
          have taken : ∃ whole, encodeValue (.fixedArray item (count + 1))
              (.array (List.replicate (count + 1) value)) = .ok whole := by
            rw [encodeValue, itemsOf, ok_bind, if_neg (not_not_intro List.length_replicate),
              mapM_encodeValue_replicate encoded]
            exact ⟨_, rfl⟩
          obtain ⟨whole, taken⟩ := taken
          exact all _ whole taken value List.mem_cons_self
  | tuple types ih =>
      apply allLeafTypes_iff.mpr
      intro type member
      apply ih type member
      apply holdsOfTaken_of_encodePieces _ type member
      intro values pieces same encoded
      have taken : encodeValue (.tuple types) (.array values) =
          .ok (assemble (headLengths types) pieces) := by
        rw [encodeValue, itemsOf, ok_bind, if_neg (not_not_intro same), encoded]
        rfl
      exact all _ _ taken
  | _ => exact all

theorem allLeaves_of_encodePieces {types : List AbiType} {values : List Json}
    {pieces : List Piece} (each : ∀ type ∈ types, HoldsOfTaken (EachLeaf p) type)
    (encoded : encodePieces types values = .ok pieces) : AllLeaves p types values := by
  induction types generalizing values pieces with
  | nil => trivial
  | cons type types ih =>
      cases values with
      | nil => trivial
      | cons value values =>
          obtain ⟨first, others⟩ := List.forall_mem_cons.mp each
          obtain ⟨bytes, rest, head, tail, -⟩ := encodePieces_cons encoded
          exact ⟨first value bytes head, ih others tail⟩

theorem holdsOfTaken_of_eachLeafType {type : AbiType}
    (each : type.EachLeafType (HoldsOfTaken p)) : HoldsOfTaken (EachLeaf p) type := by
  induction type with
  | array item ih =>
      intro value bytes encoded
      obtain ⟨values, pieces, rfl, items, -⟩ := encodeValue_array encoded
      apply allLeaves_replicate.mp
      exact allLeaves_of_encodePieces
        (fun type member => List.eq_of_mem_replicate member ▸ ih each) items
  | fixedArray item count ih =>
      intro value bytes encoded
      obtain ⟨values, pieces, rfl, rfl, items, -⟩ := encodeValue_fixedArray encoded
      rcases each with none | each
      · obtain rfl := List.length_eq_zero_iff.mp none
        exact fun v member => absurd member List.not_mem_nil
      · apply allLeaves_replicate.mp
        exact allLeaves_of_encodePieces
          (fun type member => List.eq_of_mem_replicate member ▸ ih each) items
  | tuple types ih =>
      intro value bytes encoded
      obtain ⟨values, pieces, rfl, -, parts, -⟩ := encodeValue_tuple encoded
      have eachType := allLeafTypes_iff.mp each
      exact allLeaves_of_encodePieces (fun type member => ih type member (eachType type member)) parts
  | _ => exact each

theorem forall_allLeaves_iff {types : List AbiType} :
    (∀ values bytes, encode types values = .ok bytes → AllLeaves p types values) ↔
      AllLeafTypes (HoldsOfTaken p) types := by
  constructor
  · intro all
    apply allLeafTypes_iff.mpr
    intro type member
    apply eachLeafType_of_holdsOfTaken
    apply holdsOfTaken_of_encodePieces _ type member
    intro values pieces same encoded
    apply all values (assemble (headLengths types) pieces)
    rw [encode, if_neg (not_not_intro same), encoded]
    rfl
  · intro each values bytes encoded
    obtain ⟨-, pieces, parts, -⟩ := encode_eq_ok encoded
    have eachType := allLeafTypes_iff.mp each
    exact allLeaves_of_encodePieces
      (fun type member => holdsOfTaken_of_eachLeafType (eachType type member)) parts

/-! The integers of leaves. -/

/-- An integer has room in the width that its type names. -/
def FitsWidth : AbiType → Json → Prop
  | .uint bits, value => 0 ≤ integerOf value ∧ integerOf value < 2 ^ bits
  | .int bits, value => -2 ^ (bits - 1) ≤ integerOf value ∧ integerOf value < 2 ^ (bits - 1)
  | _, _ => True

def MagnitudeFits : AbiType → Json → Prop
  | .uint _, value => 0 ≤ integerOf value ∧ integerOf value < Word.limit
  | .int _, value => -(Word.limit : Int) < integerOf value ∧ integerOf value < Word.limit
  | _, _ => True

theorem magnitude_of_signedOf {value : Json} {word : Nat} (read : signedOf value = .ok word) :
    -(Word.limit : Int) < integerOf value ∧ integerOf value < Word.limit := by
  obtain ⟨negative, n, small, -, denoted⟩ := exists_signed_of_signedOf read
  rw [denoted]
  split
  · omega
  · omega

theorem holdsOfTaken_magnitudeFits (type : AbiType) : HoldsOfTaken MagnitudeFits type := by
  intro value bytes encoded
  cases type with
  | uint bits =>
      obtain ⟨n, read, -⟩ := map_eq_ok.mp encoded
      obtain ⟨denoted, small⟩ := unsignedOf_eq_ok read
      rw [MagnitudeFits, denoted]
      omega
  | int bits =>
      obtain ⟨word, read, -⟩ := map_eq_ok.mp encoded
      exact magnitude_of_signedOf read
  | _ => trivial

theorem holdsOfTaken_fitsWidth_uint {bits : Nat} :
    HoldsOfTaken FitsWidth (.uint bits) ↔ 256 ≤ bits := by
  constructor
  · intro all
    by_contra narrow
    have small : 2 ^ bits < Word.limit :=
      Nat.pow_lt_pow_right (by decide) (Nat.not_le.mp narrow)
    have fits := all _ _ (map_eq_ok.mpr ⟨_, unsignedOf_natJson small, rfl⟩)
    rw [FitsWidth, integerOf_natJson small] at fits
    norm_cast at fits
    omega
  · intro wide value bytes encoded
    obtain ⟨least, small⟩ := holdsOfTaken_magnitudeFits _ _ _ encoded
    have room : Word.limit ≤ 2 ^ bits := Nat.pow_le_pow_right (by decide) wide
    zify at room
    exact ⟨least, small.trans_le room⟩

theorem holdsOfTaken_fitsWidth_int {bits : Nat} :
    HoldsOfTaken FitsWidth (.int bits) ↔ 256 < bits := by
  constructor
  · intro all
    by_contra narrow
    have small : 2 ^ (bits - 1) < Word.limit :=
      Nat.pow_lt_pow_right (by decide) (by omega)
    have fits := all _ _ (map_eq_ok.mpr ⟨_, signedOf_natJson small, rfl⟩)
    rw [FitsWidth, integerOf_natJson small] at fits
    norm_cast at fits
    omega
  · intro wide value bytes encoded
    obtain ⟨least, greatest⟩ := holdsOfTaken_magnitudeFits _ _ _ encoded
    have room : Word.limit ≤ 2 ^ (bits - 1) := Nat.pow_le_pow_right (by decide) (by omega)
    zify at room
    exact ⟨(Int.neg_le_neg room).trans least.le, greatest.trans_le room⟩

theorem holdsOfTaken_fitsWidth_iff (type : AbiType) :
    HoldsOfTaken FitsWidth type ↔ type.IsWide := by
  cases type with
  | uint bits => exact holdsOfTaken_fitsWidth_uint
  | int bits => exact holdsOfTaken_fitsWidth_int
  | _ => exact iff_of_true (fun _ _ _ => trivial) trivial

/-- The encoder takes an integer only if a word has room for its magnitude, and takes it whatever the
width of its type: integers are sure to have room in their widths just for types whose values have
no integers but unsigned ones of a word's width. A text without digits counts as zero. -/
theorem widths_kept_iff (types : List AbiType) :
    (∀ values bytes, encode types values = .ok bytes → AllLeaves MagnitudeFits types values) ∧
      ((∀ values bytes, encode types values = .ok bytes → AllLeaves FitsWidth types values) ↔
        AllLeafTypes IsWide types) := by
  constructor
  · apply forall_allLeaves_iff.mpr
    apply allLeafTypes_iff.mpr
    exact fun type _ => EachLeafType.of_forall holdsOfTaken_magnitudeFits type
  · rw [forall_allLeaves_iff]
    constructor
    · exact AllLeafTypes.imp fun type => (holdsOfTaken_fitsWidth_iff type).mp
    · exact AllLeafTypes.imp fun type => (holdsOfTaken_fitsWidth_iff type).mpr

theorem widths_kept_of_words :
    ∀ values bytes, encode [.array (.tuple [.uint 256, .bytes]), .fixedArray (.int 8) 0] values =
      .ok bytes →
      AllLeaves FitsWidth [.array (.tuple [.uint 256, .bytes]), .fixedArray (.int 8) 0] values := by
  apply (widths_kept_iff _).2.mpr
  simp [AllLeafTypes, EachLeafType, IsWide]

def half : String :=
  "57896044618658097711785492504343953926634992332820282019728792003956564819968"

set_option maxRecDepth 8000 in
theorem widths_not_kept :
    (encode [.uint 8] [.string "256"] = .ok (Word.bytes 256) ∧
      ¬AllLeaves FitsWidth [.uint 8] [.string "256"]) ∧
    (encode [.int 256] [.string half] = encode [.int 256] [.string ("-" ++ half)] ∧
      ¬AllLeaves FitsWidth [.int 256] [.string half]) := by
  have denoted : integerOf (.string "256") = 256 := rfl
  have denotedHalf : integerOf (.string half) = 2 ^ 255 := rfl
  refine ⟨⟨rfl, ?_⟩, rfl, ?_⟩
  · simp [AllLeaves, EachLeaf, FitsWidth, denoted]
  · simp [AllLeaves, EachLeaf, FitsWidth, denotedHalf]

end Abi

end Rehearsal
