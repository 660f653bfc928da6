import Rehearsal.Proofs.Abi.Layout
import Rehearsal.Proofs.Abi.Placement

namespace Rehearsal

/-! Where everything stands in encoded values. The heads of a tuple's components come first and the
encodings of the dynamic ones behind them, without gaps; a static component is its own head, and the
head of a dynamic one is the position of its encoding. The encoder writes positions before it has
written what stands there, so all of this rests on heads being as long as the types say. -/

namespace Abi

/-- A component of a tuple, with its head and the octets that it is encoded as. -/
structure Component where
  type : AbiType
  value : Json
  head : List UInt8
  own : List UInt8

def Component.tail (c : Component) : List UInt8 :=
  if c.type.isDynamic then c.own else []

theorem Component.tail_of_static {c : Component} (static : c.type.isDynamic = false) :
    c.tail = [] := by
  rw [tail, static]
  rfl

theorem Component.tail_of_dynamic {c : Component} (dynamic : c.type.isDynamic = true) :
    c.tail = c.own := by
  rw [tail, dynamic]
  rfl

def headOf (components : List Component) : List UInt8 :=
  components.flatMap Component.head

def tailOf (components : List Component) : List UInt8 :=
  components.flatMap Component.tail

/-- Octets are a tuple of components. Positions are counted from the first of the octets. -/
structure Tuple (components : List Component) (bytes : List UInt8) : Prop where
  whole : bytes = headOf components ++ tailOf components
  aligned : 32 ∣ bytes.length
  length_head : (headOf components).length = AbiType.headLengths (components.map Component.type)
  encodes : ∀ c ∈ components, encodeValue c.type c.value = .ok c.own
  static : ∀ c ∈ components, c.type.isDynamic = false →
    c.head = c.own ∧ c.own.length = c.type.headLength
  dynamic : ∀ before c behind, components = before ++ c :: behind → c.type.isDynamic = true →
    c.head = Word.bytes ((headOf components).length + (tailOf before).length) ∧
      StandsAt bytes ((headOf components).length + (tailOf before).length) c.own

/-- Octets are laid out as a value of a type: composite values as tuples of their components, which
are laid out in their turn, behind the number of items where the type does not tell it. -/
inductive LaidOut : AbiType → Json → List UInt8 → Prop where
  | elementary {type : AbiType} {value : Json} {bytes : List UInt8}
      (elementary : type.IsElementary) (aligned : 32 ∣ bytes.length)
      (word : type.isDynamic = false → bytes.length = 32) : LaidOut type value bytes
  | array {item : AbiType} {components : List Component} {bytes : List UInt8}
      (items : ∀ c ∈ components, c.type = item) (tuple : Tuple components bytes)
      (inside : ∀ c ∈ components, LaidOut c.type c.value c.own) :
      LaidOut (.array item) (.array (components.map Component.value))
        (Word.bytes components.length ++ bytes)
  | fixedArray {item : AbiType} {components : List Component} {bytes : List UInt8}
      (items : ∀ c ∈ components, c.type = item) (tuple : Tuple components bytes)
      (inside : ∀ c ∈ components, LaidOut c.type c.value c.own) :
      LaidOut (.fixedArray item components.length) (.array (components.map Component.value)) bytes
  | tuple {components : List Component} {bytes : List UInt8}
      (tuple : Tuple components bytes)
      (inside : ∀ c ∈ components, LaidOut c.type c.value c.own) :
      LaidOut (.tuple (components.map Component.type))
        (.array (components.map Component.value)) bytes

/-! A static value takes the head length of its type, wherever it is laid out. -/

theorem tailOf_of_static {components : List Component}
    (static : ∀ c ∈ components, c.type.isDynamic = false) : tailOf components = [] := by
  apply List.flatMap_eq_nil_iff.mpr
  intro c member
  exact Component.tail_of_static (static c member)

theorem Tuple.length_of_static {components : List Component} {bytes : List UInt8}
    (tuple : Tuple components bytes) (static : ∀ c ∈ components, c.type.isDynamic = false) :
    bytes.length = AbiType.headLengths (components.map Component.type) := by
  rw [tuple.whole, tailOf_of_static static, List.append_nil, tuple.length_head]

theorem items_of_map_type {item : AbiType} {components : List Component} {count : Nat}
    (types_eq : components.map Component.type = List.replicate count item) :
    ∀ c ∈ components, c.type = item := by
  intro c member
  apply List.eq_of_mem_replicate
  rw [← types_eq]
  exact List.mem_map_of_mem member

theorem map_type_of_items {item : AbiType} {components : List Component}
    (items : ∀ c ∈ components, c.type = item) :
    components.map Component.type = List.replicate components.length item := by
  rw [List.eq_replicate_iff, List.length_map]
  refine ⟨rfl, ?_⟩
  intro type member
  obtain ⟨c, inComponents, rfl⟩ := List.mem_map.mp member
  exact items c inComponents

namespace LaidOut

variable {type : AbiType} {value : Json} {bytes : List UInt8}

theorem aligned (laidOut : LaidOut type value bytes) : 32 ∣ bytes.length := by
  cases laidOut with
  | elementary elementary aligned word => exact aligned
  | array items tuple inside =>
      rw [List.length_append, length_bytes]
      exact Nat.dvd_add ⟨1, rfl⟩ tuple.aligned
  | fixedArray items tuple inside => exact tuple.aligned
  | tuple tuple inside => exact tuple.aligned

theorem of_word (elementary : type.IsElementary) (word : bytes.length = 32) :
    LaidOut type value bytes :=
  .elementary elementary (by rw [word]) fun _ => word

theorem length_of_static (laidOut : LaidOut type value bytes)
    (static : type.isDynamic = false) : bytes.length = type.headLength := by
  cases laidOut with
  | elementary elementary aligned word =>
      rw [word static, AbiType.headLength_of_isElementary elementary]
  | array items tuple inside => contradiction
  | @fixedArray item components _ items tuple inside =>
      have itemStatic : item.isDynamic = false := static
      rw [tuple.length_of_static fun c member => items c member ▸ itemStatic,
        map_type_of_items items, AbiType.headLengths_replicate, AbiType.headLength, itemStatic]
      rfl
  | @tuple components _ tuple inside =>
      have noneDynamic : AbiType.anyDynamic (components.map Component.type) = false := static
      rw [tuple.length_of_static, AbiType.headLength, noneDynamic]
      · rfl
      · intro c member
        exact AbiType.anyDynamic_eq_false.mp noneDynamic c.type (List.mem_map_of_mem member)

end LaidOut

/-! The components of encoded values. -/

def HeadsFrom : (position : Nat) → List Component → Prop
  | _, [] => True
  | position, c :: rest =>
      c.head = (if c.type.isDynamic then Word.bytes position else c.own) ∧
        HeadsFrom (position + c.tail.length) rest

theorem HeadsFrom.head_eq {position : Nat} {before behind : List Component} {c : Component}
    (heads : HeadsFrom position (before ++ c :: behind)) :
    c.head = if c.type.isDynamic then Word.bytes (position + (tailOf before).length) else c.own := by
  induction before generalizing position with
  | nil => exact heads.1
  | cons first before ih =>
      rw [ih heads.2, tailOf, tailOf, List.flatMap_cons, List.length_append, Nat.add_assoc]

def Component.at (position : Nat) (type : AbiType) (value : Json) (own : List UInt8) :
    Component where
  type := type
  value := value
  head := if type.isDynamic then Word.bytes position else own
  own := own

variable {position : Nat} {type : AbiType} {value : Json} {own : List UInt8}

theorem heads_of (rest : List Piece) :
    heads position (Piece.of type own :: rest) =
      (Component.at position type value own).head ++
        heads (position + (Component.at position type value own).tail.length) rest := by
  cases dynamic : type.isDynamic with
  | false => simp [Piece.of, heads, Component.at, Component.tail, dynamic]
  | true => simp [Piece.of, heads, Component.at, Component.tail, dynamic]

theorem tails_of (rest : List Piece) :
    tails (Piece.of type own :: rest) =
      (Component.at position type value own).tail ++ tails rest := by
  cases dynamic : type.isDynamic with
  | false => simp [Piece.of, tails, Component.at, Component.tail, dynamic]
  | true => simp [Piece.of, tails, Component.at, Component.tail, dynamic]

structure Encodes (position : Nat) (types : List AbiType) (values : List Json)
    (pieces : List Piece) (components : List Component) : Prop where
  types_eq : components.map Component.type = types
  values_eq : components.map Component.value = values
  heads_eq : heads position pieces = headOf components
  tails_eq : tails pieces = tailOf components
  encodes : ∀ c ∈ components, encodeValue c.type c.value = .ok c.own
  headsFrom : HeadsFrom position components

theorem exists_encodes {types : List AbiType} {values : List Json} {pieces : List Piece}
    (same : types.length = values.length) (encoded : encodePieces types values = .ok pieces)
    (position : Nat) : ∃ components, Encodes position types values pieces components := by
  induction types generalizing values pieces position with
  | nil =>
      cases encoded
      obtain rfl := List.length_eq_zero_iff.mp same.symm
      exact ⟨[], rfl, rfl, rfl, rfl, fun c member => absurd member List.not_mem_nil, trivial⟩
  | cons type types ih =>
      cases values with
      | nil => simp at same
      | cons value values =>
          obtain ⟨own, rest, first, others, rfl⟩ := encodePieces_cons encoded
          let c := Component.at position type value own
          obtain ⟨components, behind⟩ :=
            ih (Nat.succ.inj same) others (position + c.tail.length)
          refine ⟨c :: components, ?_⟩
          constructor
          · rw [List.map_cons, behind.types_eq]
            rfl
          · rw [List.map_cons, behind.values_eq]
            rfl
          · rw [heads_of, behind.heads_eq]
            rfl
          · rw [tails_of, behind.tails_eq]
            rfl
          · exact List.forall_mem_cons.mpr ⟨first, behind.encodes⟩
          · exact ⟨rfl, behind.headsFrom⟩

/-! The encoder lays its values out. -/

theorem allLeaves_components {p : AbiType → Json → Prop} {components : List Component} :
    AllLeaves p (components.map Component.type) (components.map Component.value) ↔
      ∀ c ∈ components, EachLeaf p c.type c.value := by
  induction components with
  | nil => simp [AllLeaves]
  | cons c components ih => simp [AllLeaves, ih]

def LaysOut (type : AbiType) : Prop :=
  ∀ value bytes, EachLeaf OctetsFitWord type value → encodeValue type value = .ok bytes →
    LaidOut type value bytes

theorem length_headOf {components : List Component}
    (each : ∀ c ∈ components, c.head.length = c.type.headLength) :
    (headOf components).length = AbiType.headLengths (components.map Component.type) := by
  induction components with
  | nil => rfl
  | cons c components ih =>
      obtain ⟨first, others⟩ := List.forall_mem_cons.mp each
      rw [headOf, List.flatMap_cons, List.length_append, first, List.map_cons,
        AbiType.headLengths, ← headOf, ih others]

theorem dvd_length_tailOf {components : List Component}
    (each : ∀ c ∈ components, 32 ∣ c.own.length) : 32 ∣ (tailOf components).length := by
  induction components with
  | nil => exact ⟨0, rfl⟩
  | cons c components ih =>
      obtain ⟨first, others⟩ := List.forall_mem_cons.mp each
      rw [tailOf, List.flatMap_cons, List.length_append, ← tailOf]
      apply Nat.dvd_add _ (ih others)
      rw [Component.tail]
      split
      · exact first
      · exact ⟨0, rfl⟩

theorem standsAt_tail {before behind : List Component} {c : Component}
    (dynamic : c.type.isDynamic = true) (head : List UInt8) :
    StandsAt (head ++ tailOf (before ++ c :: behind)) (head.length + (tailOf before).length)
      c.own := by
  have whole : head ++ tailOf (before ++ c :: behind) =
      head ++ (tailOf before ++ (c.own ++ tailOf behind)) := by
    rw [tailOf, List.flatMap_append, List.flatMap_cons, Component.tail_of_dynamic dynamic]
    rfl
  rw [whole]
  obtain ⟨-, inTail⟩ := standsAt_append.mp (standsAt_self _)
  obtain ⟨-, behindBefore⟩ := standsAt_append.mp inTail
  rw [Nat.zero_add] at behindBefore
  exact (standsAt_append.mp behindBefore).1

theorem dvd_length_counted (bytes : List UInt8) : 32 ∣ (counted bytes).length := by
  rw [counted, padded, List.length_append, List.length_append, List.length_replicate, length_bytes]
  omega

/-! Components that are laid out make a tuple, with the positions that the heads give. -/

namespace Encodes

variable {types : List AbiType} {values : List Json} {pieces : List Piece}
  {components : List Component}

theorem head_eq (written : Encodes position types values pieces components)
    {before behind : List Component} {c : Component} (split : components = before ++ c :: behind) :
    c.head =
      if c.type.isDynamic then Word.bytes (position + (tailOf before).length) else c.own := by
  have heads := written.headsFrom
  rw [split] at heads
  exact heads.head_eq

theorem head_of_static (written : Encodes position types values pieces components) {c : Component}
    (member : c ∈ components) (static : c.type.isDynamic = false) : c.head = c.own := by
  obtain ⟨before, behind, split⟩ := List.append_of_mem member
  rw [written.head_eq split, static]
  rfl

theorem head_of_dynamic (written : Encodes position types values pieces components)
    {before behind : List Component} {c : Component} (split : components = before ++ c :: behind)
    (dynamic : c.type.isDynamic = true) :
    c.head = Word.bytes (position + (tailOf before).length) := by
  rw [written.head_eq split, dynamic]
  rfl

theorem length_head (written : Encodes position types values pieces components)
    (inside : ∀ c ∈ components, LaidOut c.type c.value c.own) :
    (headOf components).length = AbiType.headLengths (components.map Component.type) := by
  apply length_headOf
  intro c member
  cases dynamic : c.type.isDynamic with
  | false => rw [written.head_of_static member dynamic, (inside c member).length_of_static dynamic]
  | true =>
      obtain ⟨before, behind, split⟩ := List.append_of_mem member
      rw [written.head_of_dynamic split dynamic, AbiType.headLength_of_isDynamic dynamic]
      exact length_bytes _

theorem tuple (written : Encodes (AbiType.headLengths types) types values pieces components)
    (inside : ∀ c ∈ components, LaidOut c.type c.value c.own) :
    Tuple components (assemble (AbiType.headLengths types) pieces) := by
  have length := written.length_head inside
  rw [assemble, written.heads_eq, written.tails_eq]
  constructor
  case whole => rfl
  case aligned =>
    rw [List.length_append, length]
    exact Nat.dvd_add (AbiType.dvd_headLengths fun type _ => AbiType.dvd_headLength type)
      (dvd_length_tailOf fun c member => (inside c member).aligned)
  case length_head => exact length
  case encodes => exact written.encodes
  case static =>
    intro c member static
    exact ⟨written.head_of_static member static, (inside c member).length_of_static static⟩
  case dynamic =>
    intro before c behind split dynamic
    rw [written.head_of_dynamic split dynamic, length, written.types_eq, split]
    refine ⟨rfl, ?_⟩
    rw [← written.types_eq, ← length, split]
    exact standsAt_tail dynamic _

end Encodes

theorem exists_tuple {types : List AbiType} {values : List Json} {pieces : List Piece}
    (each : ∀ type ∈ types, LaysOut type) (same : types.length = values.length)
    (fits : AllLeaves OctetsFitWord types values)
    (encoded : encodePieces types values = .ok pieces) :
    ∃ components, components.map Component.type = types ∧
      components.map Component.value = values ∧
      Tuple components (assemble (AbiType.headLengths types) pieces) ∧
      ∀ c ∈ components, LaidOut c.type c.value c.own := by
  obtain ⟨components, written⟩ := exists_encodes same encoded (AbiType.headLengths types)
  have types_eq := written.types_eq
  have values_eq := written.values_eq
  have inside : ∀ c ∈ components, LaidOut c.type c.value c.own := by
    intro c member
    rw [← types_eq, ← values_eq] at fits
    apply each c.type
    · rw [← types_eq]
      exact List.mem_map_of_mem member
    · exact allLeaves_components.mp fits c member
    · exact written.encodes c member
  exact ⟨components, types_eq, values_eq, written.tuple inside, inside⟩

theorem exists_tuple_items {item : AbiType} {values : List Json} {pieces : List Piece}
    (lays : LaysOut item)
    (encoded : encodePieces (List.replicate values.length item) values = .ok pieces)
    (fits : ∀ v ∈ values, EachLeaf OctetsFitWord item v) :
    ∃ components, (∀ c ∈ components, c.type = item) ∧ components.map Component.value = values ∧
      Tuple components
        (assemble (AbiType.headLengths (List.replicate values.length item)) pieces) ∧
      ∀ c ∈ components, LaidOut c.type c.value c.own := by
  have each : ∀ type ∈ List.replicate values.length item, LaysOut type :=
    fun type member => List.eq_of_mem_replicate member ▸ lays
  obtain ⟨components, types_eq, values_eq, tuple, inside⟩ :=
    exists_tuple each List.length_replicate (allLeaves_replicate.mpr fits) encoded
  exact ⟨components, items_of_map_type types_eq, values_eq, tuple, inside⟩

theorem laysOut_of_isElementary {type : AbiType} (elementary : type.IsElementary)
    (static : type.isDynamic = false) : LaysOut type := by
  intro value bytes fits encoded
  exact .of_word elementary (length_of_isElementary elementary static fits encoded)

theorem laysOut (type : AbiType) : LaysOut type := by
  induction type with
  | string =>
      intro value bytes _ encoded
      obtain rfl := Except.ok.inj encoded
      exact .elementary trivial (dvd_length_counted _) (fun static => by contradiction)
  | bytes =>
      intro value bytes _ encoded
      obtain ⟨octets, _, rfl⟩ := map_eq_ok.mp encoded
      exact .elementary trivial (dvd_length_counted octets) (fun static => by contradiction)
  | address => exact laysOut_of_isElementary trivial rfl
  | uint bits => exact laysOut_of_isElementary trivial rfl
  | int bits => exact laysOut_of_isElementary trivial rfl
  | bool => exact laysOut_of_isElementary trivial rfl
  | fixedBytes size => exact laysOut_of_isElementary trivial rfl
  | array item ih =>
      intro value bytes fits encoded
      obtain ⟨values, pieces, rfl, each, whole⟩ := encodeValue_array encoded
      obtain ⟨components, items, rfl, tuple, inside⟩ := exists_tuple_items ih each fits
      rw [List.length_map] at tuple whole
      rw [whole]
      exact .array items tuple inside
  | fixedArray item count ih =>
      intro value bytes fits encoded
      obtain ⟨values, pieces, rfl, rfl, each, rfl⟩ := encodeValue_fixedArray encoded
      obtain ⟨components, items, rfl, tuple, inside⟩ := exists_tuple_items ih each fits
      rw [List.length_map] at tuple ⊢
      exact .fixedArray items tuple inside
  | tuple types ih =>
      intro value bytes fits encoded
      obtain ⟨values, pieces, rfl, same, each, rfl⟩ := encodeValue_tuple encoded
      obtain ⟨components, rfl, rfl, tuple, inside⟩ := exists_tuple ih same fits each
      exact .tuple tuple inside

/-- Encoded values are a tuple of components, one for each type and its value, and what each of them
is encoded as is laid out in the same way at every depth. With types that are read from declarations,
octets of a fixed number always fit into a word, see `allLeaves_octetsFitWord`. -/
theorem encode_laidOut {types : List AbiType} {values : List Json} {bytes : List UInt8}
    (fits : AllLeaves OctetsFitWord types values) (encoded : encode types values = .ok bytes) :
    ∃ components, components.map Component.type = types ∧
      components.map Component.value = values ∧ Tuple components bytes ∧
      ∀ c ∈ components, LaidOut c.type c.value c.own := by
  obtain ⟨same, pieces, each, rfl⟩ := encode_eq_ok encoded
  exact exists_tuple (fun type _ => laysOut type) same fits each

theorem allLeaves_octetsFitWord {types : List AbiType}
    (fitsWord : AbiType.AllEverywhere AbiType.FitsWord types) (values : List Json) :
    AllLeaves OctetsFitWord types values :=
  allLeaves_of_forall (fun type member =>
    eachLeaf_octetsFitWord (AbiType.allEverywhere_iff.mp fitsWord type member)) values

def shelfTypes : List AbiType :=
  [.uint 8, .array (.tuple [.bool, .bytes]), .fixedArray (.fixedBytes 2) 2]

def shelfValues : List Json :=
  [.string "7", .array [.array [.bool true, .string "0xab"]],
    .array [.string "0x0102", .string "0x"]]

set_option maxRecDepth 4000 in
theorem encode_laidOut_of_shelf :
    ∃ bytes, encode shelfTypes shelfValues = .ok bytes ∧ bytes.length = 320 ∧
      ∃ components, components.map Component.type = shelfTypes ∧
        components.map Component.value = shelfValues ∧ Tuple components bytes ∧
        ∀ c ∈ components, LaidOut c.type c.value c.own := by
  have length : (encode shelfTypes shelfValues).map List.length = .ok 320 := rfl
  obtain ⟨bytes, encoded, long⟩ := Except.map_eq_ok.mp length
  have fitsWord : AbiType.AllEverywhere AbiType.FitsWord shelfTypes := by
    simp [shelfTypes, AbiType.AllEverywhere, AbiType.Everywhere, AbiType.FitsWord]
  exact ⟨bytes, encoded, long,
    encode_laidOut (allLeaves_octetsFitWord fitsWord shelfValues) encoded⟩

end Abi

end Rehearsal
