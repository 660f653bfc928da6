import Rehearsal.Proofs.Abi.RoundTrip

namespace Rehearsal.Abi

/-! Decoding what was encoded, for arrays of any items. Before the items of an array are read, the
data has to go on for one word for each of them. Items that take no room in the head break this: the
encoder writes nothing for them, so their array is refused unless enough of something else stands
behind it. Nothing else in encoded data is ever refused. -/

/-- An array in data: the type of its items, where its count stands, and what the count says. -/
structure ArrayAt where
  item : AbiType
  start : Nat
  count : Nat
  deriving Repr

/-- Data of a length ends before it has gone on for a word for each item. -/
def ArrayAt.crowded (length : Nat) (a : ArrayAt) : Bool :=
  length < a.start + 32 + a.count * 32

def ArrayAt.fault (length : Nat) (a : ArrayAt) : Fault :=
  if greatestPosition < a.count then .outOfRange a.count
  else .insufficientData (a.start + 32 + a.count * 32) length

/-- How many octets an encoded value takes in the tail. -/
def extent (type : AbiType) (value : Json) : Nat :=
  match encodeValue type value with
  | .ok bytes => if type.isDynamic then bytes.length else 0
  | .error _ => 0

def arraysMany (one : Json → (start : Nat) → List ArrayAt) (extent : Json → Nat) :
    List Json → (start : Nat) → List ArrayAt
  | [], _ => []
  | value :: values, start =>
      one value start ++ arraysMany one extent values (start + extent value)

mutual

/-- The arrays in a value that is encoded at `start`, in the order in which they are decoded. -/
def arraysOf : AbiType → Json → (start : Nat) → List ArrayAt
  | .array item, value, start =>
      let values := value.array?.getD []
      ⟨item, start, values.length % Word.limit⟩ :: arraysMany (arraysOf item) (extent item) values
        (start + 32 + item.headLength * values.length)
  | .fixedArray item _, value, start =>
      let values := value.array?.getD []
      arraysMany (arraysOf item) (extent item) values (start + item.headLength * values.length)
  | .tuple types, value, start =>
      arraysEach types (value.array?.getD []) (start + AbiType.headLengths types)
  | _, _, _ => []

def arraysEach : List AbiType → List Json → (start : Nat) → List ArrayAt
  | type :: types, value :: values, start =>
      arraysOf type value start ++ arraysEach types values (start + extent type value)
  | _, _, _ => []

end

def arraysIn (types : List AbiType) (values : List Json) : List ArrayAt :=
  arraysEach types values (AbiType.headLengths types)

theorem arraysMany_eq_arraysEach (item : AbiType) (values : List Json) (start : Nat) :
    arraysMany (arraysOf item) (extent item) values start =
      arraysEach (List.replicate values.length item) values start := by
  induction values generalizing start with
  | nil => rfl
  | cons value values ih => rw [List.length_cons, List.replicate_succ, arraysMany, arraysEach, ih]

/-! Values in the head have no arrays. -/

theorem arraysEach_of_static {types : List AbiType}
    (each : ∀ type ∈ types, ∀ value start, arraysOf type value start = [])
    (values : List Json) (start : Nat) : arraysEach types values start = [] := by
  induction types generalizing values start with
  | nil => rfl
  | cons type types ih =>
      obtain ⟨first, others⟩ := List.forall_mem_cons.mp each
      cases values with
      | nil => rfl
      | cons value values => rw [arraysEach, first, ih others, List.nil_append]

theorem arraysOf_of_static {type : AbiType} (static : type.isDynamic = false) (value : Json)
    (start : Nat) : arraysOf type value start = [] := by
  induction type generalizing value start with
  | bytes | string | array item => contradiction
  | fixedArray item count ih =>
      have items := ih static
      rw [arraysOf, arraysMany_eq_arraysEach]
      exact arraysEach_of_static (fun type member => List.eq_of_mem_replicate member ▸ items) _ _
  | tuple types ih =>
      have eachStatic := AbiType.anyDynamic_eq_false.mp static
      rw [arraysOf]
      exact arraysEach_of_static (fun type member => ih type member (eachStatic type member)) _ _
  | _ => rfl

theorem extent_eq {type : AbiType} {value : Json} {bytes : List UInt8}
    (encoded : encodeValue type value = .ok bytes) :
    extent type value = (Piece.of type bytes).extent := by
  simp only [extent, encoded]
  cases dynamic : type.isDynamic with
  | false =>
      rw [Piece.of_static dynamic]
      rfl
  | true =>
      rw [Piece.of_dynamic dynamic]
      rfl

/-! The items of an array have the room that they need. -/

/-- The heads of the items end no later than `stop`. -/
def ArrayAt.EndsBy (stop : Nat) (a : ArrayAt) : Prop :=
  a.start + 32 + a.item.headLength * a.count ≤ stop

theorem ArrayAt.EndsBy.mono {a : ArrayAt} {stop later : Nat} (ends : a.EndsBy stop)
    (behind : stop ≤ later) : a.EndsBy later :=
  Nat.le_trans ends behind

def EndsInside (type : AbiType) : Prop :=
  ∀ value bytes start, encodeValue type value = .ok bytes →
    ∀ a ∈ arraysOf type value start, a.EndsBy (start + bytes.length)

theorem endsBy_arraysEach {types : List AbiType} {values : List Json} {pieces : List Piece}
    {start : Nat} (each : ∀ type ∈ types, EndsInside type)
    (encoded : encodePieces types values = .ok pieces) :
    ∀ a ∈ arraysEach types values start, a.EndsBy (start + (tails pieces).length) := by
  induction types generalizing values pieces start with
  | nil => exact fun a member => absurd member List.not_mem_nil
  | cons type types ih =>
      cases values with
      | nil => exact fun a member => absurd member List.not_mem_nil
      | cons value values =>
          obtain ⟨first, others⟩ := List.forall_mem_cons.mp each
          obtain ⟨bytes, rest, head, tail, rfl⟩ := encodePieces_cons encoded
          intro a member
          rw [arraysEach, extent_eq head] at member
          rw [length_tails_cons]
          rcases List.mem_append.mp member with member | member
          · cases dynamic : type.isDynamic with
            | false =>
                rw [arraysOf_of_static dynamic] at member
                contradiction
            | true =>
                rw [Piece.of_dynamic dynamic]
                apply (first value bytes start head a member).mono
                rw [Piece.extent]
                omega
          · apply (ih others tail a member).mono
            omega

theorem endsBy_assemble {types : List AbiType} {values : List Json} {pieces : List Piece}
    {start : Nat} (keeps : ∀ type ∈ types, KeepsWidth type) (each : ∀ type ∈ types, EndsInside type)
    (same : types.length = values.length) (encoded : encodePieces types values = .ok pieces) :
    ∀ a ∈ arraysEach types values (start + AbiType.headLengths types),
      a.EndsBy (start + (assemble (AbiType.headLengths types) pieces).length) := by
  rw [length_assemble keeps same encoded, ← Nat.add_assoc]
  exact endsBy_arraysEach each encoded

theorem endsBy_items {item : AbiType} {values : List Json} {pieces : List Piece} {start : Nat}
    (keeps : KeepsWidth item) (ends : EndsInside item)
    (encoded : encodePieces (List.replicate values.length item) values = .ok pieces) :
    ∀ a ∈ arraysMany (arraysOf item) (extent item) values (start + item.headLength * values.length),
      a.EndsBy (start +
        (assemble (AbiType.headLengths (List.replicate values.length item)) pieces).length) := by
  have keepsEach : ∀ type ∈ List.replicate values.length item, KeepsWidth type :=
    fun type member => List.eq_of_mem_replicate member ▸ keeps
  have endsEach : ∀ type ∈ List.replicate values.length item, EndsInside type :=
    fun type member => List.eq_of_mem_replicate member ▸ ends
  rw [arraysMany_eq_arraysEach, ← AbiType.headLengths_replicate]
  exact endsBy_assemble keepsEach endsEach List.length_replicate encoded

theorem endsInside_array {item : AbiType} (keeps : KeepsWidth item) (ends : EndsInside item) :
    EndsInside (.array item) := by
  intro value bytes start encoded a member
  obtain ⟨values, pieces, rfl, items, whole⟩ := encodeValue_array encoded
  have keepsEach : ∀ type ∈ List.replicate values.length item, KeepsWidth type :=
    fun type member => List.eq_of_mem_replicate member ▸ keeps
  rw [arraysOf] at member
  simp only [Json.array?, Option.getD_some] at member
  rw [whole, List.length_append, length_bytes, ← Nat.add_assoc]
  rcases List.mem_cons.mp member with rfl | member
  · rw [length_assemble keepsEach List.length_replicate items, AbiType.headLengths_replicate]
    have counted := Nat.mul_le_mul_left item.headLength (Nat.mod_le values.length Word.limit)
    change start + 32 + item.headLength * (values.length % Word.limit) ≤ _
    omega
  · exact endsBy_items keeps ends items a member

theorem endsInside (type : AbiType) (fitsWord : type.Everywhere AbiType.FitsWord) :
    EndsInside type := by
  induction type with
  | array item ih => exact endsInside_array (keepsWidth item fitsWord.2) (ih fitsWord.2)
  | fixedArray item count ih =>
      intro value bytes start encoded
      obtain ⟨values, pieces, rfl, rfl, items, rfl⟩ := encodeValue_fixedArray encoded
      rw [arraysOf]
      exact endsBy_items (keepsWidth item fitsWord.2) (ih fitsWord.2) items
  | tuple types ih =>
      intro value bytes start encoded
      obtain ⟨values, pieces, rfl, same, parts, rfl⟩ := encodeValue_tuple encoded
      have eachFits := AbiType.allEverywhere_iff.mp fitsWord.2
      rw [arraysOf]
      exact endsBy_assemble (fun type member => keepsWidth type (eachFits type member))
        (fun type member => ih type member (eachFits type member)) same parts
  | _ => exact fun value bytes start encoded a member => absurd member List.not_mem_nil

/-! Values that take no room in the head are read from anything, and no octet of it. -/

def ReadsNothing (data : List UInt8) (type : AbiType) : Prop :=
  ∀ base position, ∃ value, decodeValue data type base position = .ok (value, 0)

theorem exists_decodeEach {data : List UInt8} {types : List AbiType}
    (each : ∀ type ∈ types, ReadsNothing data type) (base position : Nat) :
    ∃ values, decodeEach data types base position = .ok values := by
  induction types generalizing position with
  | nil => exact ⟨[], rfl⟩
  | cons type types ih =>
      obtain ⟨head, tail⟩ := List.forall_mem_cons.mp each
      obtain ⟨value, first⟩ := head base position
      obtain ⟨values, others⟩ := ih tail position
      refine ⟨value :: values, ?_⟩
      rw [decodeEach, first, ok_bind]
      simp only [Nat.add_zero]
      rw [others]
      rfl

theorem isDynamic_of_roomless {type : AbiType} (roomless : type.headLength = 0) :
    type.isDynamic = false := by
  by_contra dynamic
  rw [AbiType.headLength_of_isDynamic (Bool.eq_true_of_not_eq_false dynamic)] at roomless
  contradiction

theorem headLength_of_mem {types : List AbiType} (roomless : AbiType.headLengths types = 0) :
    ∀ type ∈ types, type.headLength = 0 := by
  induction types with
  | nil => exact fun type member => absurd member List.not_mem_nil
  | cons type types ih =>
      rw [AbiType.headLengths] at roomless
      exact List.forall_mem_cons.mpr ⟨by omega, ih (by omega)⟩

theorem readsNothing {type : AbiType} (roomless : type.headLength = 0) (data : List UInt8) :
    ReadsNothing data type := by
  induction type with
  | fixedArray item count ih =>
      intro base position
      have wholeStatic := isDynamic_of_roomless roomless
      have static : item.isDynamic = false := wholeStatic
      rw [AbiType.headLength, static, if_neg Bool.false_ne_true] at roomless
      have each : ∀ type ∈ List.replicate count item, ReadsNothing data type := by
        intro type member
        obtain ⟨some, rfl⟩ := List.mem_replicate.mp member
        exact ih ((Nat.mul_eq_zero.mp roomless).resolve_right some)
      obtain ⟨values, read⟩ := exists_decodeEach each position position
      refine ⟨.array values, ?_⟩
      simp only [decodeValue, static, Bool.false_eq_true, if_false, decodeMany_eq_decodeEach]
      rw [read, ok_bind, roomless]
      rfl
  | tuple types ih =>
      intro base position
      have static : AbiType.anyDynamic types = false := isDynamic_of_roomless roomless
      rw [AbiType.headLength, static, if_neg Bool.false_ne_true] at roomless
      have each : ∀ type ∈ types, ReadsNothing data type :=
        fun type member => ih type member (headLength_of_mem roomless type member)
      obtain ⟨values, read⟩ := exists_decodeEach each position position
      refine ⟨.array values, ?_⟩
      simp only [decodeValue, static, Bool.false_eq_true, if_false]
      rw [read, ok_bind, roomless]
      rfl
  | _ => contradiction

/-! How decoding what was encoded ends. -/

/-- A result is the fault of the first array that is crowded in data of a length, and a value when no
array is. -/
def SettledBy {α : Type} (arrays : List ArrayAt) (length : Nat) (x : Result α) : Prop :=
  match arrays.find? (ArrayAt.crowded length) with
  | none => ∃ a, x = .ok a
  | some a => x = .error (a.fault length)

namespace SettledBy

variable {α β : Type} {arrays first rest : List ArrayAt} {length : Nat} {x : Result α}
  {f : α → Result β}

theorem of_ok (succeeds : ∃ a, x = .ok a) : SettledBy [] length x :=
  succeeds

theorem bind (settled : SettledBy first length x)
    (others : ∀ a, x = .ok a → SettledBy rest length (f a)) :
    SettledBy (first ++ rest) length (x >>= f) := by
  unfold SettledBy at settled ⊢
  rw [List.find?_append]
  cases found : first.find? (ArrayAt.crowded length) with
  | some a =>
      rw [found] at settled
      simp only at settled
      rw [settled]
      rfl
  | none =>
      rw [found] at settled
      obtain ⟨a, rfl⟩ := settled
      exact others a rfl

theorem andThen (settled : SettledBy arrays length x) (succeeds : ∀ a, ∃ b, f a = .ok b) :
    SettledBy arrays length (x >>= f) := by
  rw [← List.append_nil arrays]
  exact settled.bind fun a _ => of_ok (succeeds a)

theorem cons_of_not_crowded {a : ArrayAt} (settled : SettledBy arrays length x)
    (roomy : a.crowded length = false) : SettledBy (a :: arrays) length x := by
  unfold SettledBy
  rw [List.find?_cons, roomy]
  exact settled

theorem of_crowded {a : ArrayAt} (crowded : a.crowded length = true)
    (fails : x = .error (a.fault length)) : SettledBy (a :: arrays) length x := by
  unfold SettledBy
  rw [List.find?_cons, crowded]
  exact fails

end SettledBy

/-- Wherever an encoded value of a type lies, its arrays decide how decoding it ends. -/
def Settles (type : AbiType) : Prop :=
  ∀ data value bytes base position tail, encodeValue type value = .ok bytes →
    data.length ≤ greatestPosition → (Piece.of type bytes).LiesAt data base position tail →
    SettledBy (arraysOf type value (base + tail)) data.length
      (decodeValue data type base position)

theorem settledBy_of_lieAt {data : List UInt8} {types : List AbiType} {values : List Json}
    {pieces : List Piece} {base position tail : Nat}
    (keeps : ∀ type ∈ types, KeepsWidth type) (settles : ∀ type ∈ types, Settles type)
    (same : types.length = values.length) (encoded : encodePieces types values = .ok pieces)
    (small : data.length ≤ greatestPosition) (lie : LieAt data base position tail pieces) :
    SettledBy (arraysEach types values (base + tail)) data.length
      (decodeEach data types base position) := by
  induction types generalizing values pieces position tail with
  | nil => exact .of_ok ⟨[], rfl⟩
  | cons type types ih =>
      cases values with
      | nil => simp at same
      | cons value values =>
          obtain ⟨bytes, rest, head, others, rfl⟩ := encodePieces_cons encoded
          obtain ⟨lies, lieBehind⟩ := lie.cons
          obtain ⟨keepsFirst, keepsOthers⟩ := List.forall_mem_cons.mp keeps
          obtain ⟨settlesFirst, settlesOthers⟩ := List.forall_mem_cons.mp settles
          rw [keepsFirst value bytes head, ← extent_eq head] at lieBehind
          rw [arraysEach, decodeEach, Nat.add_assoc]
          apply SettledBy.bind (settlesFirst data value bytes base position tail head small lies)
          rintro ⟨read, length⟩ first
          rw [headLength_of_decodeValue first]
          have settled := ih keepsOthers settlesOthers (Nat.succ.inj same) others lieBehind
          exact settled.andThen fun values => ⟨read :: values, rfl⟩

theorem settledBy_of_standsAt {data : List UInt8} {types : List AbiType} {values : List Json}
    {pieces : List Piece} {start : Nat}
    (keeps : ∀ type ∈ types, KeepsWidth type) (settles : ∀ type ∈ types, Settles type)
    (same : types.length = values.length) (encoded : encodePieces types values = .ok pieces)
    (small : data.length ≤ greatestPosition)
    (stands : StandsAt data start (assemble (AbiType.headLengths types) pieces)) :
    SettledBy (arraysEach types values (start + AbiType.headLengths types)) data.length
      (decodeEach data types start start) :=
  settledBy_of_lieAt keeps settles same encoded small
    (lieAt_assemble small (length_heads_encodePieces keeps same encoded _) stands)

/-! Elementary values are read wherever they lie. -/

theorem settles_of_readsBack {type : AbiType} (reads : ReadsBack type)
    (fits : ∀ value, EachLeaf SignedFits type value)
    (none : ∀ value start, arraysOf type value start = []) : Settles type := by
  intro data value bytes base position tail encoded small lies
  obtain ⟨length, read⟩ :=
    reads data value bytes base position encoded (fits value) small lies.placedAt
  rw [none]
  exact .of_ok ⟨_, read⟩

theorem settles_int (bits : Nat) : Settles (.int bits) := by
  intro data value bytes base position tail encoded small lies
  obtain ⟨word, read, rfl⟩ := map_eq_ok.mp encoded
  rw [decodeValue, wordAt_of_standsAt lies (length_bytes word), ok_bind]
  exact .of_ok ⟨_, rfl⟩

/-! Composite values, by how their components settle. -/

theorem positionAt_bytes {data : List UInt8} {position n : Nat}
    (stands : StandsAt data position (Word.bytes n)) :
    positionAt data position =
      if greatestPosition < n % Word.limit then .error (.outOfRange (n % Word.limit))
      else .ok (n % Word.limit) := by
  rw [positionAt, wordAt_of_standsAt stands (length_bytes n), ok_bind, Word.bytes,
    Word.ofBigEndian_bigEndian]
  rfl

/-- The items of an array or of a fixed array, which stand as a tuple at `start`. -/
theorem settledBy_items {data : List UInt8} {item : AbiType} {values : List Json}
    {pieces : List Piece} {start : Nat} (keeps : KeepsWidth item) (settles : Settles item)
    (encoded : encodePieces (List.replicate values.length item) values = .ok pieces)
    (small : data.length ≤ greatestPosition)
    (stands : StandsAt data start
      (assemble (AbiType.headLengths (List.replicate values.length item)) pieces)) :
    SettledBy
      (arraysMany (arraysOf item) (extent item) values (start + item.headLength * values.length))
      data.length
      (decodeMany (fun position => decodeValue data item start position) values.length start) := by
  have keepsEach : ∀ type ∈ List.replicate values.length item, KeepsWidth type :=
    fun type member => List.eq_of_mem_replicate member ▸ keeps
  have settlesEach : ∀ type ∈ List.replicate values.length item, Settles type :=
    fun type member => List.eq_of_mem_replicate member ▸ settles
  have settled := settledBy_of_standsAt keepsEach settlesEach List.length_replicate encoded small
    stands
  rw [AbiType.headLengths_replicate] at settled
  rw [arraysMany_eq_arraysEach, decodeMany_eq_decodeEach]
  exact settled

/-- Items without room may be more than a word can say. As many as it says are read, from nothing. -/
theorem settledBy_roomless {data : List UInt8} {item : AbiType} (roomless : item.headLength = 0)
    (values : List Json) (tail count start : Nat) :
    SettledBy (arraysMany (arraysOf item) (extent item) values tail) data.length
      (decodeMany (fun position => decodeValue data item start position) count start) := by
  have noArrays : ∀ type ∈ List.replicate values.length item, ∀ value start,
      arraysOf type value start = [] := by
    intro type member
    rw [List.eq_of_mem_replicate member]
    exact arraysOf_of_static (isDynamic_of_roomless roomless)
  have nothing : ∀ type ∈ List.replicate count item, ReadsNothing data type :=
    fun type member => List.eq_of_mem_replicate member ▸ readsNothing roomless data
  rw [arraysMany_eq_arraysEach, arraysEach_of_static noArrays, decodeMany_eq_decodeEach]
  exact .of_ok (exists_decodeEach nothing start start)

theorem length_mod_limit {data : List UInt8} {item : AbiType} {values : List Json}
    {pieces : List Piece} {start : Nat} (room : item.headLength ≠ 0) (keeps : KeepsWidth item)
    (encoded : encodePieces (List.replicate values.length item) values = .ok pieces)
    (small : data.length ≤ greatestPosition)
    (stands : StandsAt data start
      (assemble (AbiType.headLengths (List.replicate values.length item)) pieces)) :
    values.length % Word.limit = values.length := by
  have keepsEach : ∀ type ∈ List.replicate values.length item, KeepsWidth type :=
    fun type member => List.eq_of_mem_replicate member ▸ keeps
  have bound := stands.length_le
  rw [length_assemble keepsEach List.length_replicate encoded,
    AbiType.headLengths_replicate] at bound
  have words := Nat.mul_le_mul_right values.length (AbiType.le_headLength room)
  have limit : greatestPosition < Word.limit := by decide
  exact Nat.mod_eq_of_lt (by omega)

theorem settles_array {item : AbiType} (keeps : KeepsWidth item) (settles : Settles item) :
    Settles (.array item) := by
  intro data value bytes base position tail encoded small lies
  have dynamic : (AbiType.array item).isDynamic = true := rfl
  rw [Piece.of_dynamic dynamic] at lies
  obtain ⟨bound, word, own⟩ := lies
  obtain ⟨values, pieces, rfl, items, whole⟩ := encodeValue_array encoded
  rw [whole] at own
  obtain ⟨count, content⟩ := standsAt_append.mp own
  rw [length_bytes] at content
  rw [arraysOf, decodeValue, positionAt_of_standsAt word bound, ok_bind]
  simp only [Json.array?, Option.getD_some]
  rw [positionAt_bytes count]
  cases crowded : ArrayAt.crowded data.length ⟨item, base + tail, values.length % Word.limit⟩ with
  | true =>
      apply SettledBy.of_crowded crowded
      simp only [ArrayAt.crowded, decide_eq_true_eq] at crowded
      rw [ArrayAt.fault]
      split
      · rfl
      · rw [ok_bind, requireLength, if_pos crowded]
        rfl
  | false =>
      apply SettledBy.cons_of_not_crowded _ crowded
      simp only [ArrayAt.crowded, decide_eq_false_iff_not, Nat.not_lt] at crowded
      rw [if_neg (by omega), ok_bind, requireLength_of_le crowded, ok_bind]
      by_cases roomless : item.headLength = 0
      · exact (settledBy_roomless roomless values _ _ _).andThen fun decoded => ⟨_, rfl⟩
      · rw [length_mod_limit roomless keeps items small content]
        exact (settledBy_items keeps settles items small content).andThen fun decoded => ⟨_, rfl⟩

theorem settles_fixedArray {item : AbiType} {count : Nat} (keeps : KeepsWidth item)
    (settles : Settles item) : Settles (.fixedArray item count) := by
  intro data value bytes base position tail encoded small lies
  obtain ⟨values, pieces, rfl, rfl, items, rfl⟩ := encodeValue_fixedArray encoded
  cases dynamic : item.isDynamic with
  | false =>
      have static : (AbiType.fixedArray item values.length).isDynamic = false := dynamic
      rw [Piece.of_static static] at lies
      rw [arraysOf_of_static static, ← arraysOf_of_static static (.array values) position, arraysOf]
      simp only [decodeValue, dynamic]
      rw [if_neg Bool.false_ne_true]
      exact (settledBy_items keeps settles items small lies).andThen fun decoded => ⟨_, rfl⟩
  | true =>
      have notStatic : (AbiType.fixedArray item values.length).isDynamic = true := dynamic
      rw [Piece.of_dynamic notStatic] at lies
      obtain ⟨bound, word, own⟩ := lies
      rw [arraysOf]
      simp only [decodeValue, dynamic]
      rw [if_pos trivial, positionAt_of_standsAt word bound, ok_bind]
      exact (settledBy_items keeps settles items small own).andThen fun decoded => ⟨_, rfl⟩

theorem settles_tuple {types : List AbiType} (keeps : ∀ type ∈ types, KeepsWidth type)
    (settles : ∀ type ∈ types, Settles type) : Settles (.tuple types) := by
  intro data value bytes base position tail encoded small lies
  obtain ⟨values, pieces, rfl, same, parts, rfl⟩ := encodeValue_tuple encoded
  cases dynamic : AbiType.anyDynamic types with
  | false =>
      have static : (AbiType.tuple types).isDynamic = false := dynamic
      rw [Piece.of_static static] at lies
      rw [arraysOf_of_static static, ← arraysOf_of_static static (.array values) position, arraysOf]
      simp only [decodeValue, dynamic]
      rw [if_neg Bool.false_ne_true]
      have settled := settledBy_of_standsAt keeps settles same parts small lies
      exact settled.andThen fun decoded => ⟨_, rfl⟩
  | true =>
      have notStatic : (AbiType.tuple types).isDynamic = true := dynamic
      rw [Piece.of_dynamic notStatic] at lies
      obtain ⟨bound, word, own⟩ := lies
      rw [arraysOf]
      simp only [decodeValue, dynamic]
      rw [if_pos trivial, positionAt_of_standsAt word bound, ok_bind]
      have settled := settledBy_of_standsAt keeps settles same parts small own
      exact settled.andThen fun decoded => ⟨_, rfl⟩

theorem settles (type : AbiType) (fitsWord : type.Everywhere AbiType.FitsWord) : Settles type := by
  induction type with
  | address => exact settles_of_readsBack decodeValue_address (fun _ => trivial) fun _ _ => rfl
  | uint bits => exact settles_of_readsBack (decodeValue_uint bits) (fun _ => trivial) fun _ _ => rfl
  | int bits => exact settles_int bits
  | bool => exact settles_of_readsBack decodeValue_bool (fun _ => trivial) fun _ _ => rfl
  | string => exact settles_of_readsBack decodeValue_string (fun _ => trivial) fun _ _ => rfl
  | bytes => exact settles_of_readsBack decodeValue_bytes (fun _ => trivial) fun _ _ => rfl
  | fixedBytes size =>
      exact settles_of_readsBack (decodeValue_fixedBytes fitsWord) (fun _ => trivial) fun _ _ => rfl
  | array item ih => exact settles_array (keepsWidth item fitsWord.2) (ih fitsWord.2)
  | fixedArray item count ih => exact settles_fixedArray (keepsWidth item fitsWord.2) (ih fitsWord.2)
  | tuple types ih =>
      have eachFits := AbiType.allEverywhere_iff.mp fitsWord.2
      exact settles_tuple (fun type member => keepsWidth type (eachFits type member))
        fun type member => ih type member (eachFits type member)

theorem settledBy_decode {types : List AbiType} {values : List Json} {data : List UInt8}
    (fitsWord : AbiType.AllEverywhere AbiType.FitsWord types)
    (encoded : encode types values = .ok data) (small : data.length ≤ greatestPosition) :
    SettledBy (arraysIn types values) data.length (decode types data) := by
  have eachFits := AbiType.allEverywhere_iff.mp fitsWord
  obtain ⟨same, pieces, parts, rfl⟩ := encode_eq_ok encoded
  have settled := settledBy_of_standsAt
    (fun type member => keepsWidth type (eachFits type member))
    (fun type member => settles type (eachFits type member)) same parts small (standsAt_self _)
  rwa [Nat.zero_add] at settled

theorem roomless_of_crowded {types : List AbiType} {values : List Json} {data : List UInt8}
    (fitsWord : AbiType.AllEverywhere AbiType.FitsWord types)
    (encoded : encode types values = .ok data) {a : ArrayAt} (member : a ∈ arraysIn types values)
    (crowded : a.crowded data.length = true) : a.item.headLength = 0 := by
  have eachFits := AbiType.allEverywhere_iff.mp fitsWord
  obtain ⟨same, pieces, parts, rfl⟩ := encode_eq_ok encoded
  have keeps : ∀ type ∈ types, KeepsWidth type :=
    fun type member => keepsWidth type (eachFits type member)
  have inside : ∀ type ∈ types, EndsInside type :=
    fun type member => endsInside type (eachFits type member)
  rw [arraysIn, ← Nat.zero_add (AbiType.headLengths types)] at member
  have ends := endsBy_assemble keeps inside same parts a member
  rw [Nat.zero_add, ArrayAt.EndsBy] at ends
  by_contra room
  have words := Nat.mul_le_mul_right a.count (AbiType.le_headLength room)
  simp only [ArrayAt.crowded, decide_eq_true_eq] at crowded
  omega

/-- Decoding encoded values reports too little data just when the first array with more items than
words behind its count has no more of them than a count can say; and the items of such an array take
no room. Types that are read from declarations have octets of a fixed number in one word at most, see
`fitsWord_of_typesOf`. -/
theorem insufficient_iff_crowded {types : List AbiType} {values : List Json} {data : List UInt8}
    (fitsWord : AbiType.AllEverywhere AbiType.FitsWord types)
    (encoded : encode types values = .ok data) (small : data.length ≤ 2 ^ 32 - 1) :
    ((∃ need length, decode types data = .error (.insufficientData need length)) ↔
      ∃ a, (arraysIn types values).find? (ArrayAt.crowded data.length) = some a ∧
        a.count ≤ greatestPosition) ∧
      ∀ a ∈ arraysIn types values, a.crowded data.length = true → a.item.headLength = 0 := by
  refine ⟨?_, fun a member => roomless_of_crowded fitsWord encoded member⟩
  have settled := settledBy_decode fitsWord encoded small
  unfold SettledBy at settled
  cases found : (arraysIn types values).find? (ArrayAt.crowded data.length) with
  | none =>
      rw [found] at settled
      obtain ⟨decoded, read⟩ := settled
      rw [read]
      simp
  | some a =>
      rw [found] at settled
      simp only at settled
      rw [settled, ArrayAt.fault]
      split
      · next tooMany =>
        constructor
        · rintro ⟨need, length, same⟩
          cases same
        · rintro ⟨other, same, countable⟩
          cases same
          omega
      · next countable => exact iff_of_true ⟨_, _, rfl⟩ ⟨a, rfl, Nat.not_lt.mp countable⟩

def roomyTypes : List AbiType :=
  [.array (.fixedArray (.uint 256) 0), .string]

def roomyValues : List Json :=
  [.array [.array [], .array []], .string "hi"]

set_option maxRecDepth 4000 in
theorem insufficient_iff_crowded_of_roomy :
    ∃ data, encode roomyTypes roomyValues = .ok data ∧ data.length = 160 ∧
      ¬∃ need length, decode roomyTypes data = .error (.insufficientData need length) := by
  have length : (encode roomyTypes roomyValues).map List.length = .ok 160 := rfl
  obtain ⟨data, encoded, long⟩ := Except.map_eq_ok.mp length
  have fitsWord : AbiType.AllEverywhere AbiType.FitsWord roomyTypes := by
    simp [roomyTypes, AbiType.AllEverywhere, AbiType.Everywhere, AbiType.FitsWord]
  have none : (arraysIn roomyTypes roomyValues).find? (ArrayAt.crowded 160) = none := rfl
  refine ⟨data, encoded, long, ?_⟩
  rw [(insufficient_iff_crowded fitsWord encoded (by omega)).1, long, none]
  rintro ⟨a, found, -⟩
  cases found

set_option maxRecDepth 4000 in
theorem not_decoded_of_crowded :
    AbiType.ofKind (fun _ => .ok []) "uint256[0][]" = .ok (.array (.fixedArray (.uint 256) 0)) ∧
      encode [.array (.fixedArray (.uint 256) 0)] [.array [.array [], .array []]] =
        .ok (Word.bytes 32 ++ Word.bytes 2) ∧
      decode [.array (.fixedArray (.uint 256) 0)] (Word.bytes 32 ++ Word.bytes 2) =
        .error (.insufficientData 128 64) := by
  exact ⟨rfl, rfl, rfl⟩

end Rehearsal.Abi
