import Rehearsal.Proofs.Abi.Decoding
import Rehearsal.Proofs.Abi.Guarded
import Rehearsal.Proofs.Abi.Truncation

namespace Rehearsal.Abi

/-! On data of less than `2 ^ 62` octets the guarded decoder does not panic. What carries the proof is
where a value may stand: not before its tuple, and never further behind the data than one position
that the data gave. A word has to be read there before another position is counted from the tuple,
and so the tuple starts inside the data by then. -/

variable {α : Type} {tolerated : Panic → Prop} {data : List UInt8} {position : Nat}

/-! What the reads of the data come to. -/

theorem le_of_wordAt {word : List UInt8} (read : wordAt data position = .ok word) :
    position + 32 ≤ data.length := by
  simp only [wordAt, bind_eq_ok] at read
  obtain ⟨_, enough, -⟩ := read
  exact le_of_requireLength enough

theorem le_of_positionAt {n : Nat} (read : positionAt data position = .ok n) :
    position + 32 ≤ data.length ∧ n ≤ greatestPosition := by
  simp only [positionAt, bind_eq_ok] at read
  obtain ⟨word, found, read⟩ := read
  refine ⟨le_of_wordAt found, ?_⟩
  split at read
  · contradiction
  · next small =>
    cases read
    exact Nat.not_lt.mp small

namespace Runs

theorem wordAt (small : position + 32 < Text.limit64) :
    Runs tolerated (Guarded.wordAt data position) (wordAt data position) := by
  apply number small
  apply bind (refl _)
  intro _ enough
  rw [Guarded.cut, if_pos ⟨Nat.le_add_right position 32, le_of_requireLength enough⟩,
    Nat.add_sub_cancel_left]
  exact refl _

theorem positionAt (small : position + 32 < Text.limit64) :
    Runs tolerated (Guarded.positionAt data position) (positionAt data position) := by
  apply bind (wordAt small)
  intro word _
  simp only
  split
  · exact refl _
  · exact refl _

theorem countedAt {start : Nat} (small : start + 32 + greatestPosition < Text.limit64) :
    Runs tolerated (Guarded.countedAt data start) (countedAt data start) := by
  apply bind (positionAt (by omega))
  intro length found
  have most := (le_of_positionAt found).2
  apply number (by omega)
  apply number (by omega)
  apply bind (refl _)
  intro _ enough
  rw [Guarded.cut, if_pos ⟨Nat.le_add_right _ length, le_of_requireLength enough⟩,
    Nat.add_sub_cancel_left]
  exact refl _

end Runs

/-! Head lengths. -/

/-- The head of a type has a length of 64 bits. -/
def HeadFits (type : AbiType) : Prop :=
  type.headLength < Text.limit64

theorem guarded_headLengths {items : List AbiType}
    (each : ∀ item ∈ items, Guarded.headLength item = pure item.headLength) (sum : Nat)
    (small : sum + AbiType.headLengths items < Text.limit64) :
    Guarded.headLengths sum items = pure (sum + AbiType.headLengths items) := by
  induction items generalizing sum with
  | nil => rfl
  | cons item rest ih =>
      obtain ⟨first, others⟩ := List.forall_mem_cons.mp each
      rw [AbiType.headLengths, ← Nat.add_assoc] at small ⊢
      rw [Guarded.headLengths, first, pure_bind, Guarded.number, if_pos (by omega), pure_bind]
      exact ih others _ small

theorem guarded_headLength (type : AbiType) (fits : type.Everywhere HeadFits) :
    Guarded.headLength type = pure type.headLength := by
  induction type with
  | fixedArray item count ih =>
      obtain ⟨whole, inner⟩ := fits
      rw [HeadFits] at whole
      rw [Guarded.headLength]
      rw [AbiType.headLength] at whole ⊢
      cases dynamic : item.isDynamic with
      | true => rfl
      | false =>
          rw [dynamic, if_neg Bool.false_ne_true] at whole
          rw [if_neg Bool.false_ne_true, if_neg Bool.false_ne_true, ih inner, pure_bind,
            Guarded.number, if_pos whole]
  | tuple items ih =>
      obtain ⟨whole, inner⟩ := fits
      have each := AbiType.allEverywhere_iff.mp inner
      rw [HeadFits] at whole
      rw [Guarded.headLength]
      rw [AbiType.headLength] at whole ⊢
      cases dynamic : AbiType.anyDynamic items with
      | true => rfl
      | false =>
          rw [dynamic, if_neg Bool.false_ne_true] at whole
          have sum := guarded_headLengths (fun item member => ih item member (each item member)) 0
            (by omega)
          rw [Nat.zero_add] at sum
          exact sum
  | _ => rfl

/-! Where a value ends. A head that was read ends inside the data; one that takes no room may stand
behind it. -/

def ReadsInside (data : List UInt8) (type : AbiType) : Prop :=
  ∀ base position value length, decodeValue data type base position = .ok (value, length) →
    position + length ≤ max position data.length

theorem end_of_decodeEach {types : List AbiType} (each : ∀ type ∈ types, ReadsInside data type)
    {base position : Nat} {values : List Json}
    (decoded : decodeEach data types base position = .ok values) :
    position + AbiType.headLengths types ≤ max position data.length := by
  induction types generalizing position values with
  | nil => exact Nat.le_max_left position data.length
  | cons type types ih =>
      obtain ⟨first, others⟩ := List.forall_mem_cons.mp each
      simp only [decodeEach, bind_eq_ok] at decoded
      obtain ⟨⟨value, length⟩, head, rest, tail, -⟩ := decoded
      have headEnd := first base position value length head
      have tailEnd := ih others tail
      rw [headLength_of_decodeValue head] at headEnd tailEnd
      rw [AbiType.headLengths]
      omega

theorem readsInside (type : AbiType) : ReadsInside data type := by
  induction type with
  | fixedArray item count ih =>
      intro base position value length decoded
      rw [headLength_of_decodeValue decoded, AbiType.headLength]
      rw [decodeValue] at decoded
      split at decoded
      · next dynamic =>
        simp only [bind_eq_ok] at decoded
        obtain ⟨offset, read, -⟩ := decoded
        have inside := (le_of_positionAt read).1
        rw [if_pos dynamic]
        omega
      · next static =>
        simp only [bind_eq_ok] at decoded
        obtain ⟨values, items, -⟩ := decoded
        obtain ⟨rfl, each⟩ := decodeEach_of_decodeMany items
        rw [if_neg static, ← AbiType.headLengths_replicate]
        exact end_of_decodeEach (fun type member => List.eq_of_mem_replicate member ▸ ih) each
  | tuple types ih =>
      intro base position value length decoded
      rw [headLength_of_decodeValue decoded, AbiType.headLength]
      rw [decodeValue] at decoded
      split at decoded
      · next dynamic =>
        simp only [bind_eq_ok] at decoded
        obtain ⟨offset, read, -⟩ := decoded
        have inside := (le_of_positionAt read).1
        rw [if_pos dynamic]
        omega
      · next static =>
        simp only [bind_eq_ok] at decoded
        obtain ⟨values, parts, -⟩ := decoded
        rw [if_neg static]
        exact end_of_decodeEach ih parts
  | address | uint _ | int _ | bool | fixedBytes _ =>
      intro base position value length decoded
      rw [headLength_of_decodeValue decoded]
      simp only [decodeValue, bind_eq_ok] at decoded
      obtain ⟨word, read, -⟩ := decoded
      exact (le_of_wordAt read).trans (Nat.le_max_right position data.length)
  | bytes | string | array item =>
      intro base position value length decoded
      rw [headLength_of_decodeValue decoded]
      simp only [decodeValue, bind_eq_ok] at decoded
      obtain ⟨offset, read, -⟩ := decoded
      exact (le_of_positionAt read).1.trans (Nat.le_max_right position data.length)

/-! Decoding does not panic. -/

def Cuts (tolerated : Panic → Prop) : AbiType → Prop
  | .fixedBytes size => size ≤ 32 ∨ tolerated (.outside size 32)
  | _ => True

/-- The positions at which a value of a tuple at `base` may stand. -/
def Reaches (data : List UInt8) (base position : Nat) : Prop :=
  base ≤ position ∧ position ≤ data.length + greatestPosition

def RunsAlong (tolerated : Panic → Prop) (data : List UInt8) (type : AbiType) : Prop :=
  ∀ base position, Reaches data base position →
    Runs tolerated (Guarded.decodeValue data type base position)
      (decodeValue data type base position)

theorem greatestPosition_eq : greatestPosition = 2 ^ 32 - 1 := rfl

theorem limit64_eq : Text.limit64 = 2 ^ 64 := rfl

theorem Reaches.further {base position length : Nat} (reaches : Reaches data base position)
    (inside : position + length ≤ max position data.length) :
    Reaches data base (position + length) := by
  unfold Reaches at *
  omega

theorem Reaches.room {base position : Nat} (reaches : Reaches data base position)
    (short : data.length < 2 ^ 62) :
    position + 32 + greatestPosition * 32 < Text.limit64 := by
  have greatest := greatestPosition_eq
  have limit := limit64_eq
  unfold Reaches at reaches
  omega

theorem Reaches.small {base position : Nat} (reaches : Reaches data base position)
    (short : data.length < 2 ^ 62) : position + 32 < Text.limit64 :=
  Nat.lt_of_le_of_lt (Nat.le_add_right _ _) (reaches.room short)

theorem runs_decodeMany {one : Nat → Guarded (Json × Nat)} {plain : Nat → Result (Json × Nat)}
    {base : Nat} (short : data.length < 2 ^ 62)
    (each : ∀ position, Reaches data base position → Runs tolerated (one position) (plain position))
    (inside : ∀ position value length, plain position = .ok (value, length) →
      position + length ≤ max position data.length)
    (count : Nat) {position : Nat} (reaches : Reaches data base position) :
    Runs tolerated (Guarded.decodeMany one count position) (decodeMany plain count position) := by
  induction count generalizing position with
  | zero => exact .refl _
  | succ count ih =>
      apply Runs.bind (each position reaches)
      rintro ⟨value, length⟩ decoded
      have next := reaches.further (inside position value length decoded)
      have small := next.small short
      apply Runs.number (by omega)
      exact (ih next).bind fun _ _ => .refl _

theorem runs_decodeEach {types : List AbiType} {base : Nat} (short : data.length < 2 ^ 62)
    (each : ∀ type ∈ types, RunsAlong tolerated data type) {position : Nat}
    (reaches : Reaches data base position) :
    Runs tolerated (Guarded.decodeEach data types base position)
      (decodeEach data types base position) := by
  induction types generalizing position with
  | nil => exact .refl _
  | cons type types ih =>
      obtain ⟨first, others⟩ := List.forall_mem_cons.mp each
      apply Runs.bind (first base position reaches)
      rintro ⟨value, length⟩ decoded
      have next := reaches.further (readsInside type base position value length decoded)
      have small := next.small short
      apply Runs.number (by omega)
      exact (ih others next).bind fun _ _ => .refl _

theorem Reaches.start {base position offset : Nat} (reaches : Reaches data base position)
    (read : positionAt data position = .ok offset) :
    Reaches data (base + offset) (base + offset) := by
  obtain ⟨inside, most⟩ := le_of_positionAt read
  unfold Reaches at *
  omega

theorem truth_slice {word : List UInt8} (length : word.length = 32) :
    truth (slice word 31 1) = truth word := by
  have last : word.drop 31 ≠ [] := by
    rw [ne_eq, List.drop_eq_nil_iff]
    omega
  rw [truth, truth, slice, List.take_of_length_le (by rw [List.length_drop]; omega),
    List.getLast?_drop, if_neg (by omega)]

theorem Runs.word {f : List UInt8 → Guarded α} {g : List UInt8 → Result α} {base : Nat}
    (short : data.length < 2 ^ 62) (reaches : Reaches data base position)
    (rest : ∀ word, word.length = 32 → Runs tolerated (f word) (g word)) :
    Runs tolerated (Guarded.wordAt data position >>= f) (Abi.wordAt data position >>= g) :=
  (Runs.wordAt (reaches.small short)).bind fun word read => rest word (length_of_wordAt read)

theorem Runs.start {f : Nat → Guarded α} {g : Nat → Result α} {base : Nat}
    (short : data.length < 2 ^ 62) (reaches : Reaches data base position)
    (rest : ∀ offset, Reaches data (base + offset) (base + offset) →
      Runs tolerated (f (base + offset)) (g offset)) :
    Runs tolerated
      (Guarded.positionAt data position >>= fun offset => Guarded.number (base + offset) >>= f)
      (Abi.positionAt data position >>= g) := by
  apply Runs.bind (Runs.positionAt (reaches.small short))
  intro offset read
  have start := reaches.start read
  have small := start.small short
  exact Runs.number (by omega) (rest offset start)

theorem runsAlong_array {item : AbiType} (short : data.length < 2 ^ 62)
    (along : RunsAlong tolerated data item) : RunsAlong tolerated data (.array item) := by
  intro base position reaches
  apply Runs.start short reaches
  intro offset start
  have room := start.room short
  apply Runs.bind (Runs.positionAt (start.small short))
  intro length counted
  obtain ⟨inside, most⟩ := le_of_positionAt counted
  apply Runs.number (by omega)
  apply Runs.number (by omega)
  apply Runs.number (by omega)
  apply Runs.bind (.refl _)
  intro _ _
  -- The count word was read, so that the first item starts inside the data.
  have first : Reaches data (base + offset + 32) (base + offset + 32) :=
    ⟨Nat.le_refl _, by omega⟩
  have items := runs_decodeMany short (along (base + offset + 32))
    (readsInside item (base + offset + 32)) length first
  exact items.bind fun _ _ => .refl _

theorem runsAlong_fixedArray {item : AbiType} {count : Nat} (short : data.length < 2 ^ 62)
    (heads : (AbiType.fixedArray item count).Everywhere HeadFits)
    (along : RunsAlong tolerated data item) :
    RunsAlong tolerated data (.fixedArray item count) := by
  intro base position reaches
  rw [Guarded.decodeValue, decodeValue]
  split
  · apply Runs.start short reaches
    intro offset start
    have items := runs_decodeMany short (along (base + offset)) (readsInside item (base + offset))
      count start
    exact items.bind fun _ _ => .refl _
  · next static =>
    have here : Reaches data position position := ⟨Nat.le_refl _, reaches.2⟩
    have items := runs_decodeMany short (along position) (readsInside item position) count here
    apply items.bind
    intro values _
    rw [guarded_headLength _ heads, AbiType.headLength, if_neg static]
    exact .refl _

theorem runsAlong_tuple {types : List AbiType} (short : data.length < 2 ^ 62)
    (heads : (AbiType.tuple types).Everywhere HeadFits)
    (each : ∀ type ∈ types, RunsAlong tolerated data type) :
    RunsAlong tolerated data (.tuple types) := by
  intro base position reaches
  rw [Guarded.decodeValue, decodeValue]
  split
  · apply Runs.start short reaches
    intro offset start
    exact (runs_decodeEach short each start).bind fun _ _ => .refl _
  · next static =>
    have here : Reaches data position position := ⟨Nat.le_refl _, reaches.2⟩
    apply (runs_decodeEach short each here).bind
    intro values _
    rw [guarded_headLength _ heads, AbiType.headLength, if_neg static]
    exact .refl _

theorem runsAlong (short : data.length < 2 ^ 62) (type : AbiType)
    (heads : type.Everywhere HeadFits) (cuts : type.Everywhere (Cuts tolerated)) :
    RunsAlong tolerated data type := by
  induction type with
  | address =>
      intro base position reaches
      apply Runs.word short reaches
      intro word length
      apply Runs.cut (by decide) (by omega)
      rw [slice, List.take_of_length_le (by rw [List.length_drop]; omega)]
      exact .refl _
  | uint bits =>
      intro base position reaches
      exact Runs.word short reaches fun _ _ => .refl _
  | int bits =>
      intro base position reaches
      apply Runs.word short reaches
      intro word length
      apply Runs.cut (by decide) (by omega)
      exact .refl _
  | bool =>
      intro base position reaches
      apply Runs.word short reaches
      intro word length
      apply Runs.cut (by decide) (by omega)
      rw [truth_slice length]
      exact .refl _
  | fixedBytes size =>
      intro base position reaches
      apply Runs.word short reaches
      intro word length
      by_cases fits : size ≤ 32
      · apply Runs.cut (Nat.zero_le size) (by omega)
        exact .refl _
      · refine .inr ⟨.outside size 32, cuts.resolve_left fits, ?_⟩
        simp only [Guarded.cut]
        rw [if_neg (by omega), length]
        rfl
  | bytes =>
      intro base position reaches
      apply Runs.start short reaches
      intro offset start
      have room := start.room short
      exact (Runs.countedAt (by omega)).bind fun _ _ => .refl _
  | string =>
      intro base position reaches
      apply Runs.start short reaches
      intro offset start
      have room := start.room short
      apply Runs.bind (Runs.countedAt (by omega))
      intro octets _
      cases Utf8.decodeString octets with
      | ok s => exact .refl _
      | error fault => exact .refl _
  | array item ih => exact runsAlong_array short (ih heads.2 cuts.2)
  | fixedArray item count ih => exact runsAlong_fixedArray short heads (ih heads.2 cuts.2)
  | tuple types ih =>
      have eachHead := AbiType.allEverywhere_iff.mp heads.2
      have eachCut := AbiType.allEverywhere_iff.mp cuts.2
      apply runsAlong_tuple short heads
      exact fun type member => ih type member (eachHead type member) (eachCut type member)

theorem runs_decode {types : List AbiType} (heads : AbiType.AllEverywhere HeadFits types)
    (cuts : AbiType.AllEverywhere (Cuts tolerated) types) (short : data.length < 2 ^ 62) :
    Runs tolerated (Guarded.decode types data) (decode types data) := by
  have eachHead := AbiType.allEverywhere_iff.mp heads
  have eachCut := AbiType.allEverywhere_iff.mp cuts
  exact runs_decodeEach short
    (fun type member => runsAlong short type (eachHead type member) (eachCut type member))
    ⟨Nat.le_refl 0, Nat.zero_le _⟩

theorem cuts_of_fitsWord {type : AbiType} (fits : type.FitsWord) : Cuts tolerated type := by
  cases type with
  | fixedBytes size => exact .inl fits
  | _ => trivial

def WordTooShort (p : Panic) : Prop :=
  ∃ size, 32 < size ∧ p = .outside size 32

theorem cuts_wordTooShort (type : AbiType) : Cuts WordTooShort type := by
  cases type with
  | fixedBytes size =>
      rcases Nat.lt_or_ge 32 size with long | fits
      · exact .inr ⟨size, long, rfl⟩
      · exact .inl fits
  | _ => trivial

/-- Whatever the data is, decoding it with numbers of 64 bits ends like decoding it without a bound:
no sum or product leaves 64 bits, and no piece is cut from behind the data. The only way to panic is
a type with more than thirty-two octets of a fixed number, which are cut from a word. Parameters have
no such types. -/
theorem decode_keeps_bounds {types : List AbiType}
    (heads : AbiType.AllEverywhere HeadFits types) (short : data.length < 2 ^ 62) :
    (AbiType.AllEverywhere AbiType.FitsWord types →
      Guarded.decode types data = returned (decode types data)) ∧
    (∀ params, typesOf params = .ok types → AbiType.AllEverywhere AbiType.FitsWord types) ∧
    (Guarded.decode types data = returned (decode types data) ∨
      ∃ size, 32 < size ∧ Guarded.decode types data = panics (.outside size 32)) := by
  refine ⟨?_, fun _ => fitsWord_of_typesOf, ?_⟩
  · intro fitsWord
    have cuts : AbiType.AllEverywhere (Cuts fun _ => False) types :=
      AbiType.allEverywhere_iff.mpr fun type member =>
        (AbiType.allEverywhere_iff.mp fitsWord type member).imp fun _ => cuts_of_fitsWord
    exact (runs_decode heads cuts short).resolve_right fun ⟨_, never, _⟩ => never
  · have cuts : AbiType.AllEverywhere (Cuts WordTooShort) types :=
      AbiType.allEverywhere_iff.mpr fun type _ => AbiType.everywhere_of_forall cuts_wordTooShort type
    rcases runs_decode heads cuts short with same | ⟨_, ⟨size, long, rfl⟩, panicked⟩
    · exact .inl same
    · exact .inr ⟨size, long, panicked⟩

example : Guarded.decode [.fixedBytes 33] (Word.bytes 0) = panics (.outside 33 32) := rfl

def strayTypes : List AbiType :=
  [.tuple [.fixedArray (.uint 256) 0, .bytes]]

def stray : List UInt8 :=
  Word.bytes (2 ^ 32 - 1)

set_option maxRecDepth 4000 in
theorem decode_keeps_bounds_of_stray :
    stray.length < 2 ^ 62 ∧
      Guarded.decode strayTypes stray =
        returned (.error (.insufficientData (2 ^ 32 - 1 + 32) 32)) := by
  have short : stray.length < 2 ^ 62 := by decide
  have heads : AbiType.AllEverywhere HeadFits strayTypes := by
    simp [strayTypes, AbiType.AllEverywhere, AbiType.Everywhere, HeadFits, AbiType.headLength,
      AbiType.anyDynamic, AbiType.isDynamic, limit64_eq]
  have fitsWord : AbiType.AllEverywhere AbiType.FitsWord strayTypes := by
    simp [strayTypes, AbiType.AllEverywhere, AbiType.Everywhere, AbiType.FitsWord]
  have plain : decode strayTypes stray = .error (.insufficientData (2 ^ 32 - 1 + 32) 32) := rfl
  refine ⟨short, ?_⟩
  rw [(decode_keeps_bounds heads short).1 fitsWord, plain]

end Rehearsal.Abi
