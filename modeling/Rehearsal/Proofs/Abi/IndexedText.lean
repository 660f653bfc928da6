import Rehearsal.Proofs.Abi.LogArguments
import Rehearsal.Proofs.Abi.Tuple
import Rehearsal.Proofs.Abi.Width
import Rehearsal.Proofs.Json.Scalar

namespace Rehearsal

/-! Texts among the arguments of an event, beside the event in which the same argument is not
indexed. The data of a log takes a value that is no string for its JSON text, and the topics take it
for no text at all. So the topic of an argument is the hash of the text that stands in the data if the
argument is a string, and the hash of no text otherwise. -/

namespace Json

theorem compactChars_ne_nil (value : Json) : value.compactChars ≠ [] := by
  unfold compactChars
  cases value with
  | number n => exact n.text_ne_nil
  | bool b => cases b <;> exact List.cons_ne_nil _ _
  | _ => exact List.cons_ne_nil _ _

end Json

namespace Abi

theorem textOctets_ne_nil {value : Json} (noText : ∀ text, value ≠ .string text) :
    textOctets value ≠ [] := by
  have written : value.shown = String.ofList value.compactChars := by
    cases value with
    | string text => exact absurd rfl (noText text)
    | _ => rfl
  rw [textOctets, written]
  intro nothing
  have none : Utf8.encodeString "" = [] := rfl
  have empty := Utf8.encodeString_injective (nothing.trans none.symm)
  exact value.compactChars_ne_nil (String.ofList_eq_empty_iff.mp empty)

def Param.unindexed (param : Param) : Param :=
  { param with indexed := false }

theorem Param.type_unindexed (param : Param) : param.unindexed.type = param.type := by
  cases param
  rfl

/-! One more component. -/

theorem exists_encodePieces_insertIdx {type : AbiType} {value : Json} {bytes : List UInt8}
    (first : encodeValue type value = .ok bytes) {types : List AbiType} {values : List Json}
    {pieces : List Piece} (same : types.length = values.length)
    (encoded : encodePieces types values = .ok pieces) (k : Nat) :
    ∃ others, encodePieces (types.insertIdx k type) (values.insertIdx k value) = .ok others := by
  induction k generalizing types values pieces with
  | zero => exact ⟨_, encodePieces_cons_of first encoded⟩
  | succ k ih =>
      match types, values, same with
      | [], [], _ => exact ⟨[], rfl⟩
      | head :: types, given :: values, same =>
          obtain ⟨own, rest, headEncoded, restEncoded, rfl⟩ := encodePieces_cons encoded
          obtain ⟨others, inserted⟩ := ih (Nat.succ.inj same) restEncoded
          exact ⟨_, encodePieces_cons_of headEncoded inserted⟩

theorem exists_encode_insertIdx {type : AbiType} {value : Json} {own : List UInt8}
    (first : encodeValue type value = .ok own) {types : List AbiType} {values : List Json}
    {bytes : List UInt8} (encoded : encode types values = .ok bytes) {k : Nat}
    (within : k ≤ types.length) :
    ∃ others, encode (types.insertIdx k type) (values.insertIdx k value) = .ok others := by
  obtain ⟨same, pieces, each, -⟩ := encode_eq_ok encoded
  obtain ⟨inserted, each⟩ := exists_encodePieces_insertIdx first same each k
  have length : (types.insertIdx k type).length = (values.insertIdx k value).length := by
    rw [List.length_insertIdx_of_le_length within,
      List.length_insertIdx_of_le_length (same ▸ within), same]
  rw [encode, if_neg (not_not_intro length), each]
  exact ⟨_, rfl⟩

namespace Event

/-- The event, but with the parameter at a position not indexed. -/
def unindexed (e : Event) (i : Nat) : Event :=
  { e with inputs := e.inputs.modify i Param.unindexed }

def dataPosition (e : Event) (i : Nat) : Nat :=
  (e.inputs.take i).countP fun param => !param.indexed

namespace Separates

variable {params : List Param} {all types : List AbiType} {values plain : List Json}
  {topics : List Bytes32}

theorem separate_eq (separates : Separates params all values topics types plain) :
    separate params values = .ok (topics, types, plain) := by
  induction separates with
  | nil => rfl
  | indexed marked typed told rest ih =>
      rw [separate, typeOf_eq_ok.mpr typed, ok_bind, if_pos marked, told, ok_bind, ih]
      rfl
  | plain unmarked typed rest ih =>
      rw [separate, typeOf_eq_ok.mpr typed, ok_bind, unmarked, if_neg Bool.false_ne_true, ih]
      rfl

theorem unindexed (separates : Separates params all values topics types plain) {i : Nat}
    {param : Param} {type : AbiType} {value : Json} (parameter : params[i]? = some param)
    (indexed : param.indexed = true) (typed : param.type = .ok type)
    (given : values[i]? = some value) :
    let k := (params.take i).countP fun param => !param.indexed
    k ≤ types.length ∧ k ≤ plain.length ∧
    ∃ others, Separates (params.modify i Param.unindexed) all values others
        (types.insertIdx k type) (plain.insertIdx k value) := by
  intro k
  subst k
  induction separates generalizing i with
  | nil => contradiction
  | indexed marked headTyped told rest ih =>
      cases i with
      | zero =>
          cases parameter
          cases given
          cases headTyped.symm.trans typed
          refine ⟨Nat.zero_le _, Nat.zero_le _, _, .plain rfl ?_ rest⟩
          rw [Param.type_unindexed, typed]
      | succ i =>
          obtain ⟨within, inside, others, separates⟩ := ih parameter given
          rw [List.take_succ_cons, List.countP_cons_of_neg (by simp [marked])]
          exact ⟨within, inside, _, .indexed marked headTyped told separates⟩
  | plain unmarked headTyped rest ih =>
      cases i with
      | zero =>
          cases parameter
          rw [unmarked] at indexed
          contradiction
      | succ i =>
          obtain ⟨within, inside, others, separates⟩ := ih parameter given
          rw [List.take_succ_cons, List.countP_cons_of_pos (by simp [unmarked])]
          exact ⟨Nat.succ_le_succ within, Nat.succ_le_succ inside, _,
            .plain unmarked headTyped separates⟩

end Separates

/-! The same arguments beside the event in which one of them is not indexed. -/

theorem topic_unindexed {e : Event} {all : List AbiType} (i : Nat)
    (typed : typesOf e.inputs = .ok all) (retyped : typesOf (e.unindexed i).inputs = .ok all) :
    (e.unindexed i).topic = e.topic := by
  have same : paramTypes (e.unindexed i).inputs = paramTypes e.inputs := by
    rw [paramTypes, paramTypes, typed, retyped]
  rw [topic, topic, signatureHash, signatureHash, Abi.signature, Abi.signature, same]
  rfl

theorem encodeLog_of_separates {e : Event} {address : Address} {args : List Json}
    {own topics : List Bytes32} {all types : List AbiType} {plain : List Json} {data : List UInt8}
    (owned : OwnTopics e own) (separates : Separates e.inputs all args topics types plain)
    (written : encode types plain = .ok data) :
    e.encodeLog address args = .ok ⟨address, own ++ topics, data⟩ := by
  unfold OwnTopics at owned
  rw [encodeLog, if_neg (not_not_intro separates.length_eq)]
  split at owned
  · next anonymous =>
    subst owned
    simp only [anonymous, if_true, separates.separate_eq, ok_bind, written, pure_bind]
    rfl
  · next named =>
    obtain ⟨topic, found, rfl⟩ := owned
    simp only [named, found, separates.separate_eq, ok_bind, written]
    rfl

/-- The data of a log has octets of text for the argument at a position. -/
def Writes (e : Event) (log : Log) (i : Nat) (octets : List UInt8) : Prop :=
  ∃ components c, typesOf (e.inputs.filter fun param => !param.indexed) =
      .ok (components.map Component.type) ∧ Tuple components log.data ∧
    components[e.dataPosition i]? = some c ∧ c.type = .string ∧ c.own = counted octets

theorem writes_of_encode {e : Event} {log : Log} {i : Nat} {args plain : List Json}
    {topics : List Bytes32} {all types : List AbiType} {value : Json}
    (separates : Separates e.inputs all args topics types plain)
    (written : encode types plain = .ok log.data)
    (ofType : types[e.dataPosition i]? = some .string)
    (ofValue : plain[e.dataPosition i]? = some value) : e.Writes log i (textOctets value) := by
  have fits := separates.allEverywhere (fitsWord_of_typesOf separates.typesOf_params)
  obtain ⟨components, rfl, rfl, tuple, -⟩ :=
    encode_laidOut (allLeaves_octetsFitWord fits plain) written
  rw [List.getElem?_map, Option.map_eq_some_iff] at ofType
  obtain ⟨c, stands, ofType⟩ := ofType
  rw [List.getElem?_map, stands] at ofValue
  have own := tuple.encodes c (List.mem_of_getElem? stands)
  rw [ofType, Option.some.inj ofValue, encodeValue] at own
  exact ⟨components, c, separates.typesOf_plain, tuple, stands, ofType, (Except.ok.inj own).symm⟩

theorem dataPosition_unindexed (e : Event) (i : Nat) :
    (e.unindexed i).dataPosition i = e.dataPosition i := by
  have front : (e.unindexed i).inputs.take i = e.inputs.take i := by
    apply List.ext_getElem?
    intro j
    rw [List.getElem?_take, List.getElem?_take, unindexed]
    split
    · next before => exact List.getElem?_modify_ne _ _ (Nat.ne_of_gt before)
    · rfl
  rw [dataPosition, front, dataPosition]

theorem exists_writes {e : Event} {address : Address} {args : List Json} {log : Log} {i : Nat}
    {param : Param} {value : Json} (encoded : e.encodeLog address args = .ok log)
    (parameter : e.inputs[i]? = some param) (indexed : param.indexed = true)
    (typed : param.type = .ok .string) (given : args[i]? = some value) :
    ∃ plainLog, (e.unindexed i).encodeLog address args = .ok plainLog ∧
      (e.unindexed i).Writes plainLog i (textOctets value) := by
  obtain ⟨own, topics, all, types, plain, data, owned, separates, written, rfl⟩ :=
    encodeLog_eq_ok encoded
  have first : encodeValue .string value = .ok (counted (textOctets value)) := by rw [encodeValue]
  obtain ⟨within, inside, others, moved⟩ := separates.unindexed parameter indexed typed given
  obtain ⟨bytes, inserted⟩ := exists_encode_insertIdx first written within
  have ownTopics : OwnTopics (e.unindexed i) own := by
    have same := topic_unindexed i separates.typesOf_params moved.typesOf_params
    unfold OwnTopics at owned ⊢
    rw [same]
    exact owned
  refine ⟨_, encodeLog_of_separates ownTopics moved inserted, writes_of_encode moved inserted ?_ ?_⟩
  · rw [dataPosition_unindexed]
    exact List.getElem?_insertIdx_self.trans (if_pos within)
  · rw [dataPosition_unindexed]
    exact List.getElem?_insertIdx_self.trans (if_pos inside)

theorem topicOf_string {value : Json} {topic : Bytes32} (told : topicOf .string value = .ok topic) :
    topic = Keccak.hash (Utf8.encodeString (value.string?.getD "")) :=
  (Except.ok.inj told).symm

/-- An indexed argument of type string, beside the text that the same event has in its data if the
argument is not indexed. Its topic is the hash of that text if the argument is a string. If it is no
string, the text has octets, and the topic is the hash of none. -/
theorem indexed_text_hashed {e : Event} {address : Address} {args : List Json} {log : Log} {i : Nat}
    {param : Param} {value : Json} (encoded : e.encodeLog address args = .ok log)
    (parameter : e.inputs[i]? = some param) (indexed : param.indexed = true)
    (typed : param.type = .ok .string) (given : args[i]? = some value) :
    ∃ topic plainLog, log.topics[e.topicPosition i]? = some topic ∧
      (e.unindexed i).encodeLog address args = .ok plainLog ∧
      (e.unindexed i).Writes plainLog i (textOctets value) ∧
      ((∃ text, value = .string text) → topic = Keccak.hash (textOctets value)) ∧
      ((∀ text, value ≠ .string text) → textOctets value ≠ [] ∧ topic = Keccak.hash []) := by
  obtain ⟨topic, stands, told⟩ := exists_topic encoded parameter indexed typed given
  obtain ⟨plainLog, accepted, writes⟩ := exists_writes encoded parameter indexed typed given
  have hashed := topicOf_string told
  refine ⟨topic, plainLog, stands, accepted, writes, ?_, ?_⟩
  · rintro ⟨text, rfl⟩
    exact hashed
  · intro noText
    have none : value.string? = none := by
      cases value with
      | string text => exact absurd rfl (noText text)
      | _ => rfl
    rw [none] at hashed
    exact ⟨textOctets_ne_nil noText, hashed⟩

theorem indexed_text_hashed_of_mixed :
    ∃ log topic plainLog, mixed.encodeLog .zero mixedArgs = .ok log ∧
      log.topics[1]? = some topic ∧
      (mixed.unindexed 0).encodeLog .zero mixedArgs = .ok plainLog ∧
      (mixed.unindexed 0).Writes plainLog 0 (Utf8.encodeString "text") ∧
      topic = Keccak.hash (Utf8.encodeString "text") := by
  obtain ⟨log, encoded⟩ : ∃ log, mixed.encodeLog .zero mixedArgs = .ok log := ⟨_, rfl⟩
  obtain ⟨topic, plainLog, stands, accepted, writes, hashed, -⟩ :=
    indexed_text_hashed encoded (i := 0) rfl rfl rfl rfl
  exact ⟨log, topic, plainLog, encoded, stands, accepted, writes, hashed ⟨_, rfl⟩⟩

theorem number_hashed_as_nothing :
    ∃ log topic plainLog octets, mixed.encodeLog .zero (.ofNat 5 :: mixedArgs.tail) = .ok log ∧
      log.topics[1]? = some topic ∧
      (mixed.unindexed 0).encodeLog .zero (.ofNat 5 :: mixedArgs.tail) = .ok plainLog ∧
      (mixed.unindexed 0).Writes plainLog 0 octets ∧ topic ≠ Keccak.hash octets := by
  have text : textOctets (.ofNat 5) = [0x35] := by decide
  have apart : (Keccak.hash [])[0] ≠ (Keccak.hash [0x35])[0] := by
    rw [Keccak.head_hash_nil, Keccak.head_hash_five]
    decide
  obtain ⟨log, encoded⟩ : ∃ log, mixed.encodeLog .zero (.ofNat 5 :: mixedArgs.tail) = .ok log :=
    ⟨_, rfl⟩
  have typed : (⟨"", "string", [], true⟩ : Param).type = .ok .string := rfl
  obtain ⟨topic, stands, told⟩ := exists_topic encoded (i := 0) rfl rfl typed rfl
  obtain ⟨plainLog, accepted, writes⟩ := exists_writes encoded (i := 0) rfl rfl rfl rfl
  rw [text] at writes
  refine ⟨log, topic, plainLog, [0x35], encoded, stands, accepted, writes, ?_⟩
  rw [topicOf_string told]
  exact fun same => apart (congrArg (fun hash : Bytes32 => hash[0]) same)

end Event

end Abi

end Rehearsal
