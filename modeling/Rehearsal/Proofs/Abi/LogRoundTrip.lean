import Rehearsal.Abi.Log
import Rehearsal.Proofs.Abi.RoundTrip
import Rehearsal.Proofs.Lookup

namespace Rehearsal

namespace Abi

/-! The arguments that a log tells: canonical forms, or the topics of those that are hashed. -/

def topicForm (type : AbiType) (value : Json) : Json :=
  if type.isHashedInTopic then
    match Event.topicOf type value with
    | .ok topic => .string (Hex.marked topic.toList)
    | .error _ => .null
  else canonicalForm type value

/-- The form in which an argument is told. -/
def Param.form (param : Param) (type : AbiType) (value : Json) : Json :=
  if param.indexed then topicForm type value else canonicalForm type value

def labelled (index : Nat) : List Param → List AbiType → List Json → List (String × Json)
  | param :: params, type :: types, value :: values =>
      (param.label index, param.form type value) :: labelled (index + 1) params types values
  | _, _, _ => []

theorem typesOf_cons {param : Param} {params : List Param} {types : List AbiType} :
    typesOf (param :: params) = .ok types ↔ ∃ type rest, param.type = .ok type ∧
      typesOf params = .ok rest ∧ types = type :: rest := by
  rw [typesOf]
  cases param.type with
  | error fault => simp
  | ok type =>
      cases typesOf params with
      | error fault => simp
      | ok rest => simp [eq_comm]

theorem labels_labelled {params : List Param} {types : List AbiType} {values : List Json}
    (typed : typesOf params = .ok types) (same : values.length = params.length) (index : Nat) :
    (labelled index params types values).map Prod.fst =
      params.mapIdx fun i param => param.label (index + i) := by
  induction params generalizing types values index with
  | nil => rfl
  | cons param params ih =>
      obtain ⟨type, rest, -, restTyped, rfl⟩ := typesOf_cons.mp typed
      obtain ⟨value, values, rfl⟩ := List.exists_cons_of_length_eq_add_one same
      rw [labelled, List.map_cons, ih restTyped (Nat.succ.inj same), List.mapIdx_cons]
      simp only [Nat.add_zero, Nat.add_assoc, Nat.add_comm 1]

theorem getElem?_labelled {params : List Param} {types : List AbiType} {values : List Json}
    (typed : typesOf params = .ok types) (same : values.length = params.length) {i : Nat}
    {param : Param} (parameter : params[i]? = some param) (index : Nat) :
    ∃ type value, param.type = .ok type ∧ values[i]? = some value ∧
      (labelled index params types values)[i]? =
        some (param.label (index + i), param.form type value) := by
  induction params generalizing types values i index with
  | nil => contradiction
  | cons head params ih =>
      obtain ⟨type, rest, headTyped, restTyped, rfl⟩ := typesOf_cons.mp typed
      obtain ⟨value, values, rfl⟩ := List.exists_cons_of_length_eq_add_one same
      cases i with
      | zero =>
          cases parameter
          exact ⟨type, value, headTyped, rfl, rfl⟩
      | succ i =>
          obtain ⟨type, value, typed, given, found⟩ :=
            ih restTyped (Nat.succ.inj same) parameter (index + 1)
          rw [Nat.add_assoc, Nat.add_comm 1] at found
          exact ⟨type, value, typed, given, found⟩

namespace Event

/-- Parameters of given types and their arguments are separated: the indexed ones into topics,
the others into types and values of data. -/
inductive Separates : List Param → List AbiType → List Json →
    List Bytes32 → List AbiType → List Json → Prop where
  | nil : Separates [] [] [] [] [] []
  | indexed {param : Param} {type : AbiType} {value : Json} {topic : Bytes32}
      {params : List Param} {all : List AbiType} {values : List Json}
      {topics : List Bytes32} {types : List AbiType} {plain : List Json}
      (marked : param.indexed = true) (typed : param.type = .ok type)
      (told : topicOf type value = .ok topic)
      (rest : Separates params all values topics types plain) :
      Separates (param :: params) (type :: all) (value :: values) (topic :: topics) types plain
  | plain {param : Param} {type : AbiType} {value : Json}
      {params : List Param} {all : List AbiType} {values : List Json}
      {topics : List Bytes32} {types : List AbiType} {plain : List Json}
      (unmarked : param.indexed = false) (typed : param.type = .ok type)
      (rest : Separates params all values topics types plain) :
      Separates (param :: params) (type :: all) (value :: values) topics (type :: types)
        (value :: plain)

theorem typeOf_eq_ok {param : Param} {type : AbiType} :
    typeOf param = .ok type ↔ param.type = .ok type := by
  unfold typeOf
  cases param.type with
  | error fault => simp [Except.mapError]
  | ok found => simp [Except.mapError]

theorem separates_of_separate {params : List Param} {values : List Json} {topics : List Bytes32}
    {types : List AbiType} {plain : List Json} (same : values.length = params.length)
    (separated : separate params values = .ok (topics, types, plain)) :
    ∃ all, Separates params all values topics types plain := by
  induction params generalizing values topics types plain with
  | nil =>
      cases List.eq_nil_of_length_eq_zero same
      cases separated
      exact ⟨[], .nil⟩
  | cons param params ih =>
      obtain ⟨value, values, rfl⟩ := List.exists_cons_of_length_eq_add_one same
      rw [separate, bind_eq_ok] at separated
      obtain ⟨type, typed, separated⟩ := separated
      have typed := typeOf_eq_ok.mp typed
      split at separated
      · next marked =>
        simp only [bind_eq_ok, pure_eq_ok] at separated
        obtain ⟨topic, told, ⟨others, otherTypes, otherPlain⟩, rest, whole⟩ := separated
        cases whole
        obtain ⟨all, tail⟩ := ih (Nat.succ.inj same) rest
        exact ⟨type :: all, .indexed marked typed told tail⟩
      · next unmarked =>
        simp only [bind_eq_ok, pure_eq_ok] at separated
        obtain ⟨⟨others, otherTypes, otherPlain⟩, rest, whole⟩ := separated
        cases whole
        obtain ⟨all, tail⟩ := ih (Nat.succ.inj same) rest
        exact ⟨type :: all, .plain (Bool.eq_false_of_not_eq_true unmarked) typed tail⟩

namespace Separates

variable {params : List Param} {all types : List AbiType} {values plain : List Json}
  {topics : List Bytes32}

theorem length_eq (separates : Separates params all values topics types plain) :
    values.length = params.length := by
  induction separates with
  | nil => rfl
  | indexed marked typed told rest ih => rw [List.length_cons, List.length_cons, ih]
  | plain unmarked typed rest ih => rw [List.length_cons, List.length_cons, ih]

theorem typesOf_params (separates : Separates params all values topics types plain) :
    typesOf params = .ok all := by
  induction separates with
  | nil => rfl
  | indexed marked typed told rest ih => rw [typesOf, typed, ih]
  | plain unmarked typed rest ih => rw [typesOf, typed, ih]

theorem typesOf_plain (separates : Separates params all values topics types plain) :
    typesOf (params.filter fun param => !param.indexed) = .ok types := by
  induction separates with
  | nil => rfl
  | indexed marked typed told rest ih => rw [List.filter_cons_of_neg (by simp [marked]), ih]
  | plain unmarked typed rest ih =>
      rw [List.filter_cons_of_pos (by simp [unmarked]), typesOf, typed, ih]

theorem allEverywhere {p : AbiType → Prop}
    (separates : Separates params all values topics types plain)
    (holds : AbiType.AllEverywhere p all) : AbiType.AllEverywhere p types := by
  induction separates with
  | nil => trivial
  | indexed marked typed told rest ih => exact ih holds.2
  | plain unmarked typed rest ih => exact ⟨holds.1, ih holds.2⟩

theorem allLeaves {p : AbiType → Json → Prop}
    (separates : Separates params all values topics types plain)
    (holds : AllLeaves p all values) : AllLeaves p types plain := by
  induction separates with
  | nil => trivial
  | indexed marked typed told rest ih => exact ih holds.2
  | plain unmarked typed rest ih => exact ⟨holds.1, ih holds.2⟩

end Separates

/-! Topics. -/

theorem getElem_firstWord {bytes : List UInt8} {i : Nat} (inWord : i < 32) :
    (firstWord bytes)[i] = bytes.getD i 0 := by
  simp [firstWord]

theorem toList_firstWord {bytes : List UInt8} (word : bytes.length = 32) :
    (firstWord bytes).toList = bytes := by
  apply List.ext_getElem
  · rw [Vector.length_toList, word]
  · intro i inWord inBytes
    rw [Vector.getElem_toList, getElem_firstWord]
    simp [List.getD_eq_getElem?_getD, inBytes]

theorem static_of_not_hashed {type : AbiType} (told : type.isHashedInTopic = false) :
    type.isDynamic = false ∧ type.headLength = 32 ∧ type.Everywhere AbiType.ItemsTakeRoom := by
  cases type with
  | address => exact ⟨rfl, rfl, trivial⟩
  | uint bits => exact ⟨rfl, rfl, trivial⟩
  | int bits => exact ⟨rfl, rfl, trivial⟩
  | bool => exact ⟨rfl, rfl, trivial⟩
  | fixedBytes size => exact ⟨rfl, rfl, trivial⟩
  | _ => exact absurd told (by simp [AbiType.isHashedInTopic, AbiType.isDynamic])

theorem topicOf_of_not_hashed {type : AbiType} {value : Json} {topic : Bytes32}
    (told : type.isHashedInTopic = false) (found : topicOf type value = .ok topic) :
    ∃ bytes, encodeValue type value = .ok bytes ∧ topic = firstWord bytes := by
  rw [topicOf, bind_eq_ok] at found
  obtain ⟨octets, taken, found⟩ := found
  rw [told] at found
  refine ⟨octets, ?_, (pure_eq_ok.mp found).symm⟩
  cases type with
  | string => contradiction
  | bytes => contradiction
  | _ => exact taken

theorem topicValue_of_topicOf {type : AbiType} {value : Json} {topic : Bytes32}
    (fitsWord : type.Everywhere AbiType.FitsWord) (fits : EachLeaf SignedFits type value)
    (found : topicOf type value = .ok topic) :
    topicValue type topic = .ok (topicForm type value) := by
  cases hashed : type.isHashedInTopic with
  | true => simp [topicValue, topicForm, hashed, found]
  | false =>
      obtain ⟨bytes, encoded, rfl⟩ := topicOf_of_not_hashed hashed found
      obtain ⟨static, head, takesRoom⟩ := static_of_not_hashed hashed
      have word : bytes.length = 32 := by
        have width := keepsWidth type fitsWord value bytes encoded
        rwa [Piece.of_static static, Piece.width, head] at width
      have placed : (Piece.of type bytes).PlacedAt bytes 0 0 := by
        rw [Piece.of_static static]
        exact standsAt_self bytes
      have small : bytes.length ≤ greatestPosition := by
        rw [word]
        decide
      obtain ⟨length, read⟩ :=
        readsBack type fitsWord takesRoom bytes value bytes 0 0 encoded fits small placed
      rw [topicValue, hashed, toList_firstWord word, topicForm, hashed, read]
      rfl

theorem collect_of_separates (event : String) {params : List Param} {all types : List AbiType}
    {values plain : List Json} {topics : List Bytes32}
    (separates : Separates params all values topics types plain)
    (fitsWord : AbiType.AllEverywhere AbiType.FitsWord all)
    (fits : AllLeaves SignedFits all values) (index : Nat) :
    collect event index params topics (canonicalForms types plain) =
      .ok (labelled index params all values) := by
  induction separates generalizing index with
  | nil => rfl
  | @indexed param type value topic _ _ _ _ _ _ marked typed told rest ih =>
      rw [collect.eq_def]
      simp only [marked, if_true, typeOf_eq_ok.mpr typed, ok_bind,
        topicValue_of_topicOf fitsWord.1 fits.1 told, ih fitsWord.2 fits.2, labelled, Param.form]
      rfl
  | @plain param type value _ _ _ _ _ _ unmarked typed rest ih =>
      rw [collect.eq_def]
      simp only [unmarked, if_false, Bool.false_eq_true, canonicalForms, ok_bind,
        ih fitsWord.2 fits.2, labelled, Param.form]
      rfl

theorem exists_collect_of_cons {event : String} {index : Nat} {param : Param} {params : List Param}
    {topics : List Bytes32} {values : List Json} {args : List (String × Json)}
    (collected : collect event index (param :: params) topics values = .ok args) :
    ∃ value topicsLeft valuesLeft rest, args = (param.label index, value) :: rest ∧
      collect event (index + 1) params topicsLeft valuesLeft = .ok rest ∧
      ((∃ type topic, topicValue type topic = .ok value ∧ valuesLeft = values) ∨
        values = value :: valuesLeft) := by
  unfold collect at collected
  split at collected
  · cases topics with
    | nil => contradiction
    | cons topic topics =>
        simp only [bind_eq_ok, pure_eq_ok] at collected
        obtain ⟨type, -, value, told, rest, others, rfl⟩ := collected
        exact ⟨value, topics, values, rest, rfl, others, .inl ⟨type, topic, told, rfl⟩⟩
  · cases values with
    | nil => contradiction
    | cons value values =>
        simp only [bind_eq_ok, pure_eq_ok] at collected
        obtain ⟨rest, others, rfl⟩ := collected
        exact ⟨value, topics, values, rest, rfl, others, .inr rfl⟩

/-! Logs. -/

def OwnTopics (e : Event) (own : List Bytes32) : Prop :=
  if e.anonymous then own = [] else ∃ topic, e.topic = .ok topic ∧ own = [topic]

theorem encodeLog_eq_ok {e : Event} {address : Address} {args : List Json} {log : Log}
    (encoded : e.encodeLog address args = .ok log) :
    ∃ own topics all types plain data, OwnTopics e own ∧
      Separates e.inputs all args topics types plain ∧ encode types plain = .ok data ∧
      log = ⟨address, own ++ topics, data⟩ := by
  unfold encodeLog at encoded
  split at encoded
  · contradiction
  · next same =>
    cases anonymous : e.anonymous with
    | true =>
        simp only [anonymous, if_true, bind_eq_ok, pure_eq_ok] at encoded
        obtain ⟨_, rfl, ⟨topics, types, plain⟩, separated, data, written, rfl⟩ := encoded
        obtain ⟨all, separates⟩ := separates_of_separate (not_not.mp same) separated
        refine ⟨[], topics, all, types, plain, data, ?_, separates, written, rfl⟩
        rw [OwnTopics, if_pos anonymous]
    | false =>
        simp only [anonymous, Bool.false_eq_true, if_false, bind_eq_ok, map_eq_ok, pure_eq_ok]
          at encoded
        obtain ⟨_, ⟨topic, found, rfl⟩, ⟨topics, types, plain⟩, separated, data, written, rfl⟩ :=
          encoded
        obtain ⟨all, separates⟩ := separates_of_separate (not_not.mp same) separated
        refine ⟨[topic], topics, all, types, plain, data, ?_, separates, written, rfl⟩
        rw [OwnTopics, anonymous]
        exact ⟨topic, found, rfl⟩

theorem OwnTopics.dropped {e : Event} {own : List Bytes32} (owned : OwnTopics e own)
    (topics : List Bytes32) :
    (if e.anonymous then own ++ topics else (own ++ topics).drop 1) = topics := by
  unfold OwnTopics at owned
  split at owned
  · next anonymous => rw [if_pos anonymous, owned, List.nil_append]
  · next named =>
    obtain ⟨topic, _, rfl⟩ := owned
    rw [if_neg named]
    rfl

/-- The log that an event encodes is read by the same event as its arguments under their
names. -/
theorem decodeLog_of_encodeLog {e : Event} {address : Address} {args : List Json} {log : Log}
    {all : List AbiType} (encoded : e.encodeLog address args = .ok log)
    (typed : typesOf e.inputs = .ok all)
    (takesRoom : AbiType.AllEverywhere AbiType.ItemsTakeRoom all)
    (fits : AllLeaves SignedFits all args) (small : log.data.length ≤ greatestPosition) :
    e.decodeLog log = .ok ⟨e.name, labelled 0 e.inputs all args⟩ := by
  obtain ⟨own, topics, others, types, plain, data, owned, separates, written, rfl⟩ :=
    encodeLog_eq_ok encoded
  rw [separates.typesOf_params] at typed
  cases typed
  have fitsWord := fitsWord_of_typesOf separates.typesOf_params
  have values : decode types data = .ok (canonicalForms types plain) :=
    decode_of_standsAt (separates.allEverywhere fitsWord) (separates.allEverywhere takesRoom)
      (separates.allLeaves fits) written (standsAt_self data) small
  rw [decodeLog, paramTypes, separates.typesOf_plain]
  simp only [Except.mapError, ok_bind, values, owned.dropped topics,
    collect_of_separates e.name separates fitsWord fits 0]
  rfl

/-! Which event reads a log. -/

/-- The event is not anonymous, and the log begins with its topic. -/
def Heads (e : Event) (log : Log) : Prop :=
  e.anonymous = false ∧ ∃ topic, log.topics.head? = some topic ∧ e.topic = .ok topic

theorem heads_of_encodeLog {e : Event} {address : Address} {args : List Json} {log : Log}
    (named : e.anonymous = false) (encoded : e.encodeLog address args = .ok log) :
    e.Heads log := by
  obtain ⟨own, topics, _, _, _, _, owned, _, _, rfl⟩ := encodeLog_eq_ok encoded
  rw [OwnTopics, named] at owned
  obtain ⟨topic, found, rfl⟩ := owned
  exact ⟨named, topic, rfl, found⟩

theorem address_of_encodeLog {e : Event} {address : Address} {args : List Json} {log : Log}
    (encoded : e.encodeLog address args = .ok log) : log.address = address := by
  obtain ⟨_, _, _, _, _, _, _, _, _, rfl⟩ := encodeLog_eq_ok encoded
  rfl

theorem hasTopic_iff {e : Event} {topic : Bytes32} :
    e.hasTopic topic = true ↔ e.topic = .ok topic := by
  unfold hasTopic
  cases e.topic with
  | ok own => simp
  | error fault => simp

end Event

end Abi

open Abi in
theorem Interface.decodeLog?_eq_some {interface : Interface} {log : Log}
    {result : Result DecodedLog} :
    interface.decodeLog? log = some result ↔
      ∃ e, FirstIn (fun e => e.Heads log) interface.events e ∧ e.decodeLog log = result := by
  unfold Interface.decodeLog? Event.Heads
  cases log.topics.head? with
  | none => simp [FirstIn]
  | some topic =>
      have decides : ∀ e : Event, (!e.anonymous && e.hasTopic topic) = true ↔
          e.anonymous = false ∧ ∃ other, some topic = some other ∧ e.topic = .ok other := by
        simp [Event.hasTopic_iff]
      simp only [Option.pure_def, Option.bind_eq_bind, Option.bind_some, Option.bind_eq_some_iff,
        find?_eq_some_iff_firstIn decides, Option.some_inj]

end Rehearsal
