import Rehearsal.Proofs.Abi.LogRoundTrip

namespace Rehearsal.Abi.Event

/-! The arguments that a log tells, by their positions. Indexed arguments are taken from the topics
and the others from the data, each kind in declared order, so that every argument comes back at its
own position. Of the hash that the topics are made with nothing is used. -/

def topicPosition (e : Event) (i : Nat) : Nat :=
  (if e.anonymous then 0 else 1) + (e.inputs.take i).countP Param.indexed

/-- What a log tells of the argument at a position: its topic as it stands there if that is a hash,
or else its canonical form. -/
structure Tells (e : Event) (log : Log) (i : Nat) (param : Param) (type : AbiType)
    (value told : Json) : Prop where
  topic : param.indexed = true → type.isHashedInTopic = true → ∃ topic,
    log.topics[e.topicPosition i]? = some topic ∧ told = .string (Hex.marked topic.toList)
  canonical : param.indexed = false ∨ type.isHashedInTopic = false →
    told = canonicalForm type value

theorem Separates.getElem?_topics {params : List Param} {all types : List AbiType}
    {values plain : List Json} {topics : List Bytes32}
    (separates : Separates params all values topics types plain) {i : Nat} {param : Param}
    {type : AbiType} {value : Json} (parameter : params[i]? = some param)
    (indexed : param.indexed = true) (typed : param.type = .ok type)
    (given : values[i]? = some value) :
    ∃ topic, topics[(params.take i).countP Param.indexed]? = some topic ∧
      topicOf type value = .ok topic := by
  induction separates generalizing i with
  | nil => contradiction
  | indexed marked headTyped told rest ih =>
      cases i with
      | zero =>
          cases parameter
          cases given
          cases headTyped.symm.trans typed
          exact ⟨_, rfl, told⟩
      | succ i =>
          rw [List.take_succ_cons, List.countP_cons_of_pos marked, List.getElem?_cons_succ]
          exact ih parameter given
  | plain unmarked headTyped rest ih =>
      cases i with
      | zero =>
          cases parameter
          rw [unmarked] at indexed
          contradiction
      | succ i =>
          rw [List.take_succ_cons, List.countP_cons_of_neg (by simp [unmarked])]
          exact ih parameter given

theorem OwnTopics.length_eq {e : Event} {own : List Bytes32} (owned : OwnTopics e own) :
    own.length = if e.anonymous then 0 else 1 := by
  unfold OwnTopics at owned
  split at owned
  · next anonymous => rw [owned, if_pos anonymous, List.length_nil]
  · next named =>
    obtain ⟨topic, -, rfl⟩ := owned
    rw [if_neg named, List.length_singleton]

theorem exists_topic {e : Event} {address : Address} {args : List Json} {log : Log} {i : Nat}
    {param : Param} {type : AbiType} {value : Json} (encoded : e.encodeLog address args = .ok log)
    (parameter : e.inputs[i]? = some param) (indexed : param.indexed = true)
    (typed : param.type = .ok type) (given : args[i]? = some value) :
    ∃ topic, log.topics[e.topicPosition i]? = some topic ∧ topicOf type value = .ok topic := by
  obtain ⟨own, topics, all, types, plain, data, owned, separates, -, rfl⟩ :=
    encodeLog_eq_ok encoded
  obtain ⟨topic, found, told⟩ := separates.getElem?_topics parameter indexed typed given
  refine ⟨topic, ?_, told⟩
  rw [topicPosition, ← owned.length_eq, List.getElem?_append_right (Nat.le_add_right _ _),
    Nat.add_sub_cancel_left]
  exact found

theorem tells_form {e : Event} {address : Address} {args : List Json} {log : Log} {i : Nat}
    {param : Param} {type : AbiType} {value : Json}
    (encoded : e.encodeLog address args = .ok log) (parameter : e.inputs[i]? = some param)
    (typed : param.type = .ok type) (given : args[i]? = some value) :
    e.Tells log i param type value (param.form type value) := by
  constructor
  · intro indexed hashed
    obtain ⟨topic, stands, told⟩ := exists_topic encoded parameter indexed typed given
    refine ⟨topic, stands, ?_⟩
    rw [Param.form, if_pos indexed, topicForm, if_pos hashed, told]
  · rintro (plain | notHashed)
    · rw [Param.form, plain, if_neg Bool.false_ne_true]
    · rw [Param.form, topicForm, notHashed, if_neg Bool.false_ne_true, ite_self]

theorem decodeLog?_of_encodeLog {interface : Interface} {e : Event} {front back : List Event}
    {address : Address} {args : List Json} {log : Log} {decoded : DecodedLog}
    (events : interface.events = front ++ e :: back) (named : e.anonymous = false)
    (first : ∀ other ∈ front, other.anonymous = false → other.topic ≠ e.topic)
    (encoded : e.encodeLog address args = .ok log) (read : e.decodeLog log = .ok decoded) :
    interface.decodeLog? log = some (.ok decoded) := by
  have heads := heads_of_encodeLog named encoded
  refine Interface.decodeLog?_eq_some.mpr ⟨e, ⟨front, back, events, heads, ?_⟩, read⟩
  rintro other member ⟨otherNamed, topic, begins, found⟩
  obtain ⟨-, own, ownBegins, ownFound⟩ := heads
  apply first other member otherNamed
  rw [begins] at ownBegins
  cases ownBegins
  rw [found, ownFound]

/-- The log that an event makes of arguments is read as these arguments, each at its position and
under its name, by the event itself and by every interface in which no event before it has its
topic. -/
theorem log_reads_back {e : Event} {address : Address} {args : List Json} {log : Log}
    {types : List AbiType} (typed : typesOf e.inputs = .ok types)
    (takesRoom : AbiType.AllEverywhere AbiType.ItemsTakeRoom types)
    (fits : AllLeaves SignedFits types args) (encoded : e.encodeLog address args = .ok log)
    (small : log.data.length ≤ 2 ^ 32 - 1) :
    ∃ told : List (String × Json), e.decodeLog log = .ok ⟨e.name, told⟩ ∧
      told.length = e.inputs.length ∧ args.length = e.inputs.length ∧
      (∀ i param, e.inputs[i]? = some param → ∃ type value argument, param.type = .ok type ∧
        args[i]? = some value ∧ told[i]? = some (param.label i, argument) ∧
          e.Tells log i param type value argument) ∧
      ∀ (interface : Interface) (front back : List Event),
        interface.events = front ++ e :: back → e.anonymous = false →
        (∀ other ∈ front, other.anonymous = false → other.topic ≠ e.topic) →
        interface.decodeLog? log = some (.ok ⟨e.name, told⟩) := by
  have read := decodeLog_of_encodeLog encoded typed takesRoom fits small
  obtain ⟨own, topics, all, plainTypes, plain, data, -, separates, -, -⟩ := encodeLog_eq_ok encoded
  have same := separates.length_eq
  refine ⟨_, read, ?_, same, ?_, ?_⟩
  · have labels := congrArg List.length (labels_labelled typed same 0)
    rwa [List.length_map, List.length_mapIdx] at labels
  · intro i param parameter
    obtain ⟨type, value, paramTyped, given, found⟩ := getElem?_labelled typed same parameter 0
    rw [Nat.zero_add] at found
    exact ⟨type, value, _, paramTyped, given, found, tells_form encoded parameter paramTyped given⟩
  · intro interface front back events named first
    exact decodeLog?_of_encodeLog events named first encoded read

def mixed : Event :=
  ⟨"Mixed", [⟨"", "string", [], true⟩, ⟨"n", "int", [], false⟩, ⟨"who", "uint", [], true⟩,
    ⟨"", "bytes", [], false⟩], false⟩

def mixedTypes : List AbiType :=
  [.string, .int 256, .uint 256, .bytes]

def mixedArgs : List Json :=
  [.string "text", .string "-0x1", .string " 7", .string "0xAB"]

theorem log_reads_back_of_mixed :
    ∃ log topic told, mixed.encodeLog .zero mixedArgs = .ok log ∧ log.topics[1]? = some topic ∧
      (⟨[.event { mixed with anonymous := true }, .event mixed]⟩ : Interface).decodeLog? log =
        some (.ok ⟨"Mixed", told⟩) ∧ told.length = 4 ∧
      told[0]? = some ("arg0", .string (Hex.marked topic.toList)) ∧
      told[1]? = some ("n", .string "-1") ∧ told[2]? = some ("who", .string "7") ∧
      told[3]? = some ("arg3", .string "0xab") := by
  obtain ⟨log, encoded, short⟩ : ∃ log, mixed.encodeLog .zero mixedArgs = .ok log ∧
      log.data.length = 128 := ⟨_, rfl, rfl⟩
  have takesRoom : AbiType.AllEverywhere AbiType.ItemsTakeRoom mixedTypes := by
    simp [mixedTypes, AbiType.AllEverywhere, AbiType.Everywhere, AbiType.ItemsTakeRoom]
  have denoted : integerOf (.string "-0x1") = -1 := rfl
  have fits : AllLeaves SignedFits mixedTypes mixedArgs := by
    simp [mixedTypes, mixedArgs, AllLeaves, EachLeaf, SignedFits, denoted]
  obtain ⟨told, -, length, -, each, reads⟩ := log_reads_back rfl takesRoom fits encoded (by omega)
  have known := reads ⟨[.event { mixed with anonymous := true }, .event mixed]⟩
    [{ mixed with anonymous := true }] [] rfl rfl (by simp)
  obtain ⟨_, _, _, typed, given, text, tells⟩ := each 0 _ rfl
  cases typed
  cases given
  obtain ⟨topic, stands, rfl⟩ := tells.topic rfl rfl
  obtain ⟨_, _, _, typed, given, number, tells⟩ := each 1 _ rfl
  cases typed
  cases given
  cases tells.canonical (.inl rfl)
  obtain ⟨_, _, _, typed, given, word, tells⟩ := each 2 _ rfl
  cases typed
  cases given
  cases tells.canonical (.inr rfl)
  obtain ⟨_, _, _, typed, given, octets, tells⟩ := each 3 _ rfl
  cases typed
  cases given
  cases tells.canonical (.inl rfl)
  exact ⟨log, topic, told, encoded, stands, known, length, text, number, word, octets⟩

end Rehearsal.Abi.Event
