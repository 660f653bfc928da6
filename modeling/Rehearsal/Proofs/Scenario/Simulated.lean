import Rehearsal.Chain.Simulation
import Rehearsal.Proofs.Scenario.Emission
import Rehearsal.Proofs.Scenario.Stepping

namespace Rehearsal

open AbiType (AllEverywhere FitsWord ItemsTakeRoom)
open Abi (SignedFits AllLeaves canonicalForms typesOf)

/-! A call step on a simulated chain reports what the contract does. Values and events pass through
the encoding on their way, so each is reported in the form that decoding gives it. -/

namespace Abi

def outputsOf : List AbiType → Json → List Json
  | [], _ => []
  | [_], value => [value]
  | _, value => outputValues value

theorem Function.encodeOutput_eq_ok {f : Function} {value : Json} {data : List UInt8} :
    f.encodeOutput value = .ok data ↔
      ∃ types, typesOf f.outputs = .ok types ∧ encode types (outputsOf types value) = .ok data := by
  unfold Function.encodeOutput paramTypes
  cases typesOf f.outputs with
  | error fault => simp [Except.mapError, bind, Except.bind]
  | ok types =>
      match types with
      | [] => simp [Except.mapError, ok_bind, outputsOf, encode, encodePieces, pure, Except.pure,
          AbiType.headLengths, assemble, heads, tails]
      | [type] => simp [Except.mapError, ok_bind, outputsOf]
      | first :: second :: rest => simp [Except.mapError, ok_bind, outputsOf]

end Abi

namespace Simulation

variable {κ : Type}

theorem roundTrip_eq_ok {f : Abi.Function} {value : Json} {data : List UInt8}
    {types : List AbiType} (typed : typesOf f.outputs = .ok types)
    (encoded : f.encodeOutput value = .ok data)
    (takesRoom : AllEverywhere ItemsTakeRoom types)
    (fits : AllLeaves SignedFits types (Abi.outputsOf types value))
    (small : data.length ≤ 2 ^ 32 - 1) :
    roundTrip f value =
      .ok (Abi.outputValue (canonicalForms types (Abi.outputsOf types value))) := by
  obtain ⟨others, typedAgain, written⟩ := Abi.Function.encodeOutput_eq_ok.mp encoded
  rw [typed] at typedAgain
  cases typedAgain
  have values := Abi.decode_of_standsAt (Abi.fitsWord_of_typesOf typed) takesRoom fits written
    (Abi.standsAt_self data) small
  have decoded : f.decodeOutput data =
      .ok (Abi.outputValue (canonicalForms types (Abi.outputsOf types value))) := by
    rw [Abi.Function.decodeOutput, Abi.paramTypes, typed]
    simp only [Except.mapError, ok_bind, values]
    rfl
  rw [roundTrip, encoded]
  simp only [Abi.Result.onChain, Except.mapError, ok_bind, decoded]

/-! Invocations. -/

/-- A contract that can be reached answers arguments that can be encoded with an output. -/
structure Answers (s : Simulation κ) (ledger : Ledger κ) (handle : Handle) (f : Abi.Function)
    (args : List Json) (options : CallOptions) (output : Output) : Prop where
  reachable : f.name ∉ s.unreachable
  accepted : ∃ data, f.encodeCall args = .ok data
  answered : ∃ contract, find? handle.address ledger.contracts = some contract ∧
    (s.answer contract ⟨f.name, args, options.sender, options.value.getD 0, handle.address⟩).1 =
      .ok output

variable {s : Simulation κ} {ledger : Ledger κ} {handle : Handle} {f : Abi.Function}
  {args : List Json} {options : CallOptions} {output : Output}

theorem Answers.checkCall (answers : s.Answers ledger handle f args options output) :
    s.checkCall f args = .ok () := by
  obtain ⟨data, accepted⟩ := answers.accepted
  have reached : s.reach f.name = .ok () :=
    if_neg (by simpa using answers.reachable)
  rw [Simulation.checkCall, reached, accepted]
  rfl

theorem Answers.invoke (answers : s.Answers ledger handle f args options output) (kind : Kind) :
    (s.invoke kind handle f args options ledger).1 = .ok output := by
  obtain ⟨contract, found, answer⟩ := answers.answered
  simp only [Simulation.invoke, answers.checkCall, found, answer]

theorem Answers.call (answers : s.Answers ledger handle f args options output) :
    (s.call handle f args options ledger).1 = roundTrip f output.value := by
  simp only [Simulation.call, answers.invoke]
  rfl

theorem Answers.send (answers : s.Answers ledger handle f args options output)
    (kept : f.name ∉ s.revertedLate) {logs : List Abi.Log}
    (told : logsOf handle output.events = .ok logs) :
    ∃ receipt : Receipt, (s.send handle f args options ledger).1 = .ok receipt ∧
      receipt.reverted = false ∧ receipt.logs = logs := by
  have notLate : ¬s.revertedLate.contains f.name = true := by simpa using kept
  have bound : ((s.invoke .send handle f args options ledger).1.bind fun output =>
      logsOf handle output.events) = .ok logs := by
    rw [answers.invoke]
    exact told
  rw [Simulation.send, if_neg notLate]
  simp only [bound]
  exact ⟨_, rfl, rfl, rfl⟩

/-! Events. -/

/-- A log tells an event of a contract: the event is declared and not anonymous, no other declared
event has its topic, its parameters go by different names, and its arguments can be encoded, are
in range, and leave short data. -/
structure Telling (handle : Handle) (event : String × List Json) (e : Abi.Event) (log : Abi.Log) :
    Prop where
  declared : handle.interface.event? event.1 = some e
  named : e.anonymous = false
  alone : ∀ other ∈ handle.interface.events, other.anonymous = false → other.topic = e.topic →
    other = e
  distinct : (e.inputs.mapIdx fun i param => param.label i).Nodup
  encoded : e.encodeLog handle.address event.2 = .ok log
  takesRoom : ∀ types, typesOf e.inputs = .ok types → AllEverywhere ItemsTakeRoom types
  fits : ∀ types, typesOf e.inputs = .ok types → AllLeaves SignedFits types event.2
  small : log.data.length ≤ 2 ^ 32 - 1

/-- An event is reported by its name and the contract's address, and every argument under the name
of its parameter, in canonical form or as the topic that its hash is. -/
structure Reports (handle : Handle) (event : String × List Json) (e : Abi.Event)
    (emitted : EmittedEvent) : Prop where
  name : emitted.name = event.1
  address : emitted.address = handle.address
  count : event.2.length = e.inputs.length
  args : ∀ (i : Nat) param, e.inputs[i]? = some param → ∃ type value,
    param.type = .ok type ∧ event.2[i]? = some value ∧
      emitted.args.get? (param.label i) = some (param.form type value)

theorem Telling.eventOf? {context : Context} {event : String × List Json} {e : Abi.Event}
    {log : Abi.Log} (telling : Telling handle event e log)
    (stands : context.contractAt? handle.address = some handle) :
    ∃ emitted, Execution.eventOf? context log = some emitted ∧ Reports handle event e emitted := by
  have heads := Abi.Event.heads_of_encodeLog telling.named telling.encoded
  have address := Abi.Event.address_of_encodeLog telling.encoded
  have member : e ∈ handle.interface.events := List.mem_of_find?_eq_some telling.declared
  have name : e.name = event.1 := by simpa using List.find?_some telling.declared
  -- The reader takes the first event that heads the log, and no other event has this topic.
  obtain ⟨other, first⟩ : ∃ other, FirstIn (fun e => e.Heads log) handle.interface.events other :=
    exists_firstIn member heads
  have same : other = e := by
    obtain ⟨otherMember, otherNamed, topic, begins, found⟩ := first.member
    obtain ⟨-, own, ownBegins, ownFound⟩ := heads
    rw [begins] at ownBegins
    cases ownBegins
    exact telling.alone other otherMember otherNamed (by rw [found, ownFound])
  obtain ⟨own, topics, all, types, plain, data, owned, separates, written, rfl⟩ :=
    Abi.Event.encodeLog_eq_ok telling.encoded
  have typed := separates.typesOf_params
  have read := Abi.Event.decodeLog_of_encodeLog telling.encoded typed (telling.takesRoom all typed)
    (telling.fits all typed) telling.small
  refine ⟨_, Execution.eventOf?_eq_some.mpr
    ⟨handle, e, _, ⟨Context.contractAt?_eq_some.mp stands, same ▸ first⟩, read, rfl⟩, ?_⟩
  have labels : ((Abi.labelled 0 e.inputs all event.2).map Prod.fst).Nodup := by
    rw [Abi.labels_labelled typed separates.length_eq]
    simpa using telling.distinct
  refine ⟨name, rfl, separates.length_eq, fun i param parameter => ?_⟩
  obtain ⟨type, value, typed, given, found⟩ :=
    Abi.getElem?_labelled typed separates.length_eq parameter 0
  rw [Nat.zero_add] at found
  exact ⟨type, value, typed, given,
    Json.Mapping.get?_ofList labels (List.mem_of_getElem? found)⟩

theorem logsOf_eq_ok {events : List (String × List Json)}
    (told : ∀ event ∈ events, ∃ e log, Telling handle event e log) :
    ∃ logs, logsOf handle events = .ok logs ∧
      List.Forall₂ (fun event log => ∃ e, Telling handle event e log) events logs := by
  induction events with
  | nil => exact ⟨[], rfl, .nil⟩
  | cons event rest ih =>
      obtain ⟨e, log, telling⟩ := told event List.mem_cons_self
      obtain ⟨logs, others, each⟩ := ih fun other member => told other (List.mem_cons_of_mem _ member)
      refine ⟨log :: logs, ?_, .cons ⟨e, telling⟩ each⟩
      rw [logsOf, telling.declared]
      simp only [telling.encoded, Abi.Result.onChain, Except.mapError, ok_bind, others]
      rfl

theorem eventsOf_reports {context : Context} {events : List (String × List Json)}
    {logs : List Abi.Log} (stands : context.contractAt? handle.address = some handle)
    (told : List.Forall₂ (fun event log => ∃ e, Telling handle event e log) events logs) :
    List.Forall₂ (fun event emitted => ∃ e, handle.interface.event? event.1 = some e ∧
      Reports handle event e emitted) events (Execution.eventsOf context logs) := by
  induction told with
  | nil => exact .nil
  | cons first rest ih =>
      obtain ⟨e, telling⟩ := first
      obtain ⟨emitted, shown, reports⟩ := telling.eventOf? stands
      rw [Execution.eventsOf, List.filterMap_cons_some shown]
      exact .cons ⟨e, telling.declared, reports⟩ ih

/-! Steps. -/

theorem execute_call {step : Step} {context : Context} {now : Nat}
    (planned : step.plan context now = .ok (.call handle f args options)) :
    ((step.execute s.chain now context).run ledger).1 =
      (.ok ⟨if f.isReadOnly then Execution.called handle (s.call handle f args options ledger).1
        else Execution.sent context handle (s.send handle f args options ledger).1,
        options.sender⟩, context) := by
  rw [Step.execute, planned]
  cases reads : f.isReadOnly with
  | true => simp only [Execution.perform, reads]; rfl
  | false => simp only [Execution.perform, reads]; rfl

theorem contractAt?_of_alone {context : Context} {name : String}
    (member : (name, handle) ∈ context.contracts)
    (alone : ∀ entry ∈ context.contracts, entry.2.address = handle.address → entry.2 = handle) :
    context.contractAt? handle.address = some handle := by
  obtain ⟨⟨other, found⟩, first⟩ : ∃ entry, FirstIn
      (fun entry : String × Handle => entry.2.address = handle.address) context.contracts entry :=
    exists_firstIn member rfl
  have same : found = handle := alone (other, found) first.member.1 first.member.2
  exact Context.contractAt?_eq_some.mpr ⟨other, same ▸ first⟩

/-- A call step succeeds with what the contract answers: the value, for a function that only reads,
and exactly its events in their order, for any other. -/
theorem execute_reports_answer {step : Step} {context : Context} {now : Nat}
    (planned : step.plan context now = .ok (.call handle f args options))
    (alone : ∀ entry ∈ context.contracts, entry.2.address = handle.address → entry.2 = handle)
    (answers : s.Answers ledger handle f args options output) (kept : f.name ∉ s.revertedLate) :
    ∃ outcome : Outcome,
      ((step.execute s.chain now context).run ledger).1 = (.ok ⟨outcome, options.sender⟩, context) ∧
      (f.isReadOnly = true → ∀ types data, typesOf f.outputs = .ok types →
        f.encodeOutput output.value = .ok data → AllEverywhere ItemsTakeRoom types →
        AllLeaves SignedFits types (Abi.outputsOf types output.value) → data.length ≤ 2 ^ 32 - 1 →
        outcome.succeeded = true ∧ outcome.returnValue =
          some (Abi.outputValue (canonicalForms types (Abi.outputsOf types output.value)))) ∧
      (f.isReadOnly = false → (∀ event ∈ output.events, ∃ e log, Telling handle event e log) →
        outcome.succeeded = true ∧
          List.Forall₂ (fun event emitted => ∃ e, handle.interface.event? event.1 = some e ∧
            Reports handle event e emitted) output.events outcome.emittedEvents) := by
  refine ⟨_, execute_call planned, ?_, ?_⟩
  · intro reads types data typed encoded takesRoom fits small
    rw [if_pos reads, answers.call, roundTrip_eq_ok typed encoded takesRoom fits small]
    exact ⟨rfl, rfl⟩
  · intro writes told
    obtain ⟨name, _, _, -, known⟩ := Step.action_of_plan_call planned
    have stands := contractAt?_of_alone (Context.mem_of_contract known) alone
    obtain ⟨logs, left, each⟩ := logsOf_eq_ok told
    obtain ⟨receipt, sent, included, rfl⟩ := answers.send kept left
    have notReads : ¬f.isReadOnly = true := by simp [writes]
    have shown := Execution.Left.sent context handle included
    rw [if_neg notReads, sent, shown.emittedEvents]
    exact ⟨by simp [Execution.sent, included, Outcome.withReceipt, Outcome.success],
      eventsOf_reports stands each⟩

def counting : Simulation Nat where
  accounts := 1
  artifacts := []
  answer count _ := (.ok ⟨Json.ofNat count, [("Counted", [Json.ofNat count])]⟩, count + 1)
  unreachable := []
  revertedLate := []

def counted : Abi.Event := ⟨"Counted", [⟨"", "int8", [], false⟩], false⟩

def count (mutability : Abi.Mutability) : Abi.Function :=
  ⟨"count", [], [⟨"", "uint256", [], false⟩], mutability, none⟩

def counter (mutability : Abi.Mutability) : Handle :=
  ⟨"Counter", .zero, ⟨[.function (count mutability), .event counted]⟩⟩

def besideCounter (mutability : Abi.Mutability) : Context :=
  ⟨[("counter", counter mutability)], [("signer0", .zero)], some "signer0", []⟩

theorem plan_count (mutability : Abi.Mutability) :
    (Step.call "counter" "count").plan (besideCounter mutability) 0 =
      .ok (.call (counter mutability) (count mutability) [] ⟨.zero, none⟩) := rfl

theorem answers_count (mutability : Abi.Mutability) :
    counting.Answers ⟨0, 0, [(.zero, 7)], []⟩ (counter mutability) (count mutability) []
      ⟨.zero, none⟩ ⟨Json.ofNat 7, [("Counted", [Json.ofNat 7])]⟩ where
  reachable := List.not_mem_nil
  accepted := ⟨_, rfl⟩
  answered := ⟨7, rfl, rfl⟩

theorem alone_counter (mutability : Abi.Mutability) :
    ∀ entry ∈ (besideCounter mutability).contracts,
      entry.2.address = (counter mutability).address → entry.2 = counter mutability := by
  intro entry member _
  rw [List.mem_singleton.mp member]

theorem telling_counted (mutability : Abi.Mutability) :
    ∃ log, Telling (counter mutability) ("Counted", [Json.ofNat 7]) counted log := by
  obtain ⟨log, encoded, short⟩ : ∃ log, counted.encodeLog .zero [Json.ofNat 7] = .ok log ∧
      log.data.length = 32 := ⟨_, rfl, rfl⟩
  refine ⟨log, ⟨rfl, rfl, ?_, by simp [counted], encoded, ?_, ?_, by omega⟩⟩
  · intro other member _ _
    exact List.mem_singleton.mp member
  · intro types typed
    cases typed
    simp [AllEverywhere, AbiType.Everywhere, ItemsTakeRoom]
  · intro types typed
    cases typed
    simp only [AllLeaves, Abi.EachLeaf, SignedFits]
    decide

theorem execute_reports_counter :
    (∃ outcome : Outcome, (((Step.call "counter" "count").execute counting.chain 0
        (besideCounter .view)).run ⟨0, 0, [(.zero, 7)], []⟩).1 =
          (.ok ⟨outcome, .zero⟩, besideCounter .view) ∧
        outcome.succeeded = true ∧ outcome.returnValue = some (.string "7")) ∧
      ∃ outcome : Outcome, (((Step.call "counter" "count").execute counting.chain 0
        (besideCounter .nonpayable)).run ⟨0, 0, [(.zero, 7)], []⟩).1 =
          (.ok ⟨outcome, .zero⟩, besideCounter .nonpayable) ∧
        outcome.succeeded = true ∧ ∃ emitted, outcome.emittedEvents = [emitted] ∧
          emitted.args.get? "arg0" = some (.string "7") := by
  constructor
  · obtain ⟨outcome, executed, value, -⟩ := execute_reports_answer (plan_count .view)
      (alone_counter .view) (answers_count .view) List.not_mem_nil
    obtain ⟨data, encoded, short⟩ : ∃ data, (count .view).encodeOutput (Json.ofNat 7) = .ok data ∧
        data.length = 32 := ⟨_, rfl, rfl⟩
    have told := value rfl [.uint 256] data rfl encoded (by simp [AllEverywhere,
      AbiType.Everywhere, ItemsTakeRoom]) ⟨trivial, trivial⟩ (by omega)
    exact ⟨outcome, executed, told⟩
  · obtain ⟨outcome, executed, -, events⟩ := execute_reports_answer (plan_count .nonpayable)
      (alone_counter .nonpayable) (answers_count .nonpayable) List.not_mem_nil
    have each : ∀ event ∈ [("Counted", [Json.ofNat 7])], ∃ e log,
        Telling (counter .nonpayable) event e log :=
      List.forall_mem_singleton.mpr ⟨counted, telling_counted .nonpayable⟩
    obtain ⟨succeeded, reported⟩ := events rfl each
    obtain ⟨emitted, rest, ⟨e, declared, reports⟩, others, whole⟩ :=
      List.forall₂_cons_left_iff.mp reported
    cases declared
    cases List.forall₂_nil_left_iff.mp others
    obtain ⟨type, value, typed, given, found⟩ := reports.args 0 _ rfl
    cases typed
    cases given
    exact ⟨outcome, executed, succeeded, emitted, whole, found⟩

end Simulation

end Rehearsal
