import Rehearsal.Proofs.Chain.Turn

namespace Rehearsal.Simulation

/-! A transaction that fails. Nothing is left of it when it fails before its contract answers or by
the contract's refusal. Behind an answer nothing is taken back: where only the events cannot be
written as logs, the contract has moved on although the sender sees an error. -/

variable {κ : Type} {s : Simulation κ} {ledger left : Ledger κ} {handle : Handle}
  {f : Abi.Function} {args : List Json} {options : CallOptions} {e : ChainError}

/-- A contract that refuses a call stays as it is. -/
def Steady (s : Simulation κ) : Prop :=
  ∀ contract call reason, (s.answer contract call).1 = .error reason →
    (s.answer contract call).2 = contract

/-- The contracts and the number of blocks are as before, and whatever was recorded since is
recorded as reverted. -/
structure Undone (ledger left : Ledger κ) : Prop where
  contracts : left.contracts = ledger.contracts
  height : left.height = ledger.height
  reverted : ∃ made, left.invocations = ledger.invocations ++ made ∧
    ∀ invocation ∈ made, invocation.reverted = true

/-- An event that leaves no log: it is not declared, or it cannot be encoded. -/
inductive Unwritable (handle : Handle) : String × List Json → ChainError → Prop where
  | undeclared {name : String} {args : List Json} (missing : handle.interface.event? name = none) :
      Unwritable handle (name, args) (.abi (.undeclaredEvent name))
  | unencoded {name : String} {args : List Json} {event : Abi.Event} {fault : Abi.Fault}
      (declared : handle.interface.event? name = some event)
      (fails : event.encodeLog handle.address args = .error fault) :
      Unwritable handle (name, args) (.ofAbi fault)

/-- The contract of a handle has answered and stands as its answer has left it, next to the other
contracts as before, in no new block; but the events of the answer fail. -/
structure Kept (s : Simulation κ) (ledger left : Ledger κ) (handle : Handle) (call : Call)
    (e : ChainError) (contract : κ) (output : Output) : Prop where
  found : find? handle.address ledger.contracts = some contract
  answered : (s.answer contract call).1 = .ok output
  unwritable : ∃ event ∈ output.events, Unwritable handle event e
  moved : find? handle.address left.contracts = some (s.answer contract call).2
  others : ∀ address, address ≠ handle.address →
    find? address left.contracts = find? address ledger.contracts
  height : left.height = ledger.height

theorem Undone.refl (ledger : Ledger κ) : Undone ledger ledger :=
  ⟨rfl, rfl, [], by simp, by simp⟩

theorem exists_unwritable {events : List (String × List Json)}
    (fails : logsOf handle events = .error e) : ∃ event ∈ events, Unwritable handle event e := by
  induction events with
  | nil => contradiction
  | cons event rest ih =>
      obtain ⟨name, args⟩ := event
      rw [logsOf] at fails
      split at fails
      · next missing =>
        cases fails
        exact ⟨_, List.mem_cons_self, .undeclared missing⟩
      · next event declared =>
        cases encoded : event.encodeLog handle.address args with
        | error fault =>
            simp only [encoded, Abi.Result.onChain, Except.mapError] at fails
            cases fails
            exact ⟨_, List.mem_cons_self, .unencoded declared encoded⟩
        | ok log =>
            simp only [encoded, Abi.Result.onChain, Except.mapError, ok_bind] at fails
            cases others : logsOf handle rest with
            | error other =>
                rw [others] at fails
                cases fails
                obtain ⟨event, member, unwritable⟩ := ih others
                exact ⟨event, List.mem_cons_of_mem _ member, unwritable⟩
            | ok logs =>
                rw [others] at fails
                cases fails

theorem undone_answered {kind : Kind} {contract : κ} {call : Call} {reason : String}
    (steady : s.Steady) (found : find? call.this ledger.contracts = some contract)
    (refuses : (s.answer contract call).1 = .error reason) :
    Undone ledger (ledger.answered s kind contract call) where
  contracts := by
    change put call.this (s.answer contract call).2 ledger.contracts = ledger.contracts
    rw [steady contract call reason refuses]
    exact put_of_find? found
  height := rfl
  reverted := by
    refine ⟨_, rfl, ?_⟩
    intro invocation member
    rw [List.mem_singleton.mp member, refuses]
    rfl

theorem kept_answered {kind : Kind} {contract : κ} {output : Output}
    (found : find? handle.address ledger.contracts = some contract)
    (answers : (s.answer contract (callOf handle f args options)).1 = .ok output)
    (fails : logsOf handle output.events = .error e) :
    Kept s ledger (ledger.answered s kind contract (callOf handle f args options)) handle
      (callOf handle f args options) e contract output where
  found := found
  answered := answers
  unwritable := exists_unwritable fails
  moved := by
    change find? handle.address (put handle.address _ ledger.contracts) = _
    rw [find?_put, if_pos rfl]
  others := by
    intro address differs
    change find? address (put handle.address _ ledger.contracts) = _
    rw [find?_put, if_neg (Ne.symm differs)]
  height := rfl

/-- A transaction that fails leaves nothing behind, unless its contract has answered with an event
that cannot be written. Then the contract keeps what its answer made of it. -/
theorem undone_or_kept_of_send (steady : s.Steady)
    (failed : s.send handle f args options ledger = (.error e, left)) :
    Undone ledger left ∨
      ∃ contract output, Kept s ledger left handle (callOf handle f args options) e contract
        output := by
  have turn := s.turn_send ledger handle f args options
  rw [failed] at turn
  cases turn with
  | refused => exact .inl (.refl _)
  | reverted found refuses => exact .inl (undone_answered steady found refuses)
  | untold found answers fails => exact .inr ⟨_, _, kept_answered found answers fails⟩

def till : Simulation Nat where
  accounts := 1
  artifacts := []
  answer held _ :=
    if held = 0 then (.error "empty", held) else (.ok ⟨.null, [("Paid", [])]⟩, held - 1)
  unreachable := []
  revertedLate := []

def pay : Abi.Function := ⟨"pay", [], [], .nonpayable, none⟩

def mute : Handle := ⟨"Till", .zero, ⟨[.function pay]⟩⟩

def holding (held : Nat) : Ledger Nat := ⟨1, 1, [(.zero, held)], []⟩

theorem steady_till : till.Steady := by
  intro held call reason refuses
  by_cases empty : held = 0
  · simp [till, empty]
  · simp [till, empty] at refuses

theorem undone_of_empty_till :
    (∃ e, (till.send mute pay [] ⟨.zero, none⟩ (holding 0)).1 = .error e) ∧
      Undone (holding 0) (till.send mute pay [] ⟨.zero, none⟩ (holding 0)).2 := by
  have failed : till.send mute pay [] ⟨.zero, none⟩ (holding 0) =
      (.error (.reverted (some "empty") none), _) := rfl
  refine ⟨⟨_, rfl⟩, ?_⟩
  obtain undone | ⟨held, output, kept⟩ := undone_or_kept_of_send steady_till failed
  · exact undone
  · cases kept.found
    cases kept.answered

theorem not_undone_of_mute_till :
    till.Steady ∧ (∃ e, (till.send mute pay [] ⟨.zero, none⟩ (holding 7)).1 = .error e) ∧
      ¬Undone (holding 7) (till.send mute pay [] ⟨.zero, none⟩ (holding 7)).2 := by
  refine ⟨steady_till, ⟨_, rfl⟩, ?_⟩
  intro undone
  have same : [(Address.zero, 6)] = [(Address.zero, 7)] := undone.contracts
  simp at same

end Rehearsal.Simulation
