import Rehearsal.Proofs.Scenario.Asking
import Rehearsal.Proofs.Scenario.Simulated

namespace Rehearsal.Simulation

/-! What one operation can do to a simulated chain. It is refused before anything happens, or a
contract is built, or a contract answers, or a transaction is included without reaching its
contract. A contract keeps what its answer has left, whatever becomes of the operation behind it. -/

variable {κ : Type} {s : Simulation κ} {ledger left : Ledger κ}

/-! Contracts by their addresses. -/

theorem find?_put (address other : Address) (contract : κ) (contracts : List (Address × κ)) :
    find? other (put address contract contracts) =
      if address = other then some contract else find? other contracts := by
  induction contracts with
  | nil =>
      by_cases same : address = other
      · simp [put, find?, same]
      · simp [put, find?, same]
  | cons entry rest ih =>
      obtain ⟨key, old⟩ := entry
      simp only [put]
      split
      · next found =>
        subst found
        by_cases same : key = other
        · simp [find?, same]
        · simp [find?, same]
      · next differs =>
        by_cases here : key = other
        · subst here
          simp [find?, Ne.symm differs]
        · simpa [find?, here] using ih

theorem put_of_find? {address : Address} {contract : κ} {contracts : List (Address × κ)}
    (found : find? address contracts = some contract) :
    put address contract contracts = contracts := by
  induction contracts with
  | nil => contradiction
  | cons entry rest ih =>
      obtain ⟨key, old⟩ := entry
      by_cases here : key = address
      · subst here
        simp [find?] at found
        simp [put, found]
      · have deeper : find? address rest = some contract := by simpa [find?, here] using found
        simp [put, here, ih deeper]

/-! The ledger behind each of the operations. -/

def callOf (handle : Handle) (f : Abi.Function) (args : List Json) (options : CallOptions) : Call :=
  ⟨f.name, args, options.sender, options.value.getD 0, handle.address⟩

def Ledger.answered (ledger : Ledger κ) (s : Simulation κ) (kind : Kind) (contract : κ)
    (call : Call) : Ledger κ :=
  Ledger.record { ledger with contracts := put call.this (s.answer contract call).2 ledger.contracts }
    ⟨kind, call.function, call.sender, !(s.answer contract call).1.isOk⟩

def Ledger.nextAddress (ledger : Ledger κ) : Address :=
  .ofLow (contractBase + (ledger.deployed + 1))

def Ledger.deploying (ledger : Ledger κ) (invocation : Invocation) (contract : κ) : Ledger κ :=
  { ledger.record invocation with
    deployed := ledger.deployed + 1
    contracts := put ledger.nextAddress contract ledger.contracts }

/-- An operation with its answer, and the ledger that it leaves. -/
inductive Turn (s : Simulation κ) (ledger : Ledger κ) :
    (operation : Operation) → Except ChainError operation.Answer → Ledger κ → Prop where
  | listed : Turn s ledger .signers (.ok s.addresses) ledger
  | refused {operation : Operation} (e : ChainError) : Turn s ledger operation (.error e) ledger
  | unbuilt {name : String} {args : List Json} {options : CallOptions} (reason : String) :
      Turn s ledger (.deploy name args options) (.error (.reverted (some reason) none))
        (ledger.record ⟨.deploy, name, options.sender, true⟩)
  | deployed {name : String} {args : List Json} {options : CallOptions} {artifact : Artifact κ}
      {contract : κ} {receipt : Receipt} {left : Ledger κ}
      (prepared : s.prepare name args = .ok artifact)
      (built : artifact.build args options.sender = .ok contract)
      (seals : (ledger.deploying ⟨.deploy, name, options.sender, false⟩ contract).seal 1
        (some ledger.nextAddress) [] = (receipt, left)) :
      Turn s ledger (.deploy name args options)
        (.ok ⟨⟨name, ledger.nextAddress, artifact.interface⟩, some receipt⟩) left
  | called {handle : Handle} {f : Abi.Function} {args : List Json} {options : CallOptions}
      {contract : κ} (found : find? handle.address ledger.contracts = some contract)
      (answer : Except ChainError Json) :
      Turn s ledger (.call handle f args options) answer
        (ledger.answered s .call contract (callOf handle f args options))
  | late {handle : Handle} {f : Abi.Function} {args : List Json} {options : CallOptions}
      {receipt : Receipt} {left : Ledger κ}
      (seals : (ledger.record ⟨.send, f.name, options.sender, true⟩).seal 0 none [] =
        (receipt, left)) :
      Turn s ledger (.send handle f args options) (.ok receipt) left
  | reverted {handle : Handle} {f : Abi.Function} {args : List Json} {options : CallOptions}
      {contract : κ} {reason : String}
      (found : find? handle.address ledger.contracts = some contract)
      (refuses : (s.answer contract (callOf handle f args options)).1 = .error reason) :
      Turn s ledger (.send handle f args options) (.error (.reverted (some reason) none))
        (ledger.answered s .send contract (callOf handle f args options))
  | untold {handle : Handle} {f : Abi.Function} {args : List Json} {options : CallOptions}
      {contract : κ} {output : Output} {e : ChainError}
      (found : find? handle.address ledger.contracts = some contract)
      (answers : (s.answer contract (callOf handle f args options)).1 = .ok output)
      (fails : logsOf handle output.events = .error e) :
      Turn s ledger (.send handle f args options) (.error e)
        (ledger.answered s .send contract (callOf handle f args options))
  | sent {handle : Handle} {f : Abi.Function} {args : List Json} {options : CallOptions}
      {contract : κ} {output : Output} {logs : List Abi.Log} {receipt : Receipt} {left : Ledger κ}
      (found : find? handle.address ledger.contracts = some contract)
      (answers : (s.answer contract (callOf handle f args options)).1 = .ok output)
      (told : logsOf handle output.events = .ok logs)
      (seals : (ledger.answered s .send contract (callOf handle f args options)).seal 1 none logs =
        (receipt, left)) :
      Turn s ledger (.send handle f args options) (.ok receipt) left

theorem invoke_cases (s : Simulation κ) (ledger : Ledger κ) (kind : Kind) (handle : Handle)
    (f : Abi.Function) (args : List Json) (options : CallOptions) :
    (∃ e, s.invoke kind handle f args options ledger = (.error e, ledger)) ∨
      ∃ contract, find? handle.address ledger.contracts = some contract ∧
        s.invoke kind handle f args options ledger =
          ((s.answer contract (callOf handle f args options)).1.mapError
              fun reason => .reverted (some reason) none,
            ledger.answered s kind contract (callOf handle f args options)) := by
  unfold invoke
  split
  · next e _ => exact .inl ⟨e, rfl⟩
  · split
    · exact .inl ⟨_, rfl⟩
    · next contract found =>
      refine .inr ⟨contract, found, ?_⟩
      simp only [Ledger.answered, callOf]
      split
      · next answers =>
        rw [answers]
        rfl
      · next answers =>
        rw [answers]
        rfl

theorem turn_deploy (s : Simulation κ) (ledger : Ledger κ) (name : String) (args : List Json)
    (options : CallOptions) :
    s.Turn ledger (.deploy name args options) (s.deploy name args options ledger).1
      (s.deploy name args options ledger).2 := by
  unfold deploy
  split
  · exact .refused _
  · next artifact prepared =>
    split
    · exact .unbuilt _
    · next contract built => exact .deployed prepared built rfl

theorem turn_call (s : Simulation κ) (ledger : Ledger κ) (handle : Handle) (f : Abi.Function)
    (args : List Json) (options : CallOptions) :
    s.Turn ledger (.call handle f args options) (s.call handle f args options ledger).1
      (s.call handle f args options ledger).2 := by
  unfold call
  rcases s.invoke_cases ledger .call handle f args options with ⟨e, refused⟩ | ⟨contract, found, ran⟩
  · rw [refused]
    exact .refused e
  · rw [ran]
    exact .called found _

theorem turn_send (s : Simulation κ) (ledger : Ledger κ) (handle : Handle) (f : Abi.Function)
    (args : List Json) (options : CallOptions) :
    s.Turn ledger (.send handle f args options) (s.send handle f args options ledger).1
      (s.send handle f args options ledger).2 := by
  unfold send
  split
  · split
    · exact .refused _
    · exact .late rfl
  · rcases s.invoke_cases ledger .send handle f args options with
      ⟨e, refused⟩ | ⟨contract, found, ran⟩
    · rw [refused]
      exact .refused e
    · rw [ran]
      cases answers : (s.answer contract (callOf handle f args options)).1 with
      | error reason => exact .reverted found answers
      | ok output =>
          cases told : logsOf handle output.events with
          | error e =>
              simp only [Except.mapError, Except.bind, told]
              exact .untold found answers told
          | ok logs =>
              simp only [Except.mapError, Except.bind, told]
              exact .sent found answers told rfl

theorem turn_of_answer {operation : Operation} {answer : Except ChainError operation.Answer}
    (ran : (s.chain.answer operation).run ledger = (answer, left)) :
    s.Turn ledger operation answer left := by
  cases operation with
  | signers =>
      cases ran
      exact .listed
  | deploy name args options =>
      change s.deploy name args options ledger = _ at ran
      have turn := s.turn_deploy ledger name args options
      rwa [ran] at turn
  | call handle f args options =>
      change s.call handle f args options ledger = _ at ran
      have turn := s.turn_call ledger handle f args options
      rwa [ran] at turn
  | send handle f args options =>
      change s.send handle f args options ledger = _ at ran
      have turn := s.turn_send ledger handle f args options
      rwa [ran] at turn

end Rehearsal.Simulation
