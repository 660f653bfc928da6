import Rehearsal.Chain.Simulation
import Rehearsal.Proofs.Chain.Exchange
import Rehearsal.Proofs.Scenario.Asking
import Rehearsal.Proofs.Scenario.Simulated
import Rehearsal.Proofs.Scenario.Stepping

namespace Rehearsal

open MonadAttach (CanReturn)
open LawfulMonadAttach (canReturn_bind_imp' eq_of_canReturn_pure)

/-! Outcomes that agree with themselves and with what is left behind. A call notices a revert by the
receipt, a deployment does not: there the chain has to. -/

/-- An outcome, and the context behind it, that fit the step. -/
structure Step.Coherent (s : Step) (context : Context) (now : Nat) (outcome : Outcome)
    (after : Context) : Prop where
  reason : outcome.succeeded = true ↔ outcome.revertReason = none
  failed : outcome.succeeded = false → outcome.returnValue = none ∧ outcome.emittedEvents = []
  status : outcome.status = some 0 → outcome.succeeded = false
  called : ∀ {handle f args options}, s.plan context now = .ok (.call handle f args options) →
    f.isReadOnly = true → outcome.succeeded = true →
    outcome.returnValue.isSome ∧ outcome.transaction = none ∧ outcome.status = none ∧
      outcome.block = none
  sent : ∀ {handle f args options}, s.plan context now = .ok (.call handle f args options) →
    f.isReadOnly = false → outcome.succeeded = true →
    outcome.transaction.isSome ∧ outcome.returnValue = none
  deployed : ∀ {name artifact args}, s.action = .deploy name artifact args →
    outcome.succeeded = true → ∃ handle, after.contract name = .ok handle ∧
      outcome.returnValue = some (.string handle.address.text)

/-- No receipt tells of the deployment's revert. -/
def Deployment.Stands (deployment : Deployment) : Prop :=
  ∀ receipt, deployment.receipt = some receipt → receipt.reverted = false

/-- A deployment that was reverted is an error of the chain. -/
def Chain.DeploymentsStand {m : Type → Type} [MonadAttach m] (chain : Chain m) : Prop :=
  ∀ artifact args options deployment,
    CanReturn (chain.deploy artifact args options) (.ok deployment) → deployment.Stands

namespace Step

variable {s : Step} {context after : Context} {now : Nat}

theorem coherent_of_failed {outcome : Outcome} (failed : outcome.succeeded = false)
    (reason : outcome.revertReason ≠ none) (value : outcome.returnValue = none)
    (events : outcome.emittedEvents = []) : s.Coherent context now outcome after where
  reason := by simp [failed, reason]
  failed _ := ⟨value, events⟩
  status _ := failed
  called _ _ succeeded := by simp [failed] at succeeded
  sent _ _ succeeded := by simp [failed] at succeeded
  deployed _ succeeded := by simp [failed] at succeeded

theorem coherent_deployed {name artifact : String} {args : List Json} {options : CallOptions}
    (planned : s.plan context now = .ok (.deploy name artifact args options))
    {answer : Except ChainError Deployment}
    (stands : ∀ deployment, answer = .ok deployment → deployment.Stands) :
    s.Coherent context now (Execution.deployed context name answer).1
      (Execution.deployed context name answer).2 := by
  cases answer with
  | error e => exact coherent_of_failed rfl (Option.some_ne_none _) rfl rfl
  | ok deployment =>
      obtain ⟨handle, found⟩ := deployment
      have left := Execution.deployed_ok context name ⟨handle, found⟩
      have shown : (Execution.deployed context name (.ok ⟨handle, found⟩)).1.revertReason = none ∧
          (Execution.deployed context name (.ok ⟨handle, found⟩)).1.returnValue =
            some (.string handle.address.text) := by
        cases found with
        | none => exact ⟨rfl, rfl⟩
        | some receipt => exact ⟨rfl, rfl⟩
      refine { reason := ?_, failed := ?_, status := ?_, called := ?_, sent := ?_, deployed := ?_ }
      · exact iff_of_true left.1 shown.1
      · intro failed
        rw [left.1] at failed
        contradiction
      · intro zero
        cases found with
        | none => cases zero
        | some receipt =>
            have kept : receipt.reverted = false := stands _ rfl receipt rfl
            have reverted : receipt.reverted = true := beq_iff_eq.mpr zero
            rw [kept] at reverted
            contradiction
      · intro _ _ _ _ other
        cases planned.symm.trans other
      · intro _ _ _ _ other
        cases planned.symm.trans other
      · intro other _ _ action _
        obtain ⟨_, _, named⟩ := action_of_plan_deploy planned
        cases action.symm.trans named
        refine ⟨handle, ?_, shown.2⟩
        rw [left.2, Context.contract_insertContract, if_pos rfl]

theorem coherent_called {handle : Handle} {f : Abi.Function} {args : List Json}
    {options : CallOptions} (planned : s.plan context now = .ok (.call handle f args options))
    (reads : f.isReadOnly = true) (answer : Except ChainError Json) :
    s.Coherent context now (Execution.called handle answer) context := by
  cases answer with
  | error e => exact coherent_of_failed rfl (Option.some_ne_none _) rfl rfl
  | ok value =>
      refine { reason := ?_, failed := ?_, status := ?_, called := ?_, sent := ?_, deployed := ?_ }
      · exact iff_of_true rfl rfl
      · intro failed
        cases failed
      · intro zero
        cases zero
      · intro _ _ _ _ _ _ _
        exact ⟨rfl, rfl, rfl, rfl⟩
      · intro _ _ _ _ other writes
        cases planned.symm.trans other
        rw [reads] at writes
        contradiction
      · intro _ _ _ action
        exact absurd action (action_ne_deploy planned)

theorem coherent_sent {handle : Handle} {f : Abi.Function} {args : List Json}
    {options : CallOptions} (planned : s.plan context now = .ok (.call handle f args options))
    (writes : f.isReadOnly = false) (answer : Except ChainError Receipt) :
    s.Coherent context now (Execution.sent context handle answer) context := by
  cases answer with
  | error e => exact coherent_of_failed rfl (Option.some_ne_none _) rfl rfl
  | ok receipt =>
      cases reverted : receipt.reverted with
      | true =>
          rw [Execution.sent, if_pos reverted]
          exact coherent_of_failed rfl (Option.some_ne_none _) rfl rfl
      | false =>
          rw [Execution.sent, reverted, if_neg Bool.false_ne_true]
          refine { reason := ?_, failed := ?_, status := ?_, called := ?_, sent := ?_, deployed := ?_ }
          · exact iff_of_true rfl rfl
          · intro failed
            cases failed
          · intro zero
            rw [Receipt.reverted, beq_eq_false_iff_ne] at reverted
            exact absurd zero reverted
          · intro _ _ _ _ other reads
            cases planned.symm.trans other
            rw [writes] at reads
            contradiction
          · intro _ _ _ _ _ _ _
            exact ⟨rfl, rfl⟩
          · intro _ _ _ action
            exact absurd action (action_ne_deploy planned)

theorem coherent_of_execute {m : Type → Type} [Monad m] [LawfulMonad m] [MonadAttach m]
    [LawfulMonadAttach m] {chain : Chain m} (stand : chain.DeploymentsStand)
    {execution : Execution}
    (ran : CanReturn (s.execute chain now context) (.ok execution, after)) :
    s.Coherent context now execution.outcome after := by
  cases ends_of_execute ran with
  | deployed planned answer =>
      -- The answer that the step ended with is one that the chain can give.
      obtain ⟨answer, answered, told, left⟩ := deployed_of_execute planned ran
      rw [Except.ok.injEq, Execution.mk.injEq] at told
      rw [told.1, left]
      exact coherent_deployed planned fun deployment ok => stand _ _ _ deployment (ok ▸ answered)
  | called planned reads answer => exact coherent_called planned reads answer
  | sent planned writes answer => exact coherent_sent planned writes answer

end Step

/-! The chains. -/

theorem Node.created_eq_ok {name : String} {artifact : Artifact} {receipt : Receipt}
    {deployment : Deployment} (made : created name artifact receipt = .ok deployment) :
    deployment.receipt = some receipt ∧ receipt.reverted = false := by
  unfold created at made
  split at made
  · contradiction
  · next kept =>
    split at made
    · cases made
      exact ⟨rfl, Bool.eq_false_iff.mpr kept⟩
    · contradiction

theorem Node.deploymentsStand {m : Type → Type} [Monad m] [LawfulMonad m] [MonadAttach m]
    [LawfulMonadAttach m] (node : Node m) : node.chain.DeploymentsStand := by
  intro name args options deployment answered
  change CanReturn (node.deploy name args options) _ at answered
  unfold deploy at answered
  split at answered
  · cases eq_of_canReturn_pure answered
  · obtain ⟨receipt, -, ends⟩ := canReturn_bind_imp' answered
    obtain ⟨receipt, -, made⟩ := bind_eq_ok.mp (eq_of_canReturn_pure ends)
    obtain ⟨shown, kept⟩ := created_eq_ok made
    intro other found
    cases shown.symm.trans found
    exact kept

theorem Simulation.deploymentsStand {κ : Type} (sim : Simulation κ) :
    sim.chain.DeploymentsStand := by
  rintro name args options deployment ⟨ledger, left, answered⟩
  change sim.deploy name args options ledger = (.ok deployment, left) at answered
  unfold deploy at answered
  split at answered
  · cases answered
  · split at answered
    · cases answered
    · cases answered
      rintro _ ⟨⟩
      rfl

section

variable {node : Node (StateM (List Exchange))} {replies : Nat → Except TransportFault String}

theorem Node.not_tellsRevert_of_request (replying : node.link = .replying replies) {method : String}
    (other : method ≠ "eth_getTransactionReceipt") (params : List Json) (id : Nat) :
    ∀ exchange ∈ (((node.request method params).run id).run []).2, ¬exchange.TellsRevert := by
  rw [run_request_replying replying]
  intro exchange member
  cases List.mem_singleton.mp member
  exact not_tellsRevert rfl other

theorem Node.transacts_of_transact (replying : node.link = .replying replies) {transaction : Json}
    {id last : Nat} {answer : Except ChainError Receipt} {exchanges : List Exchange}
    (answered : ((node.transact transaction).run id).run [] = ((answer, last), exchanges)) :
    Transacts transaction id exchanges answer := by
  obtain ⟨made, ran, transacts⟩ := transacts_of_run replying transaction id []
  rw [answered] at ran transacts
  cases ran
  exact transacts

theorem Node.transacts_of_answer (replying : node.link = .replying replies) (operation : Operation)
    (id : Nat) {answer : operation.Answer} {last : Nat} {exchanges : List Exchange}
    (answered : ((node.chain.answer operation).run id).run [] = ((.ok answer, last), exchanges)) :
    (∃ transaction receipt, operation.receipt? answer = some receipt ∧
        Transacts transaction id exchanges (.ok receipt)) ∨
      operation.receipt? answer = none ∧ ∀ exchange ∈ exchanges, ¬exchange.TellsRevert := by
  cases operation with
  | signers =>
      have asked : (((node.request "eth_accounts" []).run id).run []).2 = exchanges :=
        congrArg Prod.snd answered
      exact .inr ⟨rfl, asked ▸ not_tellsRevert_of_request replying (by decide) _ id⟩
  | deploy artifact args options =>
      change ((node.deploy artifact args options).run id).run [] = _ at answered
      unfold deploy at answered
      split at answered
      · cases answered
      · next data _ =>
        rcases ran : ((node.transact (transaction options none data)).run id).run [] with
          ⟨⟨receipt, next⟩, made⟩
        rw [StateT.run_bind, StateT.run_bind, ran] at answered
        have same : made = exchanges := congrArg Prod.snd answered
        obtain ⟨receipt, rfl, creates⟩ := bind_eq_ok.mp (congrArg (·.1.1) answered)
        exact .inl ⟨_, receipt, (created_eq_ok creates).1, same ▸ transacts_of_transact replying ran⟩
  | call handle f args options =>
      change ((node.call handle f args options).run id).run [] = _ at answered
      unfold call at answered
      split at answered
      · cases answered
      · next data _ =>
        have asked : (((node.request "eth_call"
            [transaction options (some handle.address) data, .string "latest"]).run id).run []).2 =
              exchanges :=
          congrArg Prod.snd answered
        exact .inr ⟨rfl, asked ▸ not_tellsRevert_of_request replying (by decide) _ id⟩
  | send handle f args options =>
      change ((node.send handle f args options).run id).run [] = _ at answered
      unfold send at answered
      split at answered
      · cases answered
      · exact .inl ⟨_, answer, rfl, transacts_of_transact replying answered⟩

theorem Node.exists_reverted (replying : node.link = .replying replies) (operation : Operation)
    (id : Nat) {answer : operation.Answer} {last : Nat} {exchanges : List Exchange}
    (answered : ((node.chain.answer operation).run id).run [] = ((.ok answer, last), exchanges))
    {exchange : Exchange} (member : exchange ∈ exchanges) (tells : exchange.TellsRevert) :
    ∃ receipt, operation.receipt? answer = some receipt ∧ receipt.reverted = true := by
  rcases transacts_of_answer replying operation id answered with
    ⟨transaction, receipt, found, transacts⟩ | ⟨-, silent⟩
  · exact ⟨receipt, found, transacts.reverted rfl exchange member tells⟩
  · exact absurd tells (silent exchange member)

theorem Node.names_last_of_answer (replying : node.link = .replying replies) (operation : Operation)
    (id : Nat) {answer : operation.Answer} {last : Nat} {exchanges : List Exchange}
    (answered : ((node.chain.answer operation).run id).run [] = ((.ok answer, last), exchanges))
    {receipt : Receipt} (found : operation.receipt? answer = some receipt) :
    ∃ front exchange, exchanges = front ++ [exchange] ∧ exchange.Names receipt.transaction := by
  rcases transacts_of_answer replying operation id answered with
    ⟨transaction, other, foundToo, transacts⟩ | ⟨missing, -⟩
  · cases found.symm.trans foundToo
    exact transacts.names_last rfl
  · cases found.symm.trans missing

end

/-! The steps. -/

namespace Step

theorem failed_of_settles {operation : Operation} {request : Request} {s : Step}
    {context after : Context} {now : Nat}
    {settle : Except ChainError operation.Answer → Outcome × Context}
    (settles : operation.Settles request context settle)
    {answered : Except ChainError operation.Answer}
    (coherent : s.Coherent context now (settle answered).1 after)
    (notes : ∀ answer, answered = .ok answer →
      ∃ receipt, operation.receipt? answer = some receipt ∧ receipt.reverted = true) :
    (settle answered).1.succeeded = false := by
  cases answered with
  | error e => exact settles.refuses e
  | ok answer =>
      obtain ⟨receipt, found, reverted⟩ := notes answer rfl
      exact coherent.status ((settles.shows answer receipt found).trans (beq_iff_eq.mp reverted))

/-- Every outcome of a step is coherent, whatever the state of a simulated chain is and whatever a
node replies, and none is a success behind a receipt that tells of a revert. The hash that an outcome
carries is that of the receipt; with a node, the last reply names it, or the hash is empty. -/
theorem outcomes_coherent (s : Step) (context : Context) (now : Nat) :
    (∀ {κ : Type} (sim : Simulation κ) ledger execution after left,
      (s.execute sim.chain now context).run ledger = ((.ok execution, after), left) →
        s.Coherent context now execution.outcome after ∧
          ∀ operation ∈ s.asks context now, ∀ answer receipt last,
            (sim.chain.answer operation).run ledger = (.ok answer, last) →
              operation.receipt? answer = some receipt →
                execution.outcome.transaction = some receipt.transaction ∧
                  (receipt.status = some 0 → execution.outcome.succeeded = false)) ∧
    ∀ (node : Node (StateM (List Exchange))) replies, node.link = .replying replies →
      ∀ id execution after last exchanges,
        ((s.execute node.chain now context).run id).run [] =
            (((.ok execution, after), last), exchanges) →
          s.Coherent context now execution.outcome after ∧
            (∀ exchange ∈ exchanges, exchange.TellsRevert → execution.outcome.succeeded = false) ∧
            ∀ hash, execution.outcome.transaction = some hash →
              ∃ front exchange, exchanges = front ++ [exchange] ∧ exchange.Names hash := by
  constructor
  · intro κ sim ledger execution after left ran
    have coherent : s.Coherent context now execution.outcome after :=
      coherent_of_execute sim.deploymentsStand ⟨ledger, left, ran⟩
    refine ⟨coherent, fun operation asked answer receipt last answered found => ?_⟩
    unfold asks at asked
    split at asked
    · contradiction
    · next request planned =>
      cases List.mem_singleton.mp asked
      obtain ⟨settle, settles, executes⟩ := exists_settles planned
      rw [executes, StateT.run_map, answered] at ran
      cases ran
      refine ⟨(settles.carries (.ok answer)).trans (congrArg _ found), fun zero => ?_⟩
      refine failed_of_settles settles coherent fun other ok => ?_
      cases ok
      exact ⟨receipt, found, beq_iff_eq.mpr zero⟩
  · intro node replies replying id execution after last exchanges ran
    have coherent : s.Coherent context now execution.outcome after :=
      coherent_of_execute node.deploymentsStand ⟨id, last, [], exchanges, ran⟩
    refine ⟨coherent, ?_⟩
    cases planned : s.plan context now with
    | error e =>
        rw [execute, planned] at ran
        cases ran
    | ok request =>
        obtain ⟨settle, settles, executes⟩ := exists_settles planned
        rcases answered : ((node.chain.answer request.operation).run id).run [] with
          ⟨⟨answer, next⟩, made⟩
        rw [executes, StateT.run_map, StateT.run_map, answered] at ran
        cases ran
        refine ⟨fun exchange member tells => ?_, fun hash carried => ?_⟩
        · refine failed_of_settles settles coherent fun answer ok => ?_
          subst ok
          exact node.exists_reverted replying _ id answered member tells
        · obtain ⟨receipt, found, rfl⟩ :=
            Option.map_eq_some_iff.mp ((settles.carries answer).symm.trans carried)
          obtain ⟨value, ok, found⟩ := Option.bind_eq_some_iff.mp found
          cases toOption_eq_some.mp ok
          exact node.names_last_of_answer replying _ id answered found

end Step

/-! A counter whose transactions are included but reverted. -/

open Simulation (counting besideCounter counter count plan_count)

namespace Simulation

def reverting : Simulation Nat := { counting with revertedLate := ["count"] }

theorem send_reverting (ledger : Ledger Nat) :
    ∃ receipt left, (reverting.chain.send (counter .nonpayable) (count .nonpayable) []
      ⟨.zero, none⟩).run ledger = (.ok receipt, left) ∧ receipt.status = some 0 := by
  obtain ⟨data, encoded⟩ : ∃ data, ((count .nonpayable).encodeCall []).onChain = .ok data := ⟨_, rfl⟩
  have accepted : reverting.checkCall (count .nonpayable) [] = .ok () := by
    rw [checkCall, encoded]
    rfl
  have late : reverting.revertedLate.contains (count .nonpayable).name = true := rfl
  obtain ⟨receipt, left, sent, zero⟩ : ∃ receipt left, reverting.send (counter .nonpayable)
      (count .nonpayable) [] ⟨.zero, none⟩ ledger = (.ok receipt, left) ∧ receipt.status = some 0 := by
    rw [send, if_pos late, accepted]
    exact ⟨_, _, rfl, rfl⟩
  exact ⟨receipt, left, sent, zero⟩

end Simulation

namespace Node

def hashText : String := "\x7b\"result\":\"0xa\"\x7d"

def receiptText : String := "\x7b\"result\":\x7b\"status\":\"0x0\"\x7d\x7d"

def revertedReplies : Nat → Except TransportFault String
  | 0 => .ok hashText
  | _ => .ok receiptText

def reverting : Node (StateM (List Exchange)) where
  link := .replying revertedReplies
  store := ⟨⟨.directory [], []⟩, "", ""⟩
  receiptSeconds := 0
  pollMilliseconds := 1

theorem carries_hash (request : Json) :
    (Exchange.mk request (revertedReplies 0)).result = .ok (.string "0xa") := by
  have parsed : Json.parse hashText = some (.object [("result", .string "0xa")]) := by cbv
  change resultOf hashText = _
  rw [resultOf, Response.ofText, parsed]
  rfl

theorem carries_receipt (request : Json) :
    (Exchange.mk request (revertedReplies 1)).result = .ok (.object [("status", .string "0x0")]) := by
  have parsed : Json.parse receiptText =
      some (.object [("result", .object [("status", .string "0x0")])]) := by cbv
  change resultOf receiptText = _
  rw [resultOf, Response.ofText, parsed]
  rfl

theorem send_reverting :
    ∃ receipt submitted asked, ((reverting.chain.send (counter .nonpayable) (count .nonpayable) []
      ⟨.zero, none⟩).run 1).run [] = ((.ok receipt, 3), [submitted, asked]) ∧ asked.TellsRevert := by
  have replying : reverting.link = .replying revertedReplies := rfl
  obtain ⟨data, encoded⟩ : ∃ data, ((count .nonpayable).encodeCall []).onChain = .ok data := ⟨_, rfl⟩
  refine ⟨⟨"", quantity? (.string "0x0"), none, none, []⟩,
    ⟨body 1 "eth_sendTransaction" [transaction ⟨.zero, none⟩ (some .zero) data], revertedReplies 0⟩,
    ⟨body 2 "eth_getTransactionReceipt" [.string "0xa"], revertedReplies 1⟩, ?_,
    2, "0xa", _, rfl, carries_receipt _, by decide +kernel⟩
  change ((reverting.send (counter .nonpayable) (count .nonpayable) [] ⟨.zero, none⟩).run 1).run [] = _
  rw [send, encoded]
  change StateT.run (StateT.run (transact _ _) _) _ = _
  rw [transact, StateT.run_bind, StateT.run_bind, run_request_replying replying]
  simp only [List.length_nil, carries_hash]
  change StateT.run (StateT.run (awaitReceipt _ _ 0) 2) [_] = _
  rw [awaitReceipt, StateT.run_bind, StateT.run_bind, run_askReceipt replying]
  simp only [List.length_singleton, carries_receipt]
  rfl

end Node

theorem Step.outcomes_coherent_of_reverted :
    let s := Step.call "counter" "count"
    let context := besideCounter .nonpayable
    (∃ execution after left,
      (s.execute Simulation.reverting.chain 0 context).run .empty = ((.ok execution, after), left) ∧
        s.Coherent context 0 execution.outcome after ∧ execution.outcome.succeeded = false) ∧
    ∃ execution after last exchanges,
      ((s.execute Node.reverting.chain 0 context).run 1).run [] =
          (((.ok execution, after), last), exchanges) ∧
        (∃ exchange ∈ exchanges, exchange.TellsRevert) ∧
        s.Coherent context 0 execution.outcome after ∧ execution.outcome.succeeded = false := by
  intro s context
  obtain ⟨ofSimulation, ofNode⟩ := outcomes_coherent s context 0
  obtain ⟨settle, -, executes⟩ := exists_settles (plan_count .nonpayable)
  constructor
  · obtain ⟨receipt, left, sends, zero⟩ := Simulation.send_reverting .empty
    have answered : (Simulation.reverting.chain.answer (Request.call (counter .nonpayable)
        (count .nonpayable) [] ⟨.zero, none⟩).operation).run .empty = (.ok receipt, left) := by
      change StateT.run (Simulation.reverting.chain.send _ _ _ _) _ = _
      exact sends
    have ran := congrArg (StateT.run · Simulation.Ledger.empty) (executes Simulation.reverting.chain)
    simp only [StateT.run_map, answered] at ran
    obtain ⟨coherent, told⟩ := ofSimulation Simulation.reverting .empty _ _ _ ran
    exact ⟨_, _, _, ran, coherent, (told _ (.head _) _ _ _ answered rfl).2 zero⟩
  · obtain ⟨receipt, submitted, asked, sends, tells⟩ := Node.send_reverting
    have answered : ((Node.reverting.chain.answer (Request.call (counter .nonpayable)
        (count .nonpayable) [] ⟨.zero, none⟩).operation).run 1).run [] =
          ((.ok receipt, 3), [submitted, asked]) := by
      change ((Node.reverting.chain.send (counter .nonpayable) (count .nonpayable) []
        ⟨.zero, none⟩).run 1).run [] = _
      exact sends
    have ran := congrArg (fun run => (StateT.run run 1).run []) (executes Node.reverting.chain)
    simp only [StateT.run_map, answered] at ran
    have member : asked ∈ [submitted, asked] := .tail _ (.head _)
    obtain ⟨coherent, failed, -⟩ := ofNode Node.reverting Node.revertedReplies rfl 1 _ _ _ _ ran
    exact ⟨_, _, _, _, ran, ⟨asked, member, tells⟩, coherent, failed asked member tells⟩

end Rehearsal
