import Rehearsal.Proofs.Chain.Exchange
import Rehearsal.Proofs.Scenario.Coherence

namespace Rehearsal

/-! What a node is asked for one step. A call that only reads is put to it once. Anything else is
submitted once, as the first request, and behind that only the receipt is asked for, with the hash
that the node gave and up to the first reply that is not null. -/

/-- The request submits a transaction. -/
def Exchange.submits (exchange : Exchange) : Bool :=
  (exchange.request.field "method").string? == some "eth_sendTransaction"

namespace Node

theorem submits_of_asks {exchange : Exchange} {id : Nat} {method : String} {params : List Json}
    (asks : exchange.request = body id method params) :
    exchange.submits = (method == "eth_sendTransaction") := by
  rw [Exchange.submits, asks]
  rfl

theorem result_of_receiptIn_none {result : Except ChainError Json}
    (tells : receiptIn result = .ok none) : result = .ok .null := by
  unfold receiptIn at tells
  split at tells
  · contradiction
  · rfl
  · obtain ⟨receipt, -, none⟩ := map_eq_ok.mp tells
    contradiction

/-- The receipt of one transaction is asked for, and not again behind a reply that is not null. -/
structure Polls (hash : String) (id : Nat) (exchanges : List Exchange) : Prop where
  asks : ∀ (i : Nat) exchange, exchanges[i]? = some exchange →
    exchange.request = body (id + i) "eth_getTransactionReceipt" [.string hash]
  stops : ∀ front exchange back, exchanges = front ++ exchange :: back →
    exchange.result ≠ .ok .null → back = []

namespace Polls

variable {hash : String} {id : Nat} {exchange : Exchange} {exchanges : List Exchange}

theorem last (asks : exchange.request = body id "eth_getTransactionReceipt" [.string hash]) :
    Polls hash id [exchange] where
  asks i other found := by
    cases i with
    | zero =>
        cases found
        exact asks
    | succ i => cases found
  stops front other back split _ := by
    cases front with
    | nil =>
        cases split
        rfl
    | cons head front => simp at split

theorem further (asks : exchange.request = body id "eth_getTransactionReceipt" [.string hash])
    (null : exchange.result = .ok .null) (others : Polls hash (id + 1) exchanges) :
    Polls hash id (exchange :: exchanges) where
  asks i other found := by
    cases i with
    | zero =>
        cases found
        exact asks
    | succ i =>
        rw [Nat.add_succ, ← Nat.succ_add]
        apply others.asks
        simpa using found
  stops front other back split notNull := by
    cases front with
    | nil =>
        cases split
        exact absurd null notNull
    | cons head front =>
        obtain ⟨-, split⟩ := List.cons.inj split
        exact others.stops front other back split notNull

theorem countP_submits (polls : Polls hash id exchanges) :
    exchanges.countP Exchange.submits = 0 := by
  apply List.countP_eq_zero.mpr
  intro exchange member
  obtain ⟨i, found⟩ := List.getElem?_of_mem member
  rw [submits_of_asks (polls.asks i exchange found)]
  decide

end Polls

theorem Awaits.polls {hash : String} {id : Nat} {exchanges : List Exchange}
    {answer : Except ChainError Receipt} (awaits : Awaits hash id exchanges answer) :
    Polls hash id exchanges := by
  induction awaits with
  | failed asks tells => exact .last asks
  | told asks tells => exact .last asks
  | late asks tells => exact .last asks
  | further asks tells others ih => exact .further asks (result_of_receiptIn_none tells) ih

/-- A transaction is submitted by the first request, and polled for by the hash of the reply; where
the reply has no hash, nothing is asked behind it. -/
def Submits (transaction : Json) (id : Nat) (exchanges : List Exchange) : Prop :=
  ∃ first others, exchanges = first :: others ∧
    first.request = body id "eth_sendTransaction" [transaction] ∧
    (∀ hash, first.result = .ok (.string hash) → Polls hash (id + 1) others) ∧
    ((∀ hash, first.result ≠ .ok (.string hash)) → others = [])

theorem Submits.countP_submits {transaction : Json} {id : Nat} {exchanges : List Exchange}
    (submits : Submits transaction id exchanges) : exchanges.countP Exchange.submits = 1 := by
  obtain ⟨first, others, rfl, asks, polled, ended⟩ := submits
  have submitted : first.submits = true := submits_of_asks asks
  have none : others.countP Exchange.submits = 0 := by
    by_cases given : ∃ hash, first.result = .ok (.string hash)
    · obtain ⟨hash, given⟩ := given
      exact (polled hash given).countP_submits
    · rw [ended (not_exists.mp given), List.countP_nil]
  rw [List.countP_cons_of_pos submitted, none]

theorem countP_submits_le_one {id : Nat} {exchanges : List Exchange}
    (submits : exchanges = [] ∨ ∃ transaction, Submits transaction id exchanges) :
    exchanges.countP Exchange.submits ≤ 1 := by
  rcases submits with rfl | ⟨transaction, submits⟩
  · exact Nat.zero_le 1
  · exact Nat.le_of_eq submits.countP_submits

theorem Transacts.submits {transaction : Json} {id : Nat} {exchanges : List Exchange}
    {answer : Except ChainError Receipt} (transacts : Transacts transaction id exchanges answer) :
    Submits transaction id exchanges := by
  cases transacts with
  | refused asks carries =>
      refine ⟨_, [], rfl, asks, fun hash given => ?_, fun _ => rfl⟩
      rw [carries] at given
      contradiction
  | unexpected asks carries noHash =>
      refine ⟨_, [], rfl, asks, fun hash given => ?_, fun _ => rfl⟩
      rw [carries] at given
      exact absurd (Except.ok.inj given) (noHash hash)
  | submitted asks carries awaits =>
      refine ⟨_, _, rfl, asks, fun hash given => ?_, fun none => absurd carries (none _)⟩
      rw [carries] at given
      cases given
      exact awaits.polls

/-! What is asked for one operation. -/

section

variable {node : Node (StateM (List Exchange))} {replies : Nat → Except TransportFault String}

theorem submits_of_transact (replying : node.link = .replying replies) (transaction : Json)
    (id : Nat) : Submits transaction id (((node.transact transaction).run id).run []).2 := by
  obtain ⟨made, ran, transacts⟩ := transacts_of_run replying transaction id []
  rw [ran]
  exact transacts.submits

theorem exchanges_of_deploy (replying : node.link = .replying replies) (name : String)
    (args : List Json) (options : CallOptions) (id : Nat) :
    let exchanges := (((node.deploy name args options).run id).run []).2
    exchanges = [] ∨ ∃ transaction, Submits transaction id exchanges := by
  intro exchanges
  subst exchanges
  unfold deploy
  split
  · exact .inl rfl
  · exact .inr ⟨_, submits_of_transact replying _ id⟩

theorem exchanges_of_send (replying : node.link = .replying replies) (handle : Handle)
    (f : Abi.Function) (args : List Json) (options : CallOptions) (id : Nat) :
    let exchanges := (((node.send handle f args options).run id).run []).2
    exchanges = [] ∨ ∃ transaction, Submits transaction id exchanges := by
  intro exchanges
  subst exchanges
  unfold send
  split
  · exact .inl rfl
  · exact .inr ⟨_, submits_of_transact replying _ id⟩

theorem exchanges_of_call (replying : node.link = .replying replies) (handle : Handle)
    (f : Abi.Function) (args : List Json) (options : CallOptions) (id : Nat) :
    let exchanges := (((node.call handle f args options).run id).run []).2
    (∀ fault, f.encodeCall args = .error fault → exchanges = []) ∧
      ∀ data, f.encodeCall args = .ok data → ∃ exchange, exchanges = [exchange] ∧
        exchange.request = body id "eth_call"
          [transaction options (some handle.address) data, .string "latest"] := by
  intro exchanges
  subst exchanges
  unfold call
  constructor
  · intro fault refused
    rw [refused]
    rfl
  · intro data encoded
    rw [encoded]
    refine ⟨⟨body id "eth_call" [transaction options (some handle.address) data, .string "latest"],
      replies 0⟩, ?_, rfl⟩
    change (((node.request _ _).run id).run []).2 = _
    rw [run_request_replying replying]
    rfl

theorem countP_submits_of_call (replying : node.link = .replying replies) (handle : Handle)
    (f : Abi.Function) (args : List Json) (options : CallOptions) (id : Nat) :
    (((node.call handle f args options).run id).run []).2.countP Exchange.submits = 0 := by
  obtain ⟨silent, asked⟩ := exchanges_of_call replying handle f args options id
  cases encoded : f.encodeCall args with
  | error fault =>
      rw [silent fault encoded]
      rfl
  | ok data =>
      obtain ⟨exchange, alone, asks⟩ := asked data encoded
      have other : ¬exchange.submits = true := by
        rw [submits_of_asks asks]
        decide
      rw [alone, List.countP_cons_of_neg other]
      rfl

end

end Node

namespace Step

theorem exchanges_of_execute (node : Node (StateM (List Exchange))) {s : Step} {context : Context}
    {now : Nat} {request : Request} (planned : s.plan context now = .ok request) (id : Nat) :
    (∀ e, (((s.execute node.chain now context).run id).run []).1.1.1 ≠ .error e) ∧
      (((s.execute node.chain now context).run id).run []).2 =
        (((node.chain.answer request.operation).run id).run []).2 := by
  obtain ⟨settle, -, executes⟩ := exists_settles planned
  rw [executes, StateT.run_map, StateT.run_map]
  constructor
  · intro e refused
    cases refused
  · rfl

/-- Whatever a node replies, a step asks it nothing when something in it cannot be resolved, asks it
once for a call that only reads, and otherwise submits at most one transaction and asks for no
receipt but that of this transaction. -/
theorem submits_at_most_once (s : Step) (context : Context) (now : Nat)
    (node : Node (StateM (List Exchange))) (replies : Nat → Except TransportFault String)
    (replying : node.link = .replying replies) (id : Nat) :
    let ran := ((s.execute node.chain now context).run id).run []
    (∀ e, ran.1.1.1 = .error e → ran.2 = []) ∧
      (∀ handle f args options, s.plan context now = .ok (.call handle f args options) →
        f.isReadOnly = true →
          (∀ fault, f.encodeCall args = .error fault → ran.2 = []) ∧
          ∀ data, f.encodeCall args = .ok data → ∃ exchange, ran.2 = [exchange] ∧
            exchange.request = Node.body id "eth_call"
              [Node.transaction options (some handle.address) data, .string "latest"]) ∧
      ((∀ handle f args options, s.plan context now = .ok (.call handle f args options) →
        f.isReadOnly = false) → ran.2 = [] ∨ ∃ transaction, Node.Submits transaction id ran.2) ∧
      ran.2.countP Exchange.submits ≤ 1 := by
  intro ran
  cases planned : s.plan context now with
  | error e =>
      have silent : ran.2 = [] := by
        simp only [ran, execute, planned]
        rfl
      rw [silent]
      refine ⟨fun _ _ => rfl, ?_, fun _ => .inl rfl, Nat.zero_le 1⟩
      intro handle f args options same
      cases same
  | ok request =>
      obtain ⟨ends, asks⟩ := exchanges_of_execute node planned id
      change ran.2 = _ at asks
      refine ⟨fun e refused => absurd refused (ends e), ?_⟩
      cases request with
      | deploy name artifact args options =>
          have submits : ran.2 = [] ∨ ∃ transaction, Node.Submits transaction id ran.2 := by
            rw [asks]
            exact Node.exchanges_of_deploy replying artifact args options id
          refine ⟨fun handle f args options same => ?_, fun _ => submits,
            Node.countP_submits_le_one submits⟩
          cases same
      | call handle f args options =>
          cases reads : f.isReadOnly with
          | true =>
              rw [Request.operation_of_read reads] at asks
              change ran.2 = (((node.call handle f args options).run id).run []).2 at asks
              rw [asks, Node.countP_submits_of_call replying handle f args options id]
              refine ⟨?_, fun writes => ?_, Nat.zero_le 1⟩
              · intro handle f args options same _
                cases same
                exact Node.exchanges_of_call replying handle f args options id
              · rw [writes handle f args options rfl] at reads
                contradiction
          | false =>
              rw [Request.operation_of_write reads] at asks
              have submits : ran.2 = [] ∨ ∃ transaction, Node.Submits transaction id ran.2 := by
                rw [asks]
                exact Node.exchanges_of_send replying handle f args options id
              refine ⟨?_, fun _ => submits, Node.countP_submits_le_one submits⟩
              intro handle f args options same other
              cases same
              rw [reads] at other
              contradiction

end Step

/-! A transaction that is not included at once. -/

theorem Node.run_awaitReceipt_null {node : Node (StateM (List Exchange))}
    {replies : Nat → Except TransportFault String} (replying : node.link = .replying replies)
    {hash : String} {id : Nat} {exchanges : List Exchange}
    (null : Exchange.result ⟨body id "eth_getTransactionReceipt" [.string hash],
      replies exchanges.length⟩ = .ok .null) (more : Nat) :
    ((node.awaitReceipt hash (more + 1)).run id).run exchanges =
      ((node.awaitReceipt hash more).run (id + 1)).run (exchanges ++
        [⟨body id "eth_getTransactionReceipt" [.string hash], replies exchanges.length⟩]) := by
  rw [awaitReceipt, StateT.run_bind, StateT.run_bind, run_askReceipt replying, null]
  simp only [replying]
  rfl

open Simulation (counter count besideCounter plan_count)

namespace Node

def pendingReplies : Nat → Except TransportFault String
  | 0 => .ok hashText
  | 1 => .ok "\x7b\x7d"
  | 2 => .ok "\x7b\"result\":null\x7d"
  | _ => .ok receiptText

def pending : Node (StateM (List Exchange)) :=
  { reverting with link := .replying pendingReplies, receiptSeconds := 1, pollMilliseconds := 500 }

theorem carries_null (request : Json) :
    (Exchange.mk request (pendingReplies 1)).result = .ok .null ∧
      (Exchange.mk request (pendingReplies 2)).result = .ok .null := by
  have empty : Json.parse "\x7b\x7d" = some (.object []) := by cbv
  have null : Json.parse "\x7b\"result\":null\x7d" = some (.object [("result", .null)]) := by cbv
  constructor
  · change resultOf "\x7b\x7d" = _
    rw [resultOf, Response.ofText, empty]
    rfl
  · change resultOf "\x7b\"result\":null\x7d" = _
    rw [resultOf, Response.ofText, null]
    rfl

theorem send_pending : ∃ receipt submitted first second told,
    ((pending.chain.send (counter .nonpayable) (count .nonpayable) [] ⟨.zero, none⟩).run 1).run [] =
      ((.ok receipt, 5), [submitted, first, second, told]) := by
  have replying : pending.link = .replying pendingReplies := rfl
  have hash (request : Json) : (Exchange.mk request (pendingReplies 0)).result = .ok (.string "0xa") :=
    carries_hash request
  have receipt (request : Json) : (Exchange.mk request (pendingReplies 3)).result =
      .ok (.object [("status", .string "0x0")]) := carries_receipt request
  obtain ⟨data, encoded⟩ : ∃ data, ((count .nonpayable).encodeCall []).onChain = .ok data := ⟨_, rfl⟩
  let asked (id : Nat) : Exchange :=
    ⟨body id "eth_getTransactionReceipt" [.string "0xa"], pendingReplies (id - 1)⟩
  refine ⟨⟨"", quantity? (.string "0x0"), none, none, []⟩,
    ⟨body 1 "eth_sendTransaction" [transaction ⟨.zero, none⟩ (some .zero) data], pendingReplies 0⟩,
    asked 2, asked 3, asked 4, ?_⟩
  change ((pending.send (counter .nonpayable) (count .nonpayable) [] ⟨.zero, none⟩).run 1).run [] = _
  rw [send, encoded]
  change StateT.run (StateT.run (transact _ _) _) _ = _
  rw [transact, StateT.run_bind, StateT.run_bind, run_request_replying replying]
  simp only [List.length_nil, hash]
  change StateT.run (StateT.run (awaitReceipt _ _ 2) 2) [_] = _
  rw [run_awaitReceipt_null replying ?_ 1, run_awaitReceipt_null replying ?_ 0]
  · rw [awaitReceipt, StateT.run_bind, StateT.run_bind, run_askReceipt replying]
    simp only [List.length_append, List.length_singleton, receipt]
    rfl
  · exact (carries_null _).2
  · simp only [List.length_singleton, carries_null]

end Node

theorem Step.submits_at_most_once_of_pending :
    let ran := (((Step.call "counter" "count").execute Node.pending.chain 0
      (besideCounter .nonpayable)).run 1).run []
    ran.2.length = 4 ∧ (∃ transaction, Node.Submits transaction 1 ran.2) ∧
      ran.2.countP Exchange.submits ≤ 1 := by
  intro ran
  obtain ⟨receipt, submitted, first, second, told, sends⟩ := Node.send_pending
  have asks := (exchanges_of_execute Node.pending (plan_count .nonpayable) 1).2
  have answered : ((Node.pending.chain.answer (Request.call (counter .nonpayable)
      (count .nonpayable) [] ⟨.zero, none⟩).operation).run 1).run [] =
        ((.ok receipt, 5), [submitted, first, second, told]) := by
    change ((Node.pending.chain.send (counter .nonpayable) (count .nonpayable) []
      ⟨.zero, none⟩).run 1).run [] = _
    exact sends
  rw [answered] at asks
  have some : ran.2 = [submitted, first, second, told] := asks
  obtain ⟨-, -, submits, once⟩ := submits_at_most_once (.call "counter" "count")
    (besideCounter .nonpayable) 0 Node.pending Node.pendingReplies rfl 1
  refine ⟨congrArg List.length some, ?_, once⟩
  have submits := submits fun handle f args options same => by
    rw [plan_count] at same
    cases same
    rfl
  exact submits.resolve_left fun silent => List.cons_ne_nil _ _ (some.symm.trans silent)

end Rehearsal
