import Rehearsal.Chain.Node
import Rehearsal.Proofs.Result

namespace Rehearsal

/-! A node by its replies. Whatever a node answers, it gives one reply after the other, and the
requests that come between them are recorded. -/

structure Exchange where
  request : Json
  reply : Except TransportFault String

def Exchange.result (exchange : Exchange) : Except ChainError Json :=
  match exchange.reply with
  | .error fault => .error (.transport fault)
  | .ok text => Node.resultOf text

/-- The way to a node that gives these replies, and records what it is asked. -/
def Link.replying (replies : Nat → Except TransportFault String) :
    Link (StateM (List Exchange)) where
  post request := fun exchanges =>
    (replies exchanges.length, exchanges ++ [⟨request, replies exchanges.length⟩])
  wait _ := pure ()

namespace Node

/-! Exchanges about one transaction. -/

def receiptIn : Except ChainError Json → Except ChainError (Option Receipt)
  | .error e => .error e
  | .ok .null => .ok none
  | .ok value => some <$> receiptOf value

/-- The receipt of a transaction is asked for until a reply is no null, or the time is up. -/
inductive Awaits (hash : String) : Nat → List Exchange → Except ChainError Receipt → Prop where
  | failed {id : Nat} {exchange : Exchange} {e : ChainError}
      (asks : exchange.request = body id "eth_getTransactionReceipt" [.string hash])
      (tells : receiptIn exchange.result = .error e) : Awaits hash id [exchange] (.error e)
  | told {id : Nat} {exchange : Exchange} {receipt : Receipt}
      (asks : exchange.request = body id "eth_getTransactionReceipt" [.string hash])
      (tells : receiptIn exchange.result = .ok (some receipt)) :
      Awaits hash id [exchange] (.ok receipt)
  | late {id : Nat} {exchange : Exchange} {seconds : Nat}
      (asks : exchange.request = body id "eth_getTransactionReceipt" [.string hash])
      (tells : receiptIn exchange.result = .ok none) :
      Awaits hash id [exchange] (.error (.receiptTimeout hash seconds))
  | further {id : Nat} {exchange : Exchange} {exchanges : List Exchange}
      {receipt : Except ChainError Receipt}
      (asks : exchange.request = body id "eth_getTransactionReceipt" [.string hash])
      (tells : receiptIn exchange.result = .ok none)
      (others : Awaits hash (id + 1) exchanges receipt) :
      Awaits hash id (exchange :: exchanges) receipt

/-- A transaction is submitted once, and awaited if the node gives it a hash. -/
inductive Transacts (transaction : Json) :
    Nat → List Exchange → Except ChainError Receipt → Prop where
  | refused {id : Nat} {exchange : Exchange} {e : ChainError}
      (asks : exchange.request = body id "eth_sendTransaction" [transaction])
      (carries : exchange.result = .error e) : Transacts transaction id [exchange] (.error e)
  | unexpected {id : Nat} {exchange : Exchange} {value : Json}
      (asks : exchange.request = body id "eth_sendTransaction" [transaction])
      (carries : exchange.result = .ok value) (noHash : ∀ hash, value ≠ .string hash) :
      Transacts transaction id [exchange] (.error (.transport (.unexpectedHash value)))
  | submitted {id : Nat} {exchange : Exchange} {exchanges : List Exchange} {hash : String}
      {receipt : Except ChainError Receipt}
      (asks : exchange.request = body id "eth_sendTransaction" [transaction])
      (carries : exchange.result = .ok (.string hash))
      (awaits : Awaits hash (id + 1) exchanges receipt) :
      Transacts transaction id (exchange :: exchanges) receipt

theorem run_request {m : Type → Type} [Monad m] [LawfulMonad m] (node : Node m) (method : String)
    (params : List Json) (id : Nat) :
    (node.request method params).run id =
      (fun reply => (Exchange.result ⟨body id method params, reply⟩, id + 1)) <$>
        node.link.post (body id method params) := by
  simp only [request, StateT.run_bind, StateT.run_get, StateT.run_set, pure_bind,
    map_eq_pure_bind, StateT.run_monadLift, bind_assoc, monadLift_self, liftM]
  refine bind_congr fun reply => ?_
  cases reply with
  | error fault => rfl
  | ok text => rfl

variable {node : Node (StateM (List Exchange))} {replies : Nat → Except TransportFault String}

theorem run_request_replying (replying : node.link = .replying replies) (method : String)
    (params : List Json) (id : Nat) (exchanges : List Exchange) :
    let exchange : Exchange := ⟨body id method params, replies exchanges.length⟩
    ((node.request method params).run id).run exchanges =
      ((exchange.result, id + 1), exchanges ++ [exchange]) := by
  rw [run_request, replying]
  rfl

theorem run_askReceipt (replying : node.link = .replying replies) (hash : String) (id : Nat)
    (exchanges : List Exchange) :
    let exchange : Exchange :=
      ⟨body id "eth_getTransactionReceipt" [.string hash], replies exchanges.length⟩
    ((node.askReceipt hash).run id).run exchanges =
      ((receiptIn exchange.result, id + 1), exchanges ++ [exchange]) := by
  intro exchange
  rw [askReceipt, StateT.run_bind, StateT.run_bind, run_request_replying replying]
  change StateT.run (StateT.run (match exchange.result with | _ => _) _) _ = _
  cases exchange.result with
  | error e => rfl
  | ok value =>
      cases value with
      | null => rfl
      | bool | number | string | array | object => rfl

theorem awaits_of_run (replying : node.link = .replying replies) (hash : String) (more : Nat)
    (id : Nat) (exchanges : List Exchange) :
    let run := ((node.awaitReceipt hash more).run id).run exchanges
    ∃ made, run.2 = exchanges ++ made ∧ Awaits hash id made run.1.1 := by
  intro run
  subst run
  induction more generalizing id exchanges with
  | zero =>
      rw [awaitReceipt, StateT.run_bind, StateT.run_bind, run_askReceipt replying]
      cases tells : receiptIn (Exchange.result ⟨_, replies exchanges.length⟩) with
      | error e => exact ⟨_, rfl, .failed rfl tells⟩
      | ok found =>
          cases found with
          | none => exact ⟨_, rfl, .late rfl tells⟩
          | some receipt => exact ⟨_, rfl, .told rfl tells⟩
  | succ more ih =>
      rw [awaitReceipt, StateT.run_bind, StateT.run_bind, run_askReceipt replying]
      cases tells : receiptIn (Exchange.result ⟨_, replies exchanges.length⟩) with
      | error e => exact ⟨_, rfl, .failed rfl tells⟩
      | ok found =>
          cases found with
          | none =>
              -- Waiting changes nothing, so the rest runs from here.
              simp only [replying]
              obtain ⟨made, ran, awaits⟩ := ih (id + 1) (exchanges ++ [⟨_, replies exchanges.length⟩])
              exact ⟨_ :: made, ran.trans (List.append_assoc ..), .further rfl tells awaits⟩
          | some receipt => exact ⟨_, rfl, .told rfl tells⟩

theorem transacts_of_run (replying : node.link = .replying replies) (transaction : Json) (id : Nat)
    (exchanges : List Exchange) :
    let run := ((node.transact transaction).run id).run exchanges
    ∃ made, run.2 = exchanges ++ made ∧ Transacts transaction id made run.1.1 := by
  intro run
  subst run
  rw [transact, StateT.run_bind, StateT.run_bind, run_request_replying replying]
  cases carries : Exchange.result ⟨_, replies exchanges.length⟩ with
  | error e => exact ⟨_, rfl, .refused rfl carries⟩
  | ok value =>
      cases value with
      | string hash =>
          obtain ⟨made, ran, awaits⟩ := awaits_of_run replying hash
            (waits node.receiptSeconds node.pollMilliseconds) (id + 1)
            (exchanges ++ [⟨_, replies exchanges.length⟩])
          exact ⟨_ :: made, ran.trans (List.append_assoc ..), .submitted rfl carries awaits⟩
      | null | bool | number | array | object =>
          exact ⟨_, rfl, .unexpected rfl carries fun _ => Json.noConfusion⟩

/-! What a receipt tells. -/

theorem receiptOf_eq_ok {value : Json} {receipt : Receipt} (read : receiptOf value = .ok receipt) :
    receipt.transaction = (value.field "transactionHash").string?.getD "" ∧
      receipt.status = quantity? (value.field "status") := by
  unfold receiptOf at read
  split at read
  all_goals
    simp only [bind_eq_ok, pure_eq_ok] at read
    obtain ⟨contract, -, logs, -, rfl⟩ := read
    exact ⟨rfl, rfl⟩

theorem receiptIn_eq_some {result : Except ChainError Json} {receipt : Receipt}
    (tells : receiptIn result = .ok (some receipt)) :
    ∃ value, result = .ok value ∧ receiptOf value = .ok receipt := by
  unfold receiptIn at tells
  split at tells
  · contradiction
  · cases tells
  · next value given =>
    obtain ⟨receipt, read, same⟩ := map_eq_ok.mp tells
    cases same
    exact ⟨value, rfl, read⟩

end Node

/-- The reply gives a receipt, and this is the hash that it names; it may name none. -/
def Exchange.Names (exchange : Exchange) (hash : String) : Prop :=
  ∃ id submitted value,
    exchange.request = Node.body id "eth_getTransactionReceipt" [.string submitted] ∧
      exchange.result = .ok value ∧ hash = (value.field "transactionHash").string?.getD ""

/-- The reply gives a receipt of a transaction that was reverted. -/
def Exchange.TellsRevert (exchange : Exchange) : Prop :=
  ∃ id hash value, exchange.request = Node.body id "eth_getTransactionReceipt" [.string hash] ∧
    exchange.result = .ok value ∧ Node.quantity? (value.field "status") = some 0

namespace Node

theorem body_method {id other : Nat} {method name : String} {params values : List Json}
    (same : body id method params = body other name values) : method = name := by
  simp only [body, Json.object.injEq, List.cons.injEq, Prod.mk.injEq, Json.string.injEq] at same
  exact same.2.2.1.2

theorem not_tellsRevert {exchange : Exchange} {id : Nat} {method : String} {params : List Json}
    (asks : exchange.request = body id method params)
    (other : method ≠ "eth_getTransactionReceipt") : ¬exchange.TellsRevert := by
  rintro ⟨_, _, _, asked, -, -⟩
  exact other (body_method (asks.symm.trans asked))

theorem reverted_of_tellsRevert {exchange : Exchange} {found : Option Receipt}
    (tellsRevert : exchange.TellsRevert) (tells : receiptIn exchange.result = .ok found) :
    ∃ receipt, found = some receipt ∧ receipt.reverted = true := by
  obtain ⟨id, hash, value, -, carries, zero⟩ := tellsRevert
  rw [carries] at tells
  unfold receiptIn at tells
  split at tells
  · contradiction
  · next null => cases null; contradiction
  · next given =>
    cases given
    obtain ⟨receipt, read, rfl⟩ := map_eq_ok.mp tells
    exact ⟨receipt, rfl, by rw [Receipt.reverted, (receiptOf_eq_ok read).2, zero]; rfl⟩

variable {id : Nat} {exchanges : List Exchange} {answer : Except ChainError Receipt}
  {receipt : Receipt}

theorem Awaits.reverted {hash : String} (awaits : Awaits hash id exchanges answer)
    (answered : answer = .ok receipt) :
    ∀ exchange ∈ exchanges, exchange.TellsRevert → receipt.reverted = true := by
  intro exchange member tellsRevert
  induction awaits with
  | failed asks tells => cases answered
  | told asks tells =>
      cases answered
      cases List.mem_singleton.mp member
      obtain ⟨receipt, found, reverted⟩ := reverted_of_tellsRevert tellsRevert tells
      cases found
      exact reverted
  | late asks tells => cases answered
  | further asks tells others ih =>
      rcases List.mem_cons.mp member with rfl | later
      · obtain ⟨receipt, found, -⟩ := reverted_of_tellsRevert tellsRevert tells
        cases found
      · exact ih answered later

theorem Transacts.reverted {transaction : Json} (transacts : Transacts transaction id exchanges answer)
    (answered : answer = .ok receipt) :
    ∀ exchange ∈ exchanges, exchange.TellsRevert → receipt.reverted = true := by
  intro exchange member tellsRevert
  cases transacts with
  | refused asks carries => cases answered
  | unexpected asks carries noHash => cases answered
  | submitted asks carries awaits =>
      rcases List.mem_cons.mp member with rfl | later
      · exact absurd tellsRevert (not_tellsRevert asks (by decide))
      · exact awaits.reverted answered exchange later tellsRevert

theorem Awaits.names_last {hash : String} (awaits : Awaits hash id exchanges answer)
    (answered : answer = .ok receipt) :
    ∃ front exchange, exchanges = front ++ [exchange] ∧ exchange.Names receipt.transaction := by
  induction awaits with
  | failed asks tells => cases answered
  | @told id exchange found asks tells =>
      cases answered
      obtain ⟨value, carries, read⟩ := receiptIn_eq_some tells
      exact ⟨[], exchange, rfl, id, hash, value, asks, carries, (receiptOf_eq_ok read).1⟩
  | late asks tells => cases answered
  | further asks tells others ih =>
      obtain ⟨front, exchange, rfl, names⟩ := ih answered
      exact ⟨_ :: front, exchange, rfl, names⟩

theorem Transacts.names_last {transaction : Json}
    (transacts : Transacts transaction id exchanges answer) (answered : answer = .ok receipt) :
    ∃ front exchange, exchanges = front ++ [exchange] ∧ exchange.Names receipt.transaction := by
  cases transacts with
  | refused asks carries => cases answered
  | unexpected asks carries noHash => cases answered
  | submitted asks carries awaits =>
      obtain ⟨front, exchange, rfl, names⟩ := awaits.names_last answered
      exact ⟨_ :: front, exchange, rfl, names⟩

end Node

end Rehearsal
