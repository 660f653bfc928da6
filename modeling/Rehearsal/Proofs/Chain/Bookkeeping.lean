import Mathlib.Data.List.Nodup
import Rehearsal.Proofs.Address
import Rehearsal.Proofs.Chain.Turn
import Rehearsal.Proofs.Text.Numeral

namespace Rehearsal

/-! The books of a simulated chain: blocks are numbered by the receipts, hashes count invocations,
and deployments count deployments. The counters move apart, since an operation may be recorded without
a block, and refused without a record; but none of them ever goes back. -/

structure Reply where
  operation : Operation
  answer : Except ChainError operation.Answer

namespace Reply

def receipt? (reply : Reply) : Option Receipt :=
  match reply.answer with
  | .ok answer => reply.operation.receipt? answer
  | .error _ => none

def address? : Reply → Option Address
  | ⟨.deploy .., .ok deployment⟩ => some (Deployment.handle deployment).address
  | _ => none

def receipts (replies : List Reply) : List Receipt :=
  replies.filterMap receipt?

def deployments (replies : List Reply) : List Address :=
  replies.filterMap address?

theorem receipts_append (replies others : List Reply) :
    receipts (replies ++ others) = receipts replies ++ receipts others :=
  List.filterMap_append

theorem deployments_append (replies others : List Reply) :
    deployments (replies ++ others) = deployments replies ++ deployments others :=
  List.filterMap_append

end Reply

def Chain.answerAll {m : Type → Type} [Monad m] (chain : Chain m) :
    List Operation → m (List Reply)
  | [] => pure []
  | operation :: rest => do
      let answer ← chain.answer operation
      let replies ← chain.answerAll rest
      return ⟨operation, answer⟩ :: replies

namespace Simulation

open Reply (receipts receipts_append deployments deployments_append)

variable {κ : Type} {s : Simulation κ} {ledger middle left : Ledger κ} {reply : Reply}
  {replies others : List Reply}

def after (s : Simulation κ) (operations : List Operation) : List Reply × Ledger κ :=
  (s.chain.answerAll operations).run .empty

def hashOf (count : Nat) : String :=
  "0x" ++ String.ofList (Text.hexadecimal 64 count)

/-- The address of the deployment of a number. -/
def site (number : Nat) : Address :=
  .ofLow (contractBase + number)

theorem hashOf_injective : Function.Injective hashOf := by
  intro m n same
  have texts : String.toList (hashOf m) = String.toList (hashOf n) := congrArg String.toList same
  simp only [hashOf, String.toList_append, String.toList_ofList] at texts
  exact Text.hexadecimal_injective 64 (List.append_cancel_left texts)

theorem site_inj {m n : Nat} (mFits : contractBase + m < Text.limit64)
    (nFits : contractBase + n < Text.limit64) : site m = site n ↔ m = n := by
  rw [site, site, Address.ofLow_inj mFits nFits, Nat.add_left_cancel_iff]

/-! Counters. -/

/-- What replies add to the books. -/
structure Books (ledger : Ledger κ) (replies : List Reply) (left : Ledger κ) : Prop where
  log : ∃ made, left.invocations = ledger.invocations ++ made ∧ made.length ≤ replies.length
  height : left.height = ledger.height + (receipts replies).length
  blocks : (receipts replies).map Receipt.block =
    (List.range' (ledger.height + 1) (receipts replies).length).map some
  counted : ∀ hash ∈ (receipts replies).map Receipt.transaction, ∃ count,
    ledger.invocations.length < count ∧ count ≤ left.invocations.length ∧ hash = hashOf count
  hashes : ((receipts replies).map Receipt.transaction).Nodup
  deployed : left.deployed = ledger.deployed + (deployments replies).length
  sites : deployments replies =
    (List.range' (ledger.deployed + 1) (deployments replies).length).map site

namespace Books

theorem length_le (books : Books ledger replies left) :
    ledger.invocations.length ≤ left.invocations.length := by
  obtain ⟨made, log, -⟩ := books.log
  rw [log, List.length_append]
  exact Nat.le_add_right _ _

theorem nil (ledger : Ledger κ) : Books ledger [] ledger where
  log := ⟨[], by simp, Nat.le_refl _⟩
  height := rfl
  blocks := rfl
  counted := by
    intro hash member
    cases member
  hashes := List.nodup_nil
  deployed := rfl
  sites := rfl

theorem append (first : Books ledger replies middle) (second : Books middle others left) :
    Books ledger (replies ++ others) left where
  log := by
    obtain ⟨made, log, bound⟩ := first.log
    obtain ⟨more, longer, moreBound⟩ := second.log
    refine ⟨made ++ more, by rw [longer, log, List.append_assoc], ?_⟩
    simp only [List.length_append]
    exact Nat.add_le_add bound moreBound
  height := by
    rw [second.height, first.height, receipts_append, List.length_append, Nat.add_assoc]
  blocks := by
    have start : middle.height + 1 = ledger.height + 1 + (receipts replies).length := by
      rw [first.height, Nat.add_right_comm]
    rw [receipts_append, List.map_append, first.blocks, second.blocks, start, ← List.map_append,
      List.length_append, List.range'_append_1]
  counted := by
    intro hash member
    rw [receipts_append, List.map_append, List.mem_append] at member
    rcases member with early | late
    · obtain ⟨count, lower, upper, same⟩ := first.counted hash early
      exact ⟨count, lower, Nat.le_trans upper second.length_le, same⟩
    · obtain ⟨count, lower, upper, same⟩ := second.counted hash late
      exact ⟨count, Nat.lt_of_le_of_lt first.length_le lower, upper, same⟩
  hashes := by
    rw [receipts_append, List.map_append]
    refine List.nodup_append.mpr ⟨first.hashes, second.hashes, ?_⟩
    intro hash early other late same
    obtain ⟨count, -, upper, isCount⟩ := first.counted hash early
    obtain ⟨next, lower, -, isNext⟩ := second.counted other late
    have equal : count = next := hashOf_injective (by rw [← isCount, ← isNext, same])
    omega
  deployed := by
    rw [second.deployed, first.deployed, deployments_append, List.length_append, Nat.add_assoc]
  sites := by
    have start : middle.deployed + 1 = ledger.deployed + 1 + (deployments replies).length := by
      rw [first.deployed, Nat.add_right_comm]
    rw [deployments_append, List.length_append, ← List.range'_append_1, List.map_append,
      ← first.sites, ← start, ← second.sites]

theorem quiet (noReceipt : reply.receipt? = none) (noAddress : reply.address? = none)
    (log : ∃ made, left.invocations = ledger.invocations ++ made ∧ made.length ≤ 1)
    (height : left.height = ledger.height) (deployed : left.deployed = ledger.deployed) :
    Books ledger [reply] left := by
  have receiptless : receipts [reply] = [] := by simp [receipts, noReceipt]
  have siteless : deployments [reply] = [] := by simp [deployments, noAddress]
  constructor
  case log => exact log
  case height => rw [receiptless, height]; rfl
  case blocks => rw [receiptless]; rfl
  case counted => simp [receiptless]
  case hashes => simp [receiptless]
  case deployed => rw [siteless, deployed]; rfl
  case sites => rw [siteless]; rfl

theorem included {receipt : Receipt} {invocation : Invocation}
    (given : reply.receipt? = some receipt)
    (log : left.invocations = ledger.invocations ++ [invocation])
    (height : left.height = ledger.height + 1) (block : receipt.block = some (ledger.height + 1))
    (hash : receipt.transaction = hashOf left.invocations.length)
    (deployed : left.deployed = ledger.deployed + (deployments [reply]).length)
    (sites : deployments [reply] =
      (List.range' (ledger.deployed + 1) (deployments [reply]).length).map site) :
    Books ledger [reply] left := by
  have single : receipts [reply] = [receipt] := by simp [receipts, given]
  constructor
  case log => exact ⟨[invocation], log, Nat.le_refl 1⟩
  case height => rw [single, height]; rfl
  case blocks => simp [single, block]
  case counted =>
    intro other member
    rw [single] at member
    rw [List.mem_singleton.mp member]
    exact ⟨_, by simp [log], Nat.le_refl _, hash⟩
  case hashes => simp [single]
  case deployed => exact deployed
  case sites => exact sites

end Books

theorem Turn.books {operation : Operation} {answer : Except ChainError operation.Answer}
    (turn : s.Turn ledger operation answer left) : Books ledger [⟨operation, answer⟩] left := by
  cases turn with
  | listed => exact .quiet rfl rfl ⟨[], by simp, by simp⟩ rfl rfl
  | refused e =>
      refine .quiet rfl ?_ ⟨[], by simp, by simp⟩ rfl rfl
      cases operation with
      | signers => rfl
      | deploy => rfl
      | call => rfl
      | send => rfl
  | unbuilt => exact .quiet rfl rfl ⟨[_], rfl, Nat.le_refl 1⟩ rfl rfl
  | deployed prepared built seals =>
      cases seals
      exact .included rfl rfl rfl rfl rfl rfl rfl
  | called found answer =>
      refine .quiet ?_ rfl ⟨[_], rfl, Nat.le_refl 1⟩ rfl rfl
      cases answer with
      | error e => rfl
      | ok value => rfl
  | late seals =>
      cases seals
      exact .included rfl rfl rfl rfl rfl rfl rfl
  | reverted found refuses => exact .quiet rfl rfl ⟨[_], rfl, Nat.le_refl 1⟩ rfl rfl
  | untold found answers fails => exact .quiet rfl rfl ⟨[_], rfl, Nat.le_refl 1⟩ rfl rfl
  | sent found answers told seals =>
      cases seals
      exact .included rfl rfl rfl rfl rfl rfl rfl

/-! Contracts. -/

/-- A contract comes of another at the same address by the calls that it has answered. -/
inductive Descends (s : Simulation κ) (address : Address) (contract : κ) : κ → Prop where
  | same : Descends s address contract contract
  | answered {now : κ} (before : Descends s address contract now) (call : Call)
      (here : call.this = address) : Descends s address contract (s.answer now call).2

theorem Descends.trans {address : Address} {contract next last : κ}
    (first : s.Descends address contract next) (second : s.Descends address next last) :
    s.Descends address contract last := by
  induction second with
  | same => exact first
  | answered before call here ih => exact .answered ih call here

/-- Contracts stand at the sites of the deployments so far. -/
def Sited (ledger : Ledger κ) : Prop :=
  ∀ address contract, find? address ledger.contracts = some contract →
    ∃ number, number ≤ ledger.deployed ∧ address = site number

/-- Every contract of a ledger still stands in another at its address. -/
def Persists (s : Simulation κ) (ledger left : Ledger κ) : Prop :=
  ∀ address contract, find? address ledger.contracts = some contract →
    ∃ now, find? address left.contracts = some now ∧ s.Descends address contract now

theorem Persists.refl (ledger : Ledger κ) : s.Persists ledger ledger :=
  fun _ contract found => ⟨contract, found, .same⟩

theorem Persists.trans (first : s.Persists ledger middle) (second : s.Persists middle left) :
    s.Persists ledger left := by
  intro address contract found
  obtain ⟨next, foundNext, descends⟩ := first address contract found
  obtain ⟨last, foundLast, further⟩ := second address next foundNext
  exact ⟨last, foundLast, descends.trans further⟩

theorem sited_of_put_found {address : Address} {contract next : κ} (sited : Sited ledger)
    (found : find? address ledger.contracts = some contract)
    (contracts : left.contracts = put address next ledger.contracts)
    (deployed : left.deployed = ledger.deployed) : Sited left := by
  intro other there foundThere
  rw [contracts, find?_put] at foundThere
  rw [deployed]
  split at foundThere
  · next here => exact sited other contract (here ▸ found)
  · exact sited other there foundThere

theorem sited_of_put_next {contract : κ} (sited : Sited ledger)
    (contracts : left.contracts = put ledger.nextAddress contract ledger.contracts)
    (deployed : left.deployed = ledger.deployed + 1) : Sited left := by
  intro address other found
  rw [contracts, find?_put] at found
  rw [deployed]
  split at found
  · next here => exact ⟨ledger.deployed + 1, Nat.le_refl _, here.symm⟩
  · obtain ⟨number, bound, same⟩ := sited address other found
    exact ⟨number, Nat.le_succ_of_le bound, same⟩

theorem persists_of_put_answer {contract : κ} {call : Call}
    (found : find? call.this ledger.contracts = some contract)
    (contracts : left.contracts = put call.this (s.answer contract call).2 ledger.contracts) :
    s.Persists ledger left := by
  intro address other foundOther
  rw [contracts, find?_put]
  split
  · next here =>
    rw [here, foundOther] at found
    cases found
    exact ⟨_, rfl, .answered .same call here⟩
  · exact ⟨other, foundOther, .same⟩

theorem persists_of_put_next {contract : κ} (sited : Sited ledger)
    (fits : contractBase + (ledger.deployed + 1) < Text.limit64)
    (contracts : left.contracts = put ledger.nextAddress contract ledger.contracts) :
    s.Persists ledger left := by
  intro address other found
  obtain ⟨number, bound, rfl⟩ := sited address other found
  have fresh : ledger.nextAddress ≠ site number := by
    intro same
    have equal := (site_inj fits (by omega)).mp same
    omega
  rw [contracts, find?_put, if_neg fresh]
  exact ⟨other, found, .same⟩

theorem Turn.sited {operation : Operation} {answer : Except ChainError operation.Answer}
    (turn : s.Turn ledger operation answer left) (sited : Sited ledger) : Sited left := by
  cases turn with
  | listed => exact sited
  | refused => exact sited
  | unbuilt => exact sited
  | deployed prepared built seals =>
      cases seals
      exact sited_of_put_next sited rfl rfl
  | called found => exact sited_of_put_found sited found rfl rfl
  | late seals =>
      cases seals
      exact sited
  | reverted found => exact sited_of_put_found sited found rfl rfl
  | untold found => exact sited_of_put_found sited found rfl rfl
  | sent found answers told seals =>
      cases seals
      exact sited_of_put_found sited found rfl rfl

theorem Turn.persists {operation : Operation} {answer : Except ChainError operation.Answer}
    (turn : s.Turn ledger operation answer left) (sited : Sited ledger)
    (fits : contractBase + left.deployed < Text.limit64) : s.Persists ledger left := by
  cases turn with
  | listed => exact .refl ledger
  | refused => exact .refl ledger
  | unbuilt => exact .refl ledger
  | deployed prepared built seals =>
      cases seals
      exact persists_of_put_next sited fits rfl
  | called found => exact persists_of_put_answer found rfl
  | late seals =>
      cases seals
      exact .refl ledger
  | reverted found => exact persists_of_put_answer found rfl
  | untold found => exact persists_of_put_answer found rfl
  | sent found answers told seals =>
      cases seals
      exact persists_of_put_answer found rfl

/-! Runs. -/

inductive Turns (s : Simulation κ) : Ledger κ → List Reply → Ledger κ → Prop where
  | none (ledger : Ledger κ) : Turns s ledger [] ledger
  | next {ledger middle left : Ledger κ} {operation : Operation}
      {answer : Except ChainError operation.Answer} {replies : List Reply}
      (turn : s.Turn ledger operation answer middle) (rest : Turns s middle replies left) :
      Turns s ledger (⟨operation, answer⟩ :: replies) left

theorem turns_of_answerAll (s : Simulation κ) (ledger : Ledger κ) (operations : List Operation) :
    s.Turns ledger ((s.chain.answerAll operations).run ledger).1
      ((s.chain.answerAll operations).run ledger).2 := by
  induction operations generalizing ledger with
  | nil => exact .none ledger
  | cons operation rest ih => exact .next (turn_of_answer rfl) (ih _)

theorem Turns.books (turns : s.Turns ledger replies left) : Books ledger replies left := by
  induction turns with
  | none ledger => exact .nil ledger
  | next turn rest ih => exact turn.books.append ih

theorem Turns.sited (turns : s.Turns ledger replies left) (sited : Sited ledger) : Sited left := by
  induction turns with
  | none => exact sited
  | next turn rest ih => exact ih (turn.sited sited)

theorem Turns.persists (turns : s.Turns ledger replies left) (sited : Sited ledger)
    (fits : contractBase + left.deployed < Text.limit64) : s.Persists ledger left := by
  induction turns with
  | none ledger => exact .refl ledger
  | next turn rest ih =>
      have onward := rest.books.deployed
      exact (turn.persists sited (by omega)).trans (ih (turn.sited sited) fits)

theorem run_answerAll_cons (s : Simulation κ) (ledger : Ledger κ) (operation : Operation)
    (rest : List Operation) : (s.chain.answerAll (operation :: rest)).run ledger =
      let answered := (s.chain.answer operation).run ledger
      let onward := (s.chain.answerAll rest).run answered.2
      (⟨operation, answered.1⟩ :: onward.1, onward.2) := rfl

theorem run_answerAll_append (s : Simulation κ) (ledger : Ledger κ) (front back : List Operation) :
    (s.chain.answerAll (front ++ back)).run ledger =
      let before := (s.chain.answerAll front).run ledger
      let onward := (s.chain.answerAll back).run before.2
      (before.1 ++ onward.1, onward.2) := by
  induction front generalizing ledger with
  | nil => rfl
  | cons operation rest ih =>
      simp only [List.cons_append, run_answerAll_cons, ih]

theorem length_answerAll (s : Simulation κ) (ledger : Ledger κ) (operations : List Operation) :
    ((s.chain.answerAll operations).run ledger).1.length = operations.length := by
  induction operations generalizing ledger with
  | nil => rfl
  | cons operation rest ih => exact congrArg Nat.succ (ih _)

theorem sited_empty : Sited (.empty : Ledger κ) := by
  intro address contract found
  cases found

theorem exists_turns_behind (s : Simulation κ) (front back : List Operation) : ∃ others,
    s.Turns (s.after front).2 others (s.after (front ++ back)).2 ∧ others.length = back.length := by
  have onward := turns_of_answerAll s (s.after front).2 back
  have same : (s.after (front ++ back)).2 =
      ((s.chain.answerAll back).run (s.after front).2).2 := by
    rw [after, run_answerAll_append]
    rfl
  rw [← same] at onward
  exact ⟨_, onward, length_answerAll s (s.after front).2 back⟩

theorem persists_behind (s : Simulation κ) (front back : List Operation)
    (fits : contractBase + (s.after (front ++ back)).2.deployed < Text.limit64) :
    s.Persists (s.after front).2 (s.after (front ++ back)).2 := by
  obtain ⟨others, onward, -⟩ := exists_turns_behind s front back
  have sited : Sited (s.after front).2 := (turns_of_answerAll s .empty front).sited sited_empty
  exact onward.persists sited fits

theorem Books.nodup_deployments (books : Books .empty replies left)
    (fits : contractBase + (deployments replies).length < Text.limit64) :
    (deployments replies).Nodup := by
  rw [books.sites]
  apply List.Nodup.map_on _ List.nodup_range'
  intro m mMember n nMember same
  have fresh : (Ledger.empty : Ledger κ).deployed = 0 := rfl
  have mBound := List.mem_range'_1.mp mMember
  have nBound := List.mem_range'_1.mp nMember
  exact (site_inj (by omega) (by omega)).mp same

theorem find?_of_deployed {name : String} {args : List Json} {options : CallOptions}
    {deployment : Deployment}
    (turn : s.Turn ledger (.deploy name args options) (.ok deployment) left) :
    ∃ artifact contract, s.prepare name args = .ok artifact ∧
      artifact.build args options.sender = .ok contract ∧
      find? deployment.handle.address left.contracts = some contract := by
  cases turn with
  | deployed prepared built seals =>
      cases seals
      refine ⟨_, _, prepared, built, ?_⟩
      change find? ledger.nextAddress (put ledger.nextAddress _ ledger.contracts) = _
      rw [find?_put, if_pos rfl]

/-- Whatever is asked of a fresh chain, the receipts number its blocks from one on without gaps and
carry different hashes, and no operation makes more than one entry in the log. As long as their
numbers fit 64 bits, deployed contracts stand at different addresses, each of them for good: at any
later time, the contract at the address is the one that was built, with what it has made of the
calls to it. -/
theorem answerAll_keeps_books (s : Simulation κ) (operations : List Operation) :
    let replies := (s.after operations).1
    let left := (s.after operations).2
    ((receipts replies).map Receipt.block = (List.range' 1 (receipts replies).length).map some ∧
      ((receipts replies).map Receipt.transaction).Nodup) ∧
    (∀ front back, operations = front ++ back → ∃ made,
      left.invocations = (s.after front).2.invocations ++ made ∧ made.length ≤ back.length) ∧
    (contractBase + (deployments replies).length < Text.limit64 →
      (deployments replies).Nodup ∧
      (∀ front back, operations = front ++ back → s.Persists (s.after front).2 left) ∧
      ∀ front name args options back deployment,
        operations = front ++ .deploy name args options :: back →
        (s.deploy name args options (s.after front).2).1 = .ok deployment →
          ∃ artifact contract now, s.prepare name args = .ok artifact ∧
            artifact.build args options.sender = .ok contract ∧
            find? deployment.handle.address left.contracts = some now ∧
            s.Descends deployment.handle.address contract now) := by
  intro replies left
  have turns : s.Turns .empty replies left := turns_of_answerAll s .empty operations
  have books := turns.books
  have deployed : left.deployed = (deployments replies).length := by
    rw [books.deployed]
    exact Nat.zero_add _
  refine ⟨⟨books.blocks, books.hashes⟩, ?_, ?_⟩
  · intro front back split
    obtain ⟨others, onward, length⟩ := exists_turns_behind s front back
    rw [← split] at onward
    rw [← length]
    exact onward.books.log
  · intro fits
    rw [← deployed] at fits
    have persists : ∀ front back, operations = front ++ back →
        s.Persists (s.after front).2 left := by
      intro front back split
      have behind := persists_behind s front back
      rw [← split] at behind
      exact behind fits
    refine ⟨books.nodup_deployments (deployed ▸ fits), persists, ?_⟩
    intro front name args options back deployment split answered
    have turn := s.turn_deploy (s.after front).2 name args options
    rw [answered] at turn
    obtain ⟨artifact, contract, prepared, built, found⟩ := find?_of_deployed turn
    have step : (s.after (front ++ [.deploy name args options])).2 =
        (s.deploy name args options (s.after front).2).2 := by
      rw [after, run_answerAll_append]
      rfl
    have later := persists (front ++ [.deploy name args options]) back (by simp [split])
    rw [step] at later
    obtain ⟨now, foundNow, descends⟩ := later _ contract found
    exact ⟨artifact, contract, now, prepared, built, foundNow, descends⟩

def counters : Simulation Nat :=
  { counting with artifacts := [("Counter", ⟨(counter .view).interface, fun _ _ => .ok 0⟩)] }

def rounds : List Operation :=
  [.deploy "Counter" [] ⟨.zero, none⟩,
    .call ⟨"Counter", site 1, (counter .view).interface⟩ (count .view) [] ⟨.zero, none⟩,
    .deploy "Counter" [] ⟨.zero, none⟩]

theorem answerAll_keeps_books_of_counters :
    contractBase + (deployments (counters.after rounds).1).length < Text.limit64 ∧
      (deployments (counters.after rounds).1).Nodup ∧
      ∃ now, find? (site 1) (counters.after rounds).2.contracts = some now ∧
        counters.Descends (site 1) 0 now := by
  obtain ⟨-, -, sites⟩ := answerAll_keeps_books counters rounds
  have fits : contractBase + (deployments (counters.after rounds).1).length < Text.limit64 := by
    decide
  obtain ⟨different, -, stands⟩ := sites fits
  obtain ⟨artifact, contract, now, prepared, built, found, descends⟩ :=
    stands [] "Counter" [] ⟨.zero, none⟩ _ _ rfl rfl
  cases prepared
  cases built
  exact ⟨fits, different, now, found, descends⟩

end Simulation

end Rehearsal
