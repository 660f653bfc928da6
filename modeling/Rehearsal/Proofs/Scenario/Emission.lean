import Rehearsal.Proofs.Abi.LogRoundTrip
import Rehearsal.Scenario.Execution

namespace Rehearsal

open Json (Mapping)

theorem Context.contractAt?_eq_some {context : Context} {address : Address} {handle : Handle} :
    context.contractAt? address = some handle ↔
      ∃ name, FirstIn (fun entry => entry.2.address = address) context.contracts (name, handle) := by
  simp only [Context.contractAt?, Option.map_eq_some_iff,
    find?_eq_some_iff_firstIn fun (entry : String × Handle) => beq_iff_eq (a := entry.2.address)]
  constructor
  · rintro ⟨⟨name, found⟩, first, rfl⟩
    exact ⟨name, first⟩
  · rintro ⟨name, first⟩
    exact ⟨(name, handle), first, rfl⟩

namespace Execution

/-- The first contract by name at the address of a log, and the first of its events that heads
the log. -/
def Chosen (context : Context) (log : Abi.Log) (handle : Handle) (e : Abi.Event) : Prop :=
  (∃ name, FirstIn (fun entry => entry.2.address = log.address) context.contracts (name, handle)) ∧
    FirstIn (fun e => e.Heads log) handle.interface.events e

def seen (log : Abi.Log) (decoded : Abi.DecodedLog) : EmittedEvent :=
  ⟨decoded.name, log.address, Mapping.ofList decoded.args⟩

theorem eventOf?_eq_some {context : Context} {log : Abi.Log} {event : EmittedEvent} :
    eventOf? context log = some event ↔ ∃ handle e decoded, Chosen context log handle e ∧
      e.decodeLog log = .ok decoded ∧ seen log decoded = event := by
  unfold eventOf?
  cases found : context.contractAt? log.address with
  | none =>
      simp only [reduceCtorEq, false_iff, not_exists, not_and]
      intro handle e decoded chosen
      rw [Context.contractAt?_eq_some.mpr chosen.1] at found
      contradiction
  | some handle =>
      have first := Context.contractAt?_eq_some.mp found
      simp only
      constructor
      · intro shown
        split at shown
        · next decoded read =>
          obtain ⟨e, heads, read⟩ := Interface.decodeLog?_eq_some.mp read
          exact ⟨handle, e, decoded, ⟨first, heads⟩, read, Option.some.inj shown⟩
        · contradiction
      · rintro ⟨other, e, decoded, ⟨otherFirst, heads⟩, read, rfl⟩
        rw [Context.contractAt?_eq_some.mpr otherFirst] at found
        cases found
        rw [Interface.decodeLog?_eq_some.mpr ⟨e, heads, rfl⟩, read]
        rfl

theorem eventsOf_append_cons (context : Context) (before after : List Abi.Log) (log : Abi.Log) :
    eventsOf context (before ++ log :: after) =
      eventsOf context before ++ (eventOf? context log).toList ++ eventsOf context after := by
  unfold eventsOf
  rw [List.filterMap_append, List.filterMap_cons]
  cases eventOf? context log with
  | none => simp
  | some event => simp

/-! The events of a step that left a receipt. -/

/-- The outcome of a step that left a receipt, a transaction that was not taken back or a
deployment, and the context behind the step. -/
inductive Left (receipt : Receipt) : Context → Outcome → Prop where
  | sent (context : Context) (handle : Handle) (kept : receipt.reverted = false) :
      Left receipt context (sent context handle (.ok receipt))
  | deployed (context : Context) (name : String) (handle : Handle) :
      Left receipt (context.insertContract name handle)
        (deployed context name (.ok ⟨handle, some receipt⟩)).1

theorem Left.emittedEvents {receipt : Receipt} {context : Context} {outcome : Outcome}
    (left : Left receipt context outcome) :
    outcome.emittedEvents = eventsOf context receipt.logs := by
  cases left with
  | sent context handle kept => simp [Execution.sent, kept, Outcome.withReceipt]
  | deployed context name handle => rfl

/-- Each log of a receipt is shown in its place when the first contract by name at its address
reads it, by the first of its events that heads the log, and passed over otherwise, whatever
other contracts at that address declare. -/
theorem log_shown_iff_first_reads {receipt : Receipt} {context : Context} {outcome : Outcome}
    (left : Left receipt context outcome) {before after : List Abi.Log} {log : Abi.Log}
    (logs : receipt.logs = before ++ log :: after) :
    ((∃ event, outcome.emittedEvents =
        eventsOf context before ++ event :: eventsOf context after) ↔
      ∃ handle e decoded, Chosen context log handle e ∧ e.decodeLog log = .ok decoded) ∧
    ∀ handle e decoded, Chosen context log handle e → e.decodeLog log = .ok decoded →
      outcome.emittedEvents =
        eventsOf context before ++ seen log decoded :: eventsOf context after := by
  have emitted : outcome.emittedEvents =
      eventsOf context before ++ (eventOf? context log).toList ++ eventsOf context after := by
    rw [left.emittedEvents, logs, eventsOf_append_cons]
  have shown : ∀ handle e decoded, Chosen context log handle e → e.decodeLog log = .ok decoded →
      outcome.emittedEvents =
        eventsOf context before ++ seen log decoded :: eventsOf context after := by
    intro handle e decoded chosen read
    rw [emitted, eventOf?_eq_some.mpr ⟨handle, e, decoded, chosen, read, rfl⟩]
    simp
  refine ⟨⟨?_, ?_⟩, shown⟩
  · rintro ⟨event, placed⟩
    cases found : eventOf? context log with
    | none =>
        rw [emitted, found] at placed
        have lengths := congrArg List.length placed
        simp at lengths
    | some other =>
        obtain ⟨handle, e, decoded, chosen, read, -⟩ := eventOf?_eq_some.mp found
        exact ⟨handle, e, decoded, chosen, read⟩
  · rintro ⟨handle, e, decoded, chosen, read⟩
    exact ⟨seen log decoded, shown handle e decoded chosen read⟩

/-- Some contract of the context stands at the log's address and declares an event that heads
and reads the log. -/
def Known (context : Context) (log : Abi.Log) : Prop :=
  ∃ entry ∈ context.contracts, entry.2.address = log.address ∧
    ∃ e ∈ entry.2.interface.events, e.Heads log ∧ ∃ decoded, e.decodeLog log = .ok decoded

def ping : Abi.Event := ⟨"Ping", [], false⟩

def proxy : Handle := ⟨"Proxy", .zero, ⟨[.event ping]⟩⟩

def proxied (name implementation : String) : Context :=
  (Context.empty.insertContract name proxy).insertContract implementation
    ⟨"Implementation", .zero, .empty⟩

def pingLog : Abi.Log :=
  ⟨.zero, [Keccak.hash (Utf8.encodeString ("Ping" ++ (AbiType.tuple []).canonical))], []⟩

def pinged : Receipt := ⟨"0x01", some 1, some 1, none, [pingLog]⟩

theorem heads_ping : ping.Heads pingLog :=
  ⟨rfl, _, rfl, rfl⟩

theorem log_shown_of_proxy_first :
    (sent (proxied "a" "b") proxy (.ok pinged)).emittedEvents = [⟨"Ping", .zero, []⟩] := by
  have contracts : (proxied "a" "b").contracts =
      [("a", proxy), ("b", ⟨"Implementation", .zero, .empty⟩)] := rfl
  have chosen : Chosen (proxied "a" "b") pingLog proxy ping :=
    ⟨⟨"a", [], _, contracts, rfl, by simp⟩, [], [], rfl, heads_ping, by simp⟩
  have left : Left pinged (proxied "a" "b") (sent (proxied "a" "b") proxy (.ok pinged)) :=
    .sent _ _ rfl
  have logs : pinged.logs = [] ++ pingLog :: [] := rfl
  exact (log_shown_iff_first_reads left logs).2 proxy ping ⟨"Ping", []⟩ chosen rfl

theorem known_log_lost :
    Known (proxied "proxy" "implementation") pingLog ∧
      (sent (proxied "proxy" "implementation") proxy (.ok pinged)).emittedEvents = [] := by
  have contracts : (proxied "proxy" "implementation").contracts =
      [("implementation", ⟨"Implementation", .zero, .empty⟩), ("proxy", proxy)] := rfl
  constructor
  · refine ⟨("proxy", proxy), by simp [contracts], rfl, ping, List.mem_singleton.mpr rfl,
      heads_ping, ⟨"Ping", []⟩, rfl⟩
  · simp [sent, pinged, Receipt.reverted, Outcome.withReceipt, eventsOf, eventOf?, Context.contractAt?,
      contracts, pingLog, Interface.decodeLog?, Interface.events, Interface.empty]

end Execution

end Rehearsal
