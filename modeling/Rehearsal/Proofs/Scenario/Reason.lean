import Rehearsal.Proofs.Abi.Revert
import Rehearsal.Proofs.Scenario.Asking

namespace Rehearsal

open Abi (CustomError IsStandard TextOf)

/-! The reason of a call that was reverted. Where the chain gives none, the revert data is asked: for
a message, and then for an error that the interface of the called contract declares. -/

namespace Execution

/-- The reason is the one that revert data tells of a call of a contract. -/
structure Explains (handle : Handle) (data : List UInt8) (reason : String) : Prop where
  message : ∀ s encoded, Abi.encode [.string] [.string s] = .ok encoded →
    encoded.length < 2 ^ 32 → data = Abi.messageSelector ++ encoded → reason = s
  declared : ∀ e values texts, ¬IsStandard data →
    FirstIn (fun e => e.Heads data) handle.interface.errors e → e.Carries data values →
    List.Forall₂ TextOf values texts →
    reason = e.name ++ "(" ++ String.intercalate ", " texts ++ ")"
  undeclared : ¬IsStandard data →
    (∀ e ∈ handle.interface.errors, ∀ values, ¬e.Carries data values) →
    reason = "execution reverted"
  short : data.length < 4 → reason = "execution reverted"

variable {handle : Handle} {data : List UInt8}

theorem reasonOf_of_not_isStandard (other : ¬IsStandard data) :
    reasonOf (some handle) (.reverted none (some data)) =
      (handle.interface.decodeError? data).getD "execution reverted" := by
  simp only [reasonOf, Abi.decodeRevert?_of_not_isStandard other, Option.none_or, Option.bind_some]

theorem explains_reasonOf (handle : Handle) (data : List UInt8) :
    Explains handle data (reasonOf (some handle) (.reverted none (some data))) where
  message s encoded written small whole := by
    simp only [whole, reasonOf, Abi.decodeRevert?_message written small, Option.some_or,
      Option.getD_some]
  declared e values texts other first carries each := by
    rw [reasonOf_of_not_isStandard other, Abi.decodeError?_of_first first carries,
      Abi.map_shown_eq each]
    rfl
  undeclared other none := by
    rw [reasonOf_of_not_isStandard other, Abi.decodeError?_eq_none none]
    rfl
  short short := by
    rw [reasonOf_of_not_isStandard (Abi.not_isStandard_of_short short), Abi.decodeError?_eq_none]
    · rfl
    · exact fun e _ values carries => Nat.not_le.mpr short carries.heads.le_length

end Execution

namespace Step

variable {s : Step} {context : Context} {now : Nat} {handle : Handle} {f : Abi.Function}
  {args : List Json} {options : CallOptions}

theorem exists_settles_call
    (planned : s.plan context now = .ok (.call handle f args options)) :
    ∃ settle : Except ChainError (Request.call handle f args options).operation.Answer → Outcome,
      (∀ {m : Type → Type} [Monad m] [LawfulMonad m] (chain : Chain m),
        s.execute chain now context =
          (fun answer => (.ok ⟨settle answer, options.sender⟩, context)) <$>
            chain.answer (Request.call handle f args options).operation) ∧
      ∀ e, settle (.error e) = .failed (Execution.reasonOf (some handle) e) := by
  cases reads : f.isReadOnly with
  | true =>
      rw [Request.operation_of_read reads]
      refine ⟨Execution.called handle, fun chain => ?_, fun e => rfl⟩
      simp only [execute, planned, Execution.perform, reads, if_true, map_eq_pure_bind, bind_assoc,
        pure_bind]
      rfl
  | false =>
      rw [Request.operation_of_write reads]
      refine ⟨Execution.sent context handle, fun chain => ?_, fun e => rfl⟩
      simp only [execute, planned, Execution.perform, reads, Bool.false_eq_true, if_false,
        map_eq_pure_bind, bind_assoc, pure_bind]
      rfl

/-- Whatever the chain is, a call that it reverts with data and without a reason fails, for the reason
that the data tells. -/
theorem reverted_call_explained
    (planned : s.plan context now = .ok (.call handle f args options)) :
    ∃ settle : Except ChainError (Request.call handle f args options).operation.Answer → Outcome,
      (∀ {m : Type → Type} [Monad m] [LawfulMonad m] (chain : Chain m),
        s.execute chain now context =
          (fun answer => (.ok ⟨settle answer, options.sender⟩, context)) <$>
            chain.answer (Request.call handle f args options).operation) ∧
      ∀ data, ∃ reason, settle (.error (.reverted none (some data))) = .failed reason ∧
        Execution.Explains handle data reason := by
  obtain ⟨settle, executes, refuses⟩ := exists_settles_call planned
  exact ⟨settle, executes, fun data => ⟨_, refuses _, Execution.explains_reasonOf handle data⟩⟩

def vault : Handle :=
  ⟨"Vault", .zero, ⟨[.function ⟨"open", [], [], .nonpayable, none⟩]⟩⟩

def besideVault : Context :=
  ⟨[("vault", vault)], [("signer0", .zero)], some "signer0", []⟩

def reverting (data : List UInt8) : Chain Id :=
  { idle with send := fun _ _ _ _ => .error (.reverted none (some data)) }

theorem reverted_call_explained_of_vault :
    (∃ data, ((Step.call "vault" "open").execute (reverting (Abi.messageSelector ++ data)) 0
        besideVault).1 = .ok ⟨.failed "Only owner", .zero⟩) ∧
      ((Step.call "vault" "open").execute (reverting [0x08, 0xc3, 0x79]) 0 besideVault).1 =
        .ok ⟨.failed "execution reverted", .zero⟩ := by
  have planned : (Step.call "vault" "open").plan besideVault 0 =
      .ok (.call vault ⟨"open", [], [], .nonpayable, none⟩ [] ⟨.zero, none⟩) := rfl
  obtain ⟨settle, executes, told⟩ := reverted_call_explained planned
  constructor
  · obtain ⟨data, encoded, short⟩ : ∃ data,
        Abi.encode [.string] [.string "Only owner"] = .ok data ∧ data.length = 96 := ⟨_, rfl, rfl⟩
    obtain ⟨reason, failed, explains⟩ := told (Abi.messageSelector ++ data)
    have ran := executes (reverting (Abi.messageSelector ++ data))
    refine ⟨data, ?_⟩
    rw [ran, ← explains.message _ data encoded (by omega) rfl, ← failed]
    rfl
  · obtain ⟨reason, failed, explains⟩ := told [0x08, 0xc3, 0x79]
    rw [executes (reverting [0x08, 0xc3, 0x79]), ← explains.short (by decide), ← failed]
    rfl

end Step

end Rehearsal
