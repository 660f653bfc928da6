import Rehearsal.Chain.Node
import Rehearsal.Chain.Simulation
import Rehearsal.Proofs.Abi.Plain

namespace Rehearsal

open MonadAttach (CanReturn)
open LawfulMonadAttach (canReturn_bind_imp' eq_of_canReturn_pure)

/-! The values that chains answer calls with. Both a simulated chain and one behind a node decode
them by the outputs of the function. -/

variable {m : Type → Type} [MonadAttach m]

namespace Chain

/-- Every object in a value that the chain answers with is a mapping: its names ascend. -/
def AnswersOrdered (chain : Chain m) : Prop :=
  ∀ handle f args options value, CanReturn (chain.call handle f args options) (.ok value) →
    value.Ordered

/-- Every number in a value that the chain answers with can be read back. -/
def AnswersLegible (chain : Chain m) : Prop :=
  ∀ handle f args options value, CanReturn (chain.call handle f args options) (.ok value) →
    value.Legible

/-- The chain answers with what the function decodes of some data. -/
def AnswersDecoded (chain : Chain m) : Prop :=
  ∀ handle f args options value, CanReturn (chain.call handle f args options) (.ok value) →
    ∃ data, f.decodeOutput data = .ok value

namespace AnswersDecoded

variable {chain : Chain m}

variable {handle : Handle} {f : Abi.Function} {args : List Json} {options : CallOptions}
  {value : Json}

theorem null_or_plain (decoded : chain.AnswersDecoded)
    (answered : CanReturn (chain.call handle f args options) (.ok value)) :
    value = .null ∨ value.Plain := by
  obtain ⟨data, read⟩ := decoded _ _ _ _ _ answered
  exact (Abi.Function.decodeOutput_eq_ok read).imp And.right And.right

theorem ordered (decoded : chain.AnswersDecoded) : chain.AnswersOrdered := by
  intro handle f args options value answered
  rcases decoded.null_or_plain answered with rfl | plain
  · exact trivial
  · exact plain.ordered

theorem legible (decoded : chain.AnswersDecoded) : chain.AnswersLegible := by
  intro handle f args options value answered
  rcases decoded.null_or_plain answered with rfl | plain
  · exact trivial
  · exact plain.legible

theorem null_iff (decoded : chain.AnswersDecoded)
    (answered : CanReturn (chain.call handle f args options) (.ok value)) :
    value = .null ↔ f.outputs = [] := by
  obtain ⟨data, read⟩ := decoded _ _ _ _ _ answered
  rcases Abi.Function.decodeOutput_eq_ok read with ⟨none, rfl⟩ | ⟨some, plain⟩
  · exact ⟨fun _ => none, fun _ => rfl⟩
  · exact ⟨fun null => absurd null plain.ne_null, fun none => absurd none some⟩

end AnswersDecoded

end Chain

theorem Simulation.answersDecoded {κ : Type} (s : Simulation κ) : s.chain.AnswersDecoded := by
  intro handle f args options value answered
  obtain ⟨ledger, after, ran⟩ := answered
  have told : ((s.invoke .call handle f args options ledger).1.bind fun output =>
      roundTrip f output.value) = .ok value := congrArg Prod.fst ran
  obtain ⟨output, -, passed⟩ := bind_eq_ok.mp told
  obtain ⟨data, -, decoded⟩ := bind_eq_ok.mp passed
  exact ⟨data, Except.mapError_eq_ok.mp decoded⟩

theorem Node.outputOf_eq_ok {f : Abi.Function} {result value : Json}
    (passed : outputOf f result = .ok value) : ∃ data, f.decodeOutput data = .ok value := by
  unfold outputOf at passed
  simp only at passed
  split at passed
  · obtain ⟨data, -, decoded⟩ := bind_eq_ok.mp passed
    exact ⟨data, Except.mapError_eq_ok.mp decoded⟩
  · obtain ⟨data, -, decoded⟩ := bind_eq_ok.mp passed
    exact ⟨data, Except.mapError_eq_ok.mp decoded⟩

theorem Node.answersDecoded [Monad m] [LawfulMonad m] [LawfulMonadAttach m] (node : Node m) :
    node.chain.AnswersDecoded := by
  intro handle f args options value answered
  have called : CanReturn (node.call handle f args options) (.ok value) := answered
  unfold Node.call at called
  split at called
  · cases eq_of_canReturn_pure called
  · obtain ⟨result, -, told⟩ := canReturn_bind_imp' called
    obtain ⟨given, -, passed⟩ := bind_eq_ok.mp (eq_of_canReturn_pure told)
    exact Node.outputOf_eq_ok passed

end Rehearsal
