import Rehearsal.Address
import Rehearsal.Chain.Basic
/-!
What is seen of a step once it has reached the chain.
-/

namespace Rehearsal

structure EmittedEvent where
  name : String
  address : Address
  args : Json.Mapping Json
  deriving Repr

structure Outcome where
  succeeded : Bool
  /-- The value of a call, or the address of a deployment. -/
  returnValue : Option Json
  emittedEvents : List EmittedEvent
  revertReason : Option String
  transaction : Option String
  status : Option Nat
  block : Option Nat
  deriving Repr

namespace Outcome

def success : Outcome := ⟨true, none, [], none, none, none, none⟩

def failed (reason : String) : Outcome :=
  { success with succeeded := false, revertReason := some reason }

def withReceipt (o : Outcome) (r : Receipt) : Outcome :=
  { o with transaction := some r.transaction, status := r.status, block := r.block }

end Outcome

end Rehearsal
