import Rehearsal.Chain.Basic
import Rehearsal.Net.Url
/-!
Ways to a node.
-/

namespace Rehearsal

structure Link (m : Type → Type) where
  /-- Delivers a request and gives the text of the answer. -/
  post : Json → m (Except TransportFault String)
  /-- Lets a number of milliseconds pass. -/
  wait : Nat → m Unit

namespace Link

def faultOf : Net.Url.Fault → TransportFault
  | .malformed => .badUrl none
  | .unusable shown => .badUrl (some shown)

/-- The way to an address, which is tried only if it can be the address of a node; a delivery
that comes to nothing leaves the node unreachable. -/
def toAddress {m : Type → Type} [Monad m] (address : String)
    (deliver : Net.Url → Json → m (Option String)) (wait : Nat → m Unit) : Link m where
  wait
  post request :=
    match Net.Url.parse address with
    | .error fault => return .error (faultOf fault)
    | .ok url => do
        match ← deliver url request with
        | some answer => return .ok answer
        | none => return .error (.unreachable url.text)

end Link

end Rehearsal
