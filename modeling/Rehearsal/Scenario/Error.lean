import Rehearsal.Chain.Basic
/-!
What goes wrong in a run apart from the outcomes of its steps.
-/

namespace Rehearsal

inductive Misconfiguration where
  | undeclaredDefault (name : String)
  | noDefaultSigner
  | malformedValue (value : Json)
  | signerIndex (name : String) (index count : Nat)
  | noStore (name : String)
  | noInterface (artifact : String)
  | noUrl (network : String)
  | stated (text : String)
  deriving Repr

def Misconfiguration.message : Misconfiguration → String
  | .undeclaredDefault name => s!"default signer '{name}' is not declared"
  | .noDefaultSigner => "no default signer is available"
  | .malformedValue value => s!"malformed value '{value.compact}'"
  | .signerIndex name index count =>
      s!"signer '{name}' refers to index {index} but the chain has {count} signer(s)"
  | .noStore name => s!"cannot attach '{name}' without an artifact store"
  | .noInterface artifact => s!"no ABI available for '{artifact}'"
  | .noUrl network =>
      s!"no RPC URL configured for network '{network}'; pass --rpc-url or add [networks.{network}]"
  | .stated text => text

inductive BadReference where
  | unknownContract (name : String)
  | unknownSigner (name : String)
  | unknownFunction (contract name : String) (count : Nat)
  | stated (text : String)
  deriving DecidableEq, Repr

def BadReference.message : BadReference → String
  | .unknownContract name => s!"contract '{name}' is not deployed or attached"
  | .unknownSigner name => s!"signer '{name}' is not declared"
  | .unknownFunction contract name count =>
      s!"contract '{contract}' has no function '{name}' taking {count} argument(s)"
  | .stated text => text

inductive TemplateFault where
  | noActiveSigner
  | unknownContract (name : String)
  | unknownIdentifier (name : String)
  deriving DecidableEq, Repr

def TemplateFault.message : TemplateFault → String
  | .noActiveSigner => "no signer is active"
  | .unknownContract name => s!"unknown contract '{name}'"
  | .unknownIdentifier name => s!"unknown identifier '{name}'"

inductive SetupFault where
  | deployment (name reason : String)
  | stated (text : String)
  deriving DecidableEq, Repr

def SetupFault.message : SetupFault → String
  | .deployment name reason => s!"deploying '{name}' failed: {reason}"
  | .stated text => text

inductive RunError where
  | configuration (fault : Misconfiguration)
  | reference (fault : BadReference)
  | template (token : String) (fault : TemplateFault)
  | setup (fault : SetupFault)
  /-- The problems of the teardown steps, in order. -/
  | teardown (problems : List String)
  | chain (error : ChainError)
  deriving Repr

def RunError.message : RunError → String
  | .configuration fault => s!"Configuration error: {fault.message}"
  | .reference fault => s!"Reference error: {fault.message}"
  | .template token fault => s!"Cannot resolve template token '{token}': {fault.message}"
  | .setup fault => s!"Setup failed: {fault.message}"
  | .teardown problems => "Teardown failed: " ++ Text.join ", " problems
  | .chain error => error.message

end Rehearsal
