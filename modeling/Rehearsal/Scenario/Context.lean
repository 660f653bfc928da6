import Rehearsal.Scenario.Error
/-!
The context of a run: the contracts and signers that steps refer to by name.

Setup builds it, deploy steps add to it, and teardown is given what has become of it.
-/

namespace Rehearsal

open Json (Mapping)

structure Context where
  contracts : Mapping Handle
  signers : Mapping Address
  /-- The signer of steps that name none. -/
  defaultSigner : Option String
  metadata : Mapping Json
  deriving Repr

namespace Context

def empty : Context := ⟨[], [], none, []⟩

def addSigner (c : Context) (name : String) (address : Address) : Context :=
  { c with signers := c.signers.insert name address }

def setDefaultSigner (c : Context) (name : String) : Except RunError Context :=
  if c.signers.contains name then .ok { c with defaultSigner := some name }
  else .error (.configuration (.undeclaredDefault name))

def insertContract (c : Context) (name : String) (handle : Handle) : Context :=
  { c with contracts := c.contracts.insert name handle }

def addMetadata (c : Context) (name : String) (value : Json) : Context :=
  { c with metadata := c.metadata.insert name value }

def signer (c : Context) (name : String) : Except RunError Address :=
  match c.signers.get? name with
  | some address => .ok address
  | none => .error (.reference (.unknownSigner name))

def default (c : Context) : Except RunError Address :=
  match c.defaultSigner with
  | some name => c.signer name
  | none => .error (.configuration .noDefaultSigner)

def contract (c : Context) (name : String) : Except RunError Handle :=
  match c.contracts.get? name with
  | some handle => .ok handle
  | none => .error (.reference (.unknownContract name))

/-- The contract at an address, the first by name when there are several. -/
def contractAt? (c : Context) (address : Address) : Option Handle :=
  (c.contracts.find? fun entry => entry.2.address == address).map Prod.snd

theorem get?_addSigner (c : Context) (name other : String) (address : Address) :
    (c.addSigner name address).signers.get? other =
      if name = other then some address else c.signers.get? other :=
  Mapping.get?_insert name other address c.signers

theorem signer_of_get? {c : Context} {name : String} {address : Address}
    (found : c.signers.get? name = some address) : c.signer name = .ok address := by
  simp only [signer, found]

@[simp] theorem signers_insertContract (c : Context) (name : String) (handle : Handle) :
    (c.insertContract name handle).signers = c.signers := rfl

@[simp] theorem metadata_insertContract (c : Context) (name : String) (handle : Handle) :
    (c.insertContract name handle).metadata = c.metadata := rfl

theorem get?_insertContract (c : Context) (name other : String) (handle : Handle) :
    (c.insertContract name handle).contracts.get? other =
      if name = other then some handle else c.contracts.get? other :=
  Mapping.get?_insert name other handle c.contracts

end Context

end Rehearsal
