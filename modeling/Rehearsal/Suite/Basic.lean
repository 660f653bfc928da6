import Rehearsal.Address
import Rehearsal.Scenario.Step
/-!
Suites as declared: what is set up, the scenarios, and what is torn down.
-/

namespace Rehearsal

structure SuiteMetadata where
  name : String
  description : Option String
  /-- Ascending, and none twice. -/
  tags : List String
  version : Option String
  deriving DecidableEq, Repr

def SuiteMetadata.hasTag (m : SuiteMetadata) (tag : String) : Bool :=
  m.tags.contains tag

structure Attachment where
  name : String
  /-- The artifact with the interface, by default that of the name. -/
  artifact : Option String
  /-- The address, by default that of the recorded deployment. -/
  address : Option Address
  deriving Repr

structure InitialDeploy where
  name : String
  artifact : Option String
  args : List Json
  sender : Option String
  value : Option Json
  deriving Repr

def InitialDeploy.step (d : InitialDeploy) : Step where
  name := s!"setup: deploy {d.name}"
  action := .deploy d.name d.artifact d.args
  sender := d.sender
  value := d.value
  expect := none

structure SetupPlan where
  /-- Names for accounts of the chain by their positions. -/
  signers : Json.Mapping Nat
  defaultSigner : Option String
  attach : List Attachment
  deploy : List InitialDeploy
  deriving Repr

structure SuiteDefinition where
  metadata : SuiteMetadata
  setup : Option SetupPlan
  /-- The steps after all scenarios. -/
  teardown : Option (List Step)
  scenarios : List Scenario
  deriving Repr

end Rehearsal
