import Rehearsal.Chain.Node
import Rehearsal.Chain.Script
import Rehearsal.Main
import Rehearsal.Report.Writer
import Rehearsal.Suite.Check
import Rehearsal.Suite.Reading
import Rehearsal.Suite.Run
import Rehearsal.Proofs.Scenario.Policy
import Rehearsal.Proofs.Scenario.Simulated
import Rehearsal.Proofs.Suite.Aliases
import Rehearsal.Proofs.Suite.Lifecycle
import Rehearsal.Proofs.Suite.Soundness
import Rehearsal.Proofs.Scenario.Asking
import Rehearsal.Proofs.Suite.Growth
import Rehearsal.Proofs.Chain.Exchange
import Rehearsal.Proofs.Suite.Bail
import Rehearsal.Proofs.Scenario.Coherence
import Rehearsal.Proofs.Chain.Submission
import Rehearsal.Proofs.Chain.Failure
import Rehearsal.Proofs.Chain.Bookkeeping
import Rehearsal.Proofs.Report.RoundTrip
import Rehearsal.Proofs.Abi.Reencoding
import Rehearsal.Proofs.Abi.LogArguments
import Rehearsal.Proofs.Suite.Accounting
import Rehearsal.Proofs.Chain.Creation
import Rehearsal.Proofs.Abi.Truncation
import Rehearsal.Proofs.Abi.Tuple
import Rehearsal.Proofs.Abi.Width
import Rehearsal.Proofs.Abi.Crowding
import Rehearsal.Proofs.Abi.Bounds
import Rehearsal.Proofs.Abi.Signature
import Rehearsal.Proofs.Abi.Spelling
import Rehearsal.Proofs.Scenario.Elements
import Rehearsal.Proofs.Scenario.Meaning
import Rehearsal.Proofs.Scenario.Judgement
import Rehearsal.Proofs.Scenario.Octets
import Rehearsal.Proofs.Scenario.Labels
import Rehearsal.Proofs.Abi.Unsigned
import Rehearsal.Proofs.Abi.Revert
import Rehearsal.Proofs.Scenario.Amount
import Rehearsal.Proofs.Scenario.Reason
import Rehearsal.Proofs.Suite.Verdict
import Rehearsal.Proofs.Suite.Cleanup
import Rehearsal.Proofs.Suite.Alarms
import Rehearsal.Proofs.Report.Writer
import Rehearsal.Proofs.Chain.Artifacts
import Rehearsal.Proofs.Chain.Bytecode
import Rehearsal.Proofs.Chain.Message
import Rehearsal.Proofs.Abi.IndexedText
import Rehearsal.Proofs.Abi.Kinds
import Rehearsal.Proofs.Scenario.IntegerTags
import Rehearsal.Proofs.Scenario.ResultTags
import Rehearsal.Proofs.Scenario.Agreement
import Rehearsal.Proofs.Abi.Panic
