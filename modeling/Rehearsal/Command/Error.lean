import Rehearsal.Files.Basic
import Rehearsal.Scenario.Error
import Rehearsal.Toml.Basic
import Rehearsal.Yaml.Fault
/-!
Why a command fails.
-/

namespace Rehearsal

inductive CommandError where
  | run (error : RunError)
  /-- A path that leads nowhere. -/
  | missing (path : String)
  | unreadable (path : String) (fault : Files.Fault)
  | badSuite (path : String) (problem : Yaml.Problem)
  | badSettings (problem : Toml.Problem)
  /-- A report that cannot be written. -/
  | files (fault : Files.Fault)
  | suitesFailed (count : Nat)
  | problemsFound (count : Nat)
  deriving Repr

def CommandError.message : CommandError → String
  | .run error => error.message
  | .missing path => s!"Failed to read file '{path}': no such file or directory"
  | .unreadable path fault => s!"Failed to read file '{path}': {fault.message}"
  | .badSuite path problem => s!"Failed to load suite '{path}': {problem.message}"
  | .badSettings problem => s!"Invalid configuration file: {problem.message}"
  | .files fault => s!"IO error: {fault.message}"
  | .suitesFailed count => s!"{count} suite(s) failed"
  | .problemsFound count => s!"{count} problem(s) found"

end Rehearsal
