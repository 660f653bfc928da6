/-!
TOML values, and what can be wrong with a TOML text or with its use as a value of some shape.
-/

namespace Rehearsal.Toml

/-- A float and a moment in time are kept as written. -/
inductive Value where
  | string (text : String)
  | integer (value : Int)
  | float (numeral : String)
  | bool (value : Bool)
  | moment (text : String)
  | array (items : List Value)
  | table (entries : List (String × Value))
  deriving Repr, Inhabited

inductive Problem where
  | malformed
  | tooDeep
  /-- A key that has a value, or a table that has a header, is given another one. -/
  | repeatedKey (name : String)
  /-- A key leads through something that is no table. -/
  | noTable (name : String)
  | expected (shape : String)
  | missingField (name : String)
  | unknownChoice (name : String)
  deriving DecidableEq, Repr

def Problem.message : Problem → String
  | .malformed => "malformed TOML"
  | .tooDeep => "recursion limit exceeded"
  | .repeatedKey name => s!"duplicate key '{name}'"
  | .noTable name => s!"key '{name}' does not hold a table"
  | .expected shape => s!"expected {shape}"
  | .missingField name => s!"missing field '{name}'"
  | .unknownChoice name => s!"unknown variant '{name}'"

abbrev Result := Except Problem

/-- How many levels may nest, of values as well as of tables named by one key. -/
def depthLimit : Nat := 79

end Rehearsal.Toml
