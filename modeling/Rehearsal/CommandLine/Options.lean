import Rehearsal.Text.Search
/-!
Options and operands on a command line.

Options have a long name behind two dashes and may have a letter behind one; letters may stand
together. A value stands behind its option or is attached to it. Behind two bare dashes there
are only operands.
-/

namespace Rehearsal.CommandLine

inductive Takes where
  | nothing
  | text
  /-- A path is never empty. -/
  | path
  deriving DecidableEq, Repr

structure Choice where
  long : String
  letter : Option Char
  takes : Takes
  /-- Whether the option may be given more than once. -/
  repeats : Bool
  deriving Repr

inductive Stop where
  | help
  | version
  | misuse
  deriving DecidableEq, Repr

abbrev Scan := Except Stop

/-- Options with their values, and operands, in the order given. An option that takes nothing
has the empty value. -/
structure Given where
  values : List (String × String)
  operands : List String
  deriving Repr

namespace Given

def empty : Given := ⟨[], []⟩

def has (g : Given) (name : String) : Bool :=
  g.values.any fun entry => entry.1 == name

def all (g : Given) (name : String) : List String :=
  (g.values.filter fun entry => entry.1 == name).map Prod.snd

def value? (g : Given) (name : String) : Option String :=
  (g.all name).head?

end Given

def helpName : String := "help"

def versionName : String := "version"

def note (g : Given) (choice : Choice) (value : String) : Scan Given :=
  if choice.long = helpName then .error .help
  else if choice.long = versionName then .error .version
  else if (g.has choice.long ∧ !choice.repeats) ∨ (choice.takes = .path ∧ value = "") then
    .error .misuse
  else .ok { g with values := g.values ++ [(choice.long, value)] }

def addOperand (g : Given) (operand : String) : Scan Given :=
  if operand = "" then .error .misuse else .ok { g with operands := g.operands ++ [operand] }

def looksLikeOption (argument : String) : Bool :=
  match argument.toList with
  | '-' :: _ :: _ => true
  | _ => false

/-- Takes note of the letters of an argument. An option that waits for its value is given back
with what came before it. -/
def letters (choices : List Choice) (g : Given) : List Char → Scan (Given × Option Choice)
  | [] => .ok (g, none)
  | letter :: rest =>
      match choices.find? fun choice => choice.letter == some letter with
      | none => .error .misuse
      | some choice =>
          if choice.takes = .nothing then do letters choices (← note g choice "") rest
          else
            match rest with
            | [] => .ok (g, some choice)
            | '=' :: value => do return (← note g choice (String.ofList value), none)
            | value => do return (← note g choice (String.ofList value), none)

def longName (choices : List Choice) (g : Given) (argument : List Char) :
    Scan (Given × Option Choice) :=
  let (name, attached) : List Char × Option (List Char) :=
    match Text.splitAt? '=' argument with
    | some (name, value) => (name, some value)
    | none => (argument, none)
  match choices.find? fun choice => choice.long == String.ofList name with
  | none => .error .misuse
  | some choice =>
      match attached with
      | some value =>
          if choice.takes = .nothing then .error .misuse
          else do return (← note g choice (String.ofList value), none)
      | none =>
          if choice.takes = .nothing then do return (← note g choice "", none)
          else .ok (g, some choice)

def option (choices : List Choice) (g : Given) (argument : String) :
    Scan (Given × Option Choice) :=
  match argument.toList with
  | '-' :: '-' :: name => longName choices g name
  | '-' :: rest => letters choices g rest
  | _ => .error .misuse

/-- Takes note of arguments. `upToOperand` stops in front of the first operand; the arguments
from there on are given back. -/
def scan (choices : List Choice) (upToOperand : Bool) :
    List String → Given → Scan (Given × List String)
  | [], g => .ok (g, [])
  | "--" :: rest, g =>
      if upToOperand then .error .misuse
      else do return (← rest.foldlM addOperand g, [])
  | argument :: rest, g =>
      if looksLikeOption argument then do
        match ← option choices g argument, rest with
        | (g, none), rest => scan choices upToOperand rest g
        | (_, some _), [] => .error .misuse
        | (g, some choice), value :: rest =>
            if looksLikeOption value then .error .misuse
            else scan choices upToOperand rest (← note g choice value)
      else if upToOperand then .ok (g, argument :: rest)
      else do scan choices upToOperand rest (← addOperand g argument)

end Rehearsal.CommandLine
