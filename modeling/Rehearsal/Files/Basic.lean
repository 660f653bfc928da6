import Rehearsal.Text.Utf8
/-!
File trees.

A directory lists its entries in no particular order; every function that walks one puts them
in order itself.
-/

namespace Rehearsal.Files

inductive Node where
  | file (content : List UInt8)
  | directory (entries : List (String × Node))
  deriving Repr, Inhabited

inductive Fault where
  | notFound
  | notADirectory
  | isADirectory
  | alreadyExists
  | nameTooLong
  | notText
  deriving DecidableEq, Repr

def Fault.message : Fault → String
  | .notFound => "No such file or directory (os error 2)"
  | .alreadyExists => "File exists (os error 17)"
  | .notADirectory => "Not a directory (os error 20)"
  | .isADirectory => "Is a directory (os error 21)"
  | .nameTooLong => "File name too long (os error 36)"
  | .notText => "stream did not contain valid UTF-8"

def nameLimit : Nat := 255

def isTooLong (name : String) : Bool :=
  nameLimit < (Utf8.encodeString name).length

end Rehearsal.Files
