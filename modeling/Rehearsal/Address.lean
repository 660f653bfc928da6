import Rehearsal.Text.Blank
import Rehearsal.Text.Hex
import Rehearsal.Text.Search
/-!
Addresses of accounts and contracts: twenty octets, written as lower case hexadecimal.
-/

namespace Rehearsal

structure Address where
  bytes : Vector UInt8 20
  deriving DecidableEq, Repr

namespace Address

def zero : Address := ⟨Vector.replicate 20 0⟩

def ofLow (n : Nat) : Address :=
  ⟨Vector.ofFn fun i => if i.val < 12 then 0 else UInt8.ofNat (n / Nat.pow 256 (19 - i.val))⟩

def ofBytes? (bytes : List UInt8) : Option Address :=
  if h : bytes.length = 20 then some ⟨⟨bytes.toArray, h⟩⟩ else none

def text (a : Address) : String :=
  Hex.marked a.bytes.toList

/-- Reads forty hexadecimal digits, with marks in front and blanks around them or not. -/
def parse? (s : String) : Option Address :=
  let digits := Text.dropPairs '0' 'X' (Text.dropHexMarks (Text.trim s.toList))
  if (Utf8.encode digits).length = 40 then
    match Hex.decode digits with
    | .ok bytes => ofBytes? bytes
    | .error _ => none
  else none

end Address

end Rehearsal
