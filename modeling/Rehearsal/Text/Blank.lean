/-!
Blank characters: the code points with the Unicode property White_Space.

Text read from suite files, artifacts and nodes is trimmed of them on both ends.
-/

namespace Rehearsal.Text

/-- The ranges of the property, ascending; 25 code points in all. -/
def blankRanges : List (Nat × Nat) :=
  [(0x09, 0x0D), (0x20, 0x20), (0x85, 0x85), (0xA0, 0xA0), (0x1680, 0x1680),
    (0x2000, 0x200A), (0x2028, 0x2029), (0x202F, 0x202F), (0x205F, 0x205F), (0x3000, 0x3000)]

def isBlank (c : Char) : Bool :=
  blankRanges.any fun (lo, hi) => lo ≤ c.toNat && c.toNat ≤ hi

def trimLeft (s : List Char) : List Char :=
  s.dropWhile isBlank

def trimRight (s : List Char) : List Char :=
  (s.reverse.dropWhile isBlank).reverse

def trim (s : List Char) : List Char :=
  trimRight (trimLeft s)

/-- The text up to its first blank character and what follows that character,
or nothing when no character is blank. -/
def splitAtBlank (s : List Char) : Option (List Char × List Char) :=
  match s.dropWhile (fun c => !isBlank c) with
  | [] => none
  | _ :: rest => some (s.takeWhile (fun c => !isBlank c), rest)

def lower (s : List Char) : List Char :=
  s.map Char.toLower

end Rehearsal.Text
