import Rehearsal.Text.Blank
import Rehearsal.Text.Numeral
import Rehearsal.Text.Search
/-!
Hosts in addresses: names in lower case, and numbers in their shortest usual form.

A host whose last label is a number has to be a number as a whole, of 32 bits in up to four
parts; in brackets stands one of 128 bits in groups of 16.
-/

namespace Rehearsal.Net.Host

def splitOn (mark : Char) : List Char → List (List Char)
  | [] => [[]]
  | c :: rest =>
      match splitOn mark rest with
      | [] => [[c]]
      | piece :: more => if c = mark then [] :: piece :: more else (c :: piece) :: more

/-- A number in decimal, or behind a mark in hexadecimal or octal; the mark alone is zero. -/
def number? : List Char → Option Nat
  | [] => none
  | '0' :: x :: digits =>
      if x = 'x' ∨ x = 'X' then if digits = [] then some 0 else Text.readNat 16 digits
      else Text.readNat 8 (x :: digits)
  | s => Text.readNat 10 s

def labels (name : List Char) : List (List Char) :=
  match (splitOn '.' name).reverse with
  | [] :: label :: more => (label :: more).reverse
  | reversed => reversed.reverse

/-- Whether a name ends like a number. -/
def endsInNumber (name : List Char) : Bool :=
  match (labels name).getLast? with
  | some label => !label.isEmpty && (label.all Text.isDecimal || (number? label).isSome)
  | none => false

/-- The value of parts, all but the last of them single octets. -/
def joinParts : List Nat → Option Nat
  | [] => none
  | parts =>
      let last := parts.getLast?.getD 0
      let front := parts.dropLast
      let room := Nat.pow 256 (4 - front.length)
      if 4 < parts.length ∨ front.any (255 < ·) ∨ room ≤ last then none
      else some (front.foldr (fun octet n => octet * Nat.pow 256 3 + n / 256) 0 + last)

def dotted (n : Nat) : String :=
  s!"{n / 16777216 % 256}.{n / 65536 % 256}.{n / 256 % 256}.{n % 256}"

def groups? (s : List Char) : Option (List Nat) :=
  if s = [] then some []
  else
    (splitOn ':' s).mapM fun digits =>
      if digits.length ≤ 4 then Text.readNat 16 digits else none

def splitDouble : List Char → Option (List Char × List Char)
  | ':' :: ':' :: rest => some ([], rest)
  | c :: rest => (splitDouble rest).map fun (front, rest) => (c :: front, rest)
  | [] => none

/-- The eight groups of a number in brackets; a double colon stands for one or more zeros. -/
def eightGroups? (s : List Char) : Option (List Nat) := do
  match splitDouble s with
  | some (front, rest) =>
      let front ← groups? front
      let rest ← groups? rest
      let known := front.length + rest.length
      if 7 < known then none
      else return front ++ List.replicate (8 - known) 0 ++ rest
  | none =>
      let all ← groups? s
      if all.length = 8 then return all else none

def zeros (groups : List Nat) : Nat :=
  (groups.takeWhile (· == 0)).length

/-- Where the longest run of zeros begins, and its length. -/
def longestZeros : (position : Nat) → List Nat → Nat × Nat
  | _, [] => (0, 0)
  | position, group :: rest =>
      let here := zeros (group :: rest)
      let (start, length) := longestZeros (position + 1) rest
      if length ≤ here then (position, here) else (start, length)

def colons (groups : List Nat) : String :=
  Text.join ":" (groups.map fun n => String.ofList (Text.hexadecimal 1 n))

/-- Eight groups with a double colon for the first of the longest runs of zeros. -/
def compressed (groups : List Nat) : String :=
  let (start, length) := longestZeros 0 groups
  if length < 2 then colons groups
  else colons (groups.take start) ++ "::" ++ colons (groups.drop (start + length))

def isForbidden (c : Char) : Bool :=
  c.toNat ≤ 0x20 || c.toNat == 0x7F || "#/:<>?@[\\]^|%".toList.contains c

def canonical? (host : List Char) : Option String :=
  match host with
  | [] => none
  | '[' :: inner => do
      let inner ← Text.dropSuffix? [']'] inner
      return "[" ++ compressed (← eightGroups? inner) ++ "]"
  | name =>
      if name.any isForbidden then none
      else
        let name := Text.lower name
        if endsInNumber name then do
          return dotted (← joinParts (← (labels name).mapM number?))
        else some (String.ofList name)

end Rehearsal.Net.Host
