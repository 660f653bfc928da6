import Rehearsal.Yaml.Cursor
/-!
The three ways of writing scalars: in blocks, in quotes, and plain.

Line breaks inside quoted and plain scalars are folded: one break is a space, further ones
stand for themselves.
-/

namespace Rehearsal.Yaml

inductive Style where
  | plain
  /-- In a block that keeps its line breaks. -/
  | literal
  /-- In a block that folds them, or between quotes. -/
  | other
  deriving DecidableEq, Repr, Inhabited

/-- Blanks between two pieces of a scalar: those on one line, or the first line break and
those behind it. -/
structure Gap where
  blanks : List Char
  broken : Bool
  first : List Char
  others : List Char

namespace Gap

def none : Gap := ⟨[], false, [], []⟩

/-- What a gap amounts to within a scalar. -/
def fold (g : Gap) : List Char :=
  if g.broken then
    if g.first = ['\n'] then if g.others.isEmpty then [' '] else g.others
    else g.first ++ g.others
  else g.blanks

/-- Reads blanks and breaks. In lines behind the first one, tabs left of `indent` are refused. -/
def read (indent : Nat) : (fuel : Nat) → Gap → Cursor → Result (Gap × Cursor)
  | 0, g, c => .ok (g, c)
  | fuel + 1, g, c =>
      if c.sees 0 isGap then
        if g.broken ∧ c.column < indent ∧ c.starts '\t' then .error .tabIndentation
        else
          let g := if g.broken then g else { g with blanks := g.blanks ++ c.rest.take 1 }
          read indent fuel g (c.advance 1)
      else if c.sees 0 isBreak then
        let (text, c) := c.takeBreak
        if g.broken then read indent fuel { g with others := g.others ++ text } c
        else read indent fuel ⟨[], true, text, g.others⟩ c
      else .ok (g, c)

end Gap

namespace Plain

def stops (flow : Bool) (c : Cursor) : Bool :=
  (c.starts ':' && c.closes 1) || (flow && c.sees 0 fun x => ",[]\x7b\x7d".toList.contains x)

/-- A colon in a flow collection that is followed by an indicator. -/
def badColon (flow : Bool) (c : Cursor) : Bool :=
  flow && c.starts ':' && c.sees 1 fun x => ",?[]\x7b\x7d".toList.contains x

def word (flow : Bool) : (fuel : Nat) → List Char → Cursor → Result (List Char × Cursor)
  | 0, acc, c => .ok (acc, c)
  | fuel + 1, acc, c =>
      if c.closes 0 then .ok (acc, c)
      else if badColon flow c then .error .badFlowColon
      else if stops flow c then .ok (acc, c)
      else word flow fuel (acc ++ c.rest.take 1) (c.advance 1)

/-- Reads words and the gaps between them. The gap in front of a word counts only if the word
is not empty. The last flag tells whether the scalar ended behind a line break. -/
def words (flow : Bool) (indent : Nat) :
    (fuel : Nat) → List Char → Gap → Cursor → Result (List Char × Bool × Cursor)
  | 0, acc, g, c => .ok (acc, g.broken, c)
  | fuel + 1, acc, g, c =>
      if c.atDocumentMark ∨ c.starts '#' then .ok (acc, g.broken, c)
      else do
        let (text, next) ← word flow c.rest.length [] c
        let (acc, g) := if text.isEmpty then (acc, g) else (acc ++ g.fold ++ text, Gap.none)
        if next.sees 0 fun x => isGap x || isBreak x then
          let (g, next) ← Gap.read indent next.rest.length g next
          if ¬flow ∧ next.column < indent then return (acc, g.broken, next)
          else words flow indent fuel acc g next
        else return (acc, g.broken, next)

def read (flow : Bool) (indent : Nat) (c : Cursor) : Result (List Char × Bool × Cursor) :=
  words flow indent (c.rest.length + 1) [] Gap.none c

end Plain

namespace Quoted

def escape? : Char → Option Char
  | '0' => some '\x00'
  | 'a' => some '\x07'
  | 'b' => some '\x08'
  | 't' => some '\t'
  | '\t' => some '\t'
  | 'n' => some '\n'
  | 'v' => some '\x0b'
  | 'f' => some '\x0c'
  | 'r' => some '\r'
  | 'e' => some '\x1b'
  | ' ' => some ' '
  | '"' => some '"'
  | '/' => some '/'
  | '\\' => some '\\'
  | 'N' => some '\x85'
  | '_' => some '\xa0'
  | 'L' => some '\u2028'
  | 'P' => some '\u2029'
  | _ => none

def codeLength? : Char → Option Nat
  | 'x' => some 2
  | 'u' => some 4
  | 'U' => some 8
  | _ => none

def codeChar? (digits : List Char) : Option Char :=
  match Text.readNat 16 digits with
  | some n => if n < 0xD800 ∨ (0xDFFF < n ∧ n ≤ 0x10FFFF) then some (Char.ofNat n) else none
  | none => none

def escape (c : Cursor) : Result (Char × Cursor) :=
  match c.peek? 1 with
  | none => .error .badEscape
  | some e =>
      match escape? e, codeLength? e with
      | some x, _ => .ok (x, c.advance 2)
      | none, some n =>
          let digits := (c.rest.drop 2).take n
          match codeChar? digits with
          | some x =>
              if digits.length = n then .ok (x, c.advance (2 + n)) else .error .badEscape
          | none => .error .badEscape
      | none, none => .error .badEscape

/-- Reads characters up to a blank, a break or the closing quote. An escaped break ends the
word as well; then the flag is set, and the break counts for nothing. -/
def word (single : Bool) (quote : Char) :
    (fuel : Nat) → List Char → Cursor → Result (List Char × Bool × Cursor)
  | 0, acc, c => .ok (acc, false, c)
  | fuel + 1, acc, c =>
      if c.closes 0 then .ok (acc, false, c)
      else if single ∧ c.starts '\'' ∧ c.sees 1 (· == '\'') then
        word single quote fuel (acc ++ ['\'']) (c.advance 2)
      else if c.starts quote then .ok (acc, false, c)
      else if ¬single ∧ c.starts '\\' then
        if c.sees 1 isBreak then .ok (acc, true, (c.advance 1).skipBreak)
        else do
          let (x, c) ← escape c
          word single quote fuel (acc ++ [x]) c
      else word single quote fuel (acc ++ c.rest.take 1) (c.advance 1)

def words (single : Bool) (quote : Char) :
    (fuel : Nat) → List Char → Cursor → Result (List Char × Cursor)
  | 0, _, _ => .error .unclosedQuote
  | fuel + 1, acc, c =>
      if c.atDocumentMark then .error .documentMarkInQuote
      else if c.atEnd then .error .unclosedQuote
      else do
        let (text, escaped, c) ← word single quote c.rest.length [] c
        if c.starts quote then return (acc ++ text, c.advance 1)
        else
          let (g, c) ← Gap.read 0 c.rest.length { Gap.none with broken := escaped } c
          words single quote fuel (acc ++ text ++ g.fold) c

def read (c : Cursor) : Result (List Char × Cursor) :=
  let single := c.starts '\''
  let quote := if single then '\'' else '"'
  words single quote (c.rest.length + 1) [] (c.advance 1)

end Quoted

namespace Block

inductive Chomping where
  | strip
  | clip
  | keep

structure Header where
  chomping : Chomping
  /-- The indentation, counted from that of the block around it. -/
  increment : Option Nat

def chomping? (c : Cursor) : Option Chomping :=
  if c.starts '+' then some .keep else if c.starts '-' then some .strip else none

def increment? (c : Cursor) : Result (Option Nat) :=
  match c.rest.head? with
  | some '0' => .error .badBlockHeader
  | some d => .ok (if Text.isDecimal d then some (d.toNat - '0'.toNat) else none)
  | none => .ok none

/-- The header behind the indicator, its two parts in either order. -/
def header (c : Cursor) : Result (Header × Cursor) := do
  match chomping? c with
  | some chomping =>
      let c := c.advance 1
      match ← increment? c with
      | some n => return (⟨chomping, some n⟩, c.advance 1)
      | none => return (⟨chomping, none⟩, c)
  | none =>
      match ← increment? c with
      | some n =>
          let c := c.advance 1
          match chomping? c with
          | some chomping => return (⟨chomping, some n⟩, c.advance 1)
          | none => return (⟨.clip, some n⟩, c)
      | none => return (⟨.clip, none⟩, c)

/-- Reads lines that hold nothing but indentation. While the indentation is not known, all
spaces belong to it; the last part of the result is the longest run of them. -/
def blankLines (indent : Option Nat) :
    (fuel : Nat) → (longest : Nat) → List Char → Cursor → Result (List Char × Nat × Cursor)
  | 0, longest, acc, c => .ok (acc, longest, c)
  | fuel + 1, longest, acc, c =>
      let spaces := (c.rest.takeWhile (· == ' ')).length
      let c := match indent with
        | some n => c.advance (min spaces (n - c.column))
        | none => c.advance spaces
      let longest := max longest c.column
      let inside := indent.all fun n => c.column < n
      if inside && c.starts '\t' then .error .tabIndentation
      else if c.sees 0 isBreak then
        let (text, c) := c.takeBreak
        blankLines indent fuel longest (acc ++ text) c
      else .ok (acc, longest, c)

/-- The lines of a block scalar: `first` is the break before the next line, `blank` tells
whether the line before it began with a blank, and `others` are the blank lines between. -/
def lines (literal : Bool) (indent : Nat) :
    (fuel : Nat) → (acc first : List Char) → (blank : Bool) → (others : List Char) → Cursor →
      Result (List Char × List Char × List Char × Cursor)
  | 0, acc, first, _, others, c => .ok (acc, first, others, c)
  | fuel + 1, acc, first, blank, others, c =>
      if c.column = indent ∧ ¬c.atEnd then do
        let startsBlank := c.sees 0 isGap
        let joint :=
          if ¬literal ∧ first = ['\n'] ∧ ¬blank ∧ ¬startsBlank then
            if others.isEmpty then [' '] else []
          else first
        let text := c.rest.takeWhile fun x => !isBreak x
        let (first, c) := c.skipToBreak.takeBreak
        let (next, _, c) ← blankLines (some indent) (c.rest.length + 1) 0 [] c
        lines literal indent fuel (acc ++ joint ++ others ++ text) first startsBlank next c
      else .ok (acc, first, others, c)

def read (parent : Int) (c : Cursor) : Result (List Char × Cursor) := do
  let literal := c.starts '|'
  let (h, c) ← header (c.advance 1)
  let c ← c.skipLineEnd .badBlockHeader
  let known := h.increment.map fun n => (max parent 0).toNat + n
  let (others, longest, c) ← blankLines known (c.rest.length + 1) 0 [] c
  let indent := known.getD (max (max longest (parent + 1).toNat) 1)
  let (text, first, others, c) ← lines literal indent (c.rest.length + 1) [] [] false others c
  match h.chomping with
  | .strip => return (text, c)
  | .clip => return (text ++ first, c)
  | .keep => return (text ++ first ++ others, c)

end Block

end Rehearsal.Yaml
