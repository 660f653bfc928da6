import Rehearsal.Text.Utf8
import Rehearsal.Yaml.Scalar
/-!
The tokens of a YAML text.

Blocks are told by indentation: a token for their start and one for their end are put in.
What turns out to be the key of a mapping only when its colon is met gets its tokens in front
of it afterwards.
-/

namespace Rehearsal.Yaml

inductive Token where
  | versionDirective
  | tagDirective (handle expansion : String)
  | documentStart
  | documentEnd
  | blockSequenceStart
  | blockMappingStart
  | blockEnd
  | flowSequenceStart
  | flowSequenceEnd
  | flowMappingStart
  | flowMappingEnd
  | blockEntry
  | flowEntry
  | key
  | value
  | alias (name : String)
  | anchor (name : String)
  | tag (handle suffix : String)
  | scalar (text : String) (style : Style)
  deriving DecidableEq, Repr, Inhabited

namespace Token

def readName (c : Cursor) : Result (String × Cursor) :=
  let c := c.advance 1
  let name := c.rest.takeWhile isWordChar
  let c := c.skipWhile isWordChar
  if name.isEmpty then .error .badAnchor
  else if c.closes 0 ∨ c.sees 0 fun x => "?:,]\x7d%@\x60".toList.contains x then
    .ok (String.ofList name, c)
  else .error .badAnchor

/-- The octets of a run of percent escapes, as many as make one character. -/
def readEscaped (c : Cursor) : Result (Char × Cursor) :=
  let octet? (n : Nat) : Option UInt8 :=
    match c.peek? n, c.peek? (n + 1), c.peek? (n + 2) with
    | some '%', some a, some b => (Text.readNat 16 [a, b]).map UInt8.ofNat
    | _, _, _ => none
  match octet? 0 with
  | none => .error .badTag
  | some first =>
      let width := if first < 0x80 then 1 else ((Utf8.lead first).map Prod.fst).getD 1
      match (List.range width).mapM fun i => octet? (3 * i) with
      | none => .error .badTag
      | some octets =>
          match Utf8.decode octets with
          | .ok [x] => .ok (x, c.advance (3 * width))
          | _ => .error .badTag

def isUriChar (verbatim : Bool) (c : Char) : Bool :=
  isWordChar c || ";/?:@&=+$.!~*'()%".toList.contains c || (verbatim && ",[]".toList.contains c)

def readUri (verbatim : Bool) :
    (fuel : Nat) → List Char → Cursor → Result (List Char × Cursor)
  | 0, acc, c => .ok (acc, c)
  | fuel + 1, acc, c =>
      if c.starts '%' then do
        let (x, c) ← readEscaped c
        readUri verbatim fuel (acc ++ [x]) c
      else if c.sees 0 (isUriChar verbatim) then
        readUri verbatim fuel (acc ++ c.rest.take 1) (c.advance 1)
      else .ok (acc, c)

/-- A handle: an exclamation mark, and a word with another one behind it if there is one. -/
def readHandle (c : Cursor) : Result (List Char × Cursor) :=
  if ¬c.starts '!' then .error .badTag
  else
    let c := c.advance 1
    let name := c.rest.takeWhile isWordChar
    let c := c.skipWhile isWordChar
    if c.starts '!' then .ok ('!' :: (name ++ ['!']), c.advance 1) else .ok ('!' :: name, c)

/-- A tag as a handle and a suffix; the handle of a tag in full is empty. -/
def readTag (c : Cursor) : Result (Token × Cursor) := do
  if c.sees 1 (· == '<') then
    let (uri, c) ← readUri true c.rest.length [] (c.advance 2)
    if uri.isEmpty ∨ ¬c.starts '>' then .error .badTag
    else return (.tag "" (String.ofList uri), c.advance 1)
  else
    let (handle, c) ← readHandle c
    if 2 ≤ handle.length ∧ handle.getLast? = some '!' then
      let (suffix, c) ← readUri false c.rest.length [] c
      if suffix.isEmpty then .error .badTag
      else return (.tag (String.ofList handle) (String.ofList suffix), c)
    else
      let (suffix, c) ← readUri false c.rest.length (handle.drop 1) c
      return (if suffix.isEmpty then .tag "" "!" else .tag "!" (String.ofList suffix), c)

def readVersionNumber (c : Cursor) : Result (Nat × Cursor) :=
  let digits := c.rest.takeWhile Text.isDecimal
  match Text.readNat 10 digits with
  | some n => if digits.length ≤ 9 then .ok (n, c.advance digits.length) else .error .badDirective
  | none => .error .badDirective

def readDirective (c : Cursor) : Result (Token × Cursor) := do
  let c := c.advance 1
  let name := c.rest.takeWhile isWordChar
  let c := c.skipWhile isWordChar
  if name.isEmpty ∨ ¬c.closes 0 then .error .badDirective
  else if name = "YAML".toList then
    let (major, c) ← readVersionNumber c.skipGaps
    if ¬c.starts '.' then .error .badDirective
    else
      let (minor, c) ← readVersionNumber (c.advance 1)
      let c ← c.skipLineEnd .badDirective
      if major = 1 ∧ (minor = 1 ∨ minor = 2) then return (.versionDirective, c)
      else .error .badDirective
  else if name = "TAG".toList then
    let (handle, c) ← readHandle c.skipGaps
    if (handle ≠ ['!'] ∧ handle.getLast? ≠ some '!') ∨ ¬c.sees 0 isGap then .error .badDirective
    else
      let (uri, c) ← readUri true c.rest.length [] c.skipGaps
      if uri.isEmpty ∨ ¬c.closes 0 then .error .badDirective
      else
        let c ← c.skipLineEnd .badDirective
        return (.tagDirective (String.ofList handle) (String.ofList uri), c)
  else .error .badDirective

/-- A place where a key may turn out to have started. -/
structure Candidate where
  /-- The number of its first token. -/
  position : Nat
  index : Nat
  line : Nat
  column : Nat
  /-- Whether nothing but a key may stand there. -/
  required : Bool

/-- The state of reading tokens. -/
structure Lexer where
  cursor : Cursor
  tokens : Array Token
  /-- The indentations of the open blocks, the innermost first. -/
  indents : List Int
  /-- A candidate or none for each open flow collection and for what is around them. -/
  candidates : List (Option Candidate)
  keyAllowed : Bool

namespace Lexer

def new (text : List Char) : Lexer :=
  { cursor := .start (if text.head? = some byteOrderMark then text.drop 1 else text)
    tokens := #[]
    indents := []
    candidates := [none]
    keyAllowed := true }

def indent (l : Lexer) : Int := l.indents.head?.getD (-1)

def inFlow (l : Lexer) : Bool := 1 < l.candidates.length

def column (l : Lexer) : Int := l.cursor.column

def push (l : Lexer) (t : Token) : Lexer := { l with tokens := l.tokens.push t }

def insert (l : Lexer) (position : Nat) (t : Token) : Lexer :=
  { l with tokens := l.tokens.extract 0 position ++ #[t] ++ l.tokens.extract position }

/-- Ends all blocks indented deeper than a column. -/
def closeBlocksFrom (column : Int) : List Int → Array Token → List Int × Array Token
  | [], tokens => ([], tokens)
  | indent :: rest, tokens =>
      if column < indent then closeBlocksFrom column rest (tokens.push .blockEnd)
      else (indent :: rest, tokens)

def closeBlocks (l : Lexer) (column : Int) : Lexer :=
  if l.inFlow then l
  else
    let (indents, tokens) := closeBlocksFrom column l.indents l.tokens
    { l with indents, tokens }

def openBlock (l : Lexer) (column : Int) (position : Nat) (t : Token) : Lexer :=
  if l.inFlow ∨ column ≤ l.indent then l
  else { l.insert position t with indents := column :: l.indents }

/-- Forgets the innermost candidate; one that had to be a key is missed. -/
def dropCandidate (l : Lexer) : Result Lexer :=
  match l.candidates with
  | some candidate :: rest =>
      if candidate.required then .error .missingColon
      else .ok { l with candidates := none :: rest }
  | _ => .ok l

/-- Forgets candidates that are no longer in this line or too far away. -/
def dropStale (l : Lexer) : Result Lexer := do
  let fresh (candidate : Candidate) : Bool :=
    !(candidate.line < l.cursor.line || candidate.index + 1024 < l.cursor.index)
  let candidates ← l.candidates.mapM fun entry =>
    match entry with
    | none => .ok none
    | some candidate =>
        if fresh candidate then .ok (some candidate)
        else if candidate.required then .error .missingColon
        else .ok none
  return { l with candidates }

def addCandidate (l : Lexer) : Result Lexer :=
  if l.keyAllowed then do
    let required := !l.inFlow && l.indent == l.column
    let l ← l.dropCandidate
    let c := l.cursor
    let candidate : Candidate := ⟨l.tokens.size, c.index, c.line, c.column, required⟩
    return { l with candidates := some candidate :: l.candidates.drop 1 }
  else .ok l

/-- Goes to the next token over blanks, comments and line breaks. -/
def skipToToken : (fuel : Nat) → Lexer → Lexer
  | 0, l => l
  | fuel + 1, l =>
      let c := l.cursor
      let c := if c.index == 0 && c.starts byteOrderMark then c.advance 1 else c
      let c := c.skipWhile fun x => x == ' ' || (x == '\t' && (l.inFlow || !l.keyAllowed))
      let c := if c.starts '#' then c.skipToBreak else c
      if c.sees 0 isBreak then
        skipToToken fuel { l with cursor := c.skipBreak, keyAllowed := l.keyAllowed || !l.inFlow }
      else { l with cursor := c }

def take (l : Lexer) (n : Nat) (t : Token) : Lexer :=
  { l.push t with cursor := l.cursor.advance n }

def documentMark (l : Lexer) (t : Token) : Result Lexer := do
  let l ← (l.closeBlocks (-1)).dropCandidate
  return { l.take 3 t with keyAllowed := false }

def directive (l : Lexer) : Result Lexer := do
  let l ← (l.closeBlocks (-1)).dropCandidate
  let (t, cursor) ← readDirective l.cursor
  return { l.push t with cursor, keyAllowed := false }

def flowStart (l : Lexer) (t : Token) : Result Lexer := do
  let l ← l.addCandidate
  return { l.take 1 t with candidates := none :: l.candidates, keyAllowed := true }

def flowEnd (l : Lexer) (t : Token) : Result Lexer := do
  let l ← l.dropCandidate
  let candidates := if l.inFlow then l.candidates.drop 1 else l.candidates
  return { l.take 1 t with candidates, keyAllowed := false }

def flowEntry (l : Lexer) : Result Lexer := do
  let l ← l.dropCandidate
  return { l.take 1 .flowEntry with keyAllowed := true }

def blockEntry (l : Lexer) : Result Lexer := do
  if ¬l.inFlow ∧ ¬l.keyAllowed then .error .misplacedEntry
  else
    let l ← (l.openBlock l.column l.tokens.size .blockSequenceStart).dropCandidate
    return { l.take 1 .blockEntry with keyAllowed := true }

def keyMark (l : Lexer) : Result Lexer := do
  if ¬l.inFlow ∧ ¬l.keyAllowed then .error .misplacedKey
  else
    let l ← (l.openBlock l.column l.tokens.size .blockMappingStart).dropCandidate
    return { l.take 1 .key with keyAllowed := !l.inFlow }

def valueMark (l : Lexer) : Result Lexer :=
  match l.candidates with
  | some candidate :: rest =>
      let l := l.insert candidate.position .key
      let l := l.openBlock candidate.column candidate.position .blockMappingStart
      .ok { l.take 1 .value with candidates := none :: rest, keyAllowed := false }
  | _ =>
      if ¬l.inFlow ∧ ¬l.keyAllowed then .error .misplacedValue
      else
        let l := l.openBlock l.column l.tokens.size .blockMappingStart
        .ok { l.take 1 .value with keyAllowed := !l.inFlow }

def content (l : Lexer) (read : Cursor → Result (Token × Cursor)) : Result Lexer := do
  let l ← l.addCandidate
  let (t, cursor) ← read l.cursor
  return { l.push t with cursor, keyAllowed := false }

def nameToken (make : String → Token) (c : Cursor) : Result (Token × Cursor) := do
  let (name, c) ← readName c
  return (make name, c)

/-- A tag is followed by a blank, a break or the end, in a flow collection also by a comma. -/
def tagToken (inFlow : Bool) (c : Cursor) : Result (Token × Cursor) := do
  let (t, c) ← readTag c
  if c.closes 0 ∨ (inFlow ∧ c.starts ',') then return (t, c) else .error .badTag

def quotedToken (c : Cursor) : Result (Token × Cursor) := do
  let (text, c) ← Quoted.read c
  return (.scalar (String.ofList text) .other, c)

def blockScalar (l : Lexer) : Result Lexer := do
  let l ← l.dropCandidate
  let style : Style := if l.cursor.starts '|' then .literal else .other
  let (text, cursor) ← Block.read l.indent l.cursor
  return { l.push (.scalar (String.ofList text) style) with cursor, keyAllowed := true }

def plainScalar (l : Lexer) : Result Lexer := do
  let l ← l.addCandidate
  let (text, broken, cursor) ← Plain.read l.inFlow (l.indent + 1).toNat l.cursor
  return { l.push (.scalar (String.ofList text) .plain) with cursor, keyAllowed := broken }

def isIndicator (c : Char) : Bool :=
  "-?:,[]\x7b\x7d#&*!|>'\"%@\x60".toList.contains c

def startsPlain (l : Lexer) : Bool :=
  let c := l.cursor
  !(c.closes 0 || c.sees 0 isIndicator)
    || (c.starts '-' && !c.sees 1 isGap)
    || (!l.inFlow && (c.starts '?' || c.starts ':') && !c.closes 1)

def token (l : Lexer) (x : Char) : Result Lexer :=
  let c := l.cursor
  let marks := l.inFlow || c.closes 1
  if c.column = 0 ∧ x = '%' then l.directive
  else if c.atDocumentMark then
    l.documentMark (if x = '-' then .documentStart else .documentEnd)
  else if x = '[' then l.flowStart .flowSequenceStart
  else if x = '\x7b' then l.flowStart .flowMappingStart
  else if x = ']' then l.flowEnd .flowSequenceEnd
  else if x = '\x7d' then l.flowEnd .flowMappingEnd
  else if x = ',' then l.flowEntry
  else if x = '-' ∧ c.closes 1 then l.blockEntry
  else if x = '?' ∧ marks then l.keyMark
  else if x = ':' ∧ marks then l.valueMark
  else if x = '*' then l.content (nameToken .alias)
  else if x = '&' then l.content (nameToken .anchor)
  else if x = '!' then l.content (tagToken l.inFlow)
  else if (x = '|' ∨ x = '>') ∧ ¬l.inFlow then l.blockScalar
  else if x = '\'' ∨ x = '"' then l.content quotedToken
  else if l.startsPlain then l.plainScalar
  else .error .unexpectedCharacter

def finish (l : Lexer) : Result (List Token) := do
  let l ← (l.closeBlocks (-1)).dropCandidate
  return l.tokens.toList

/-- Takes tokens up to the end; each takes a character at least. -/
def run : (fuel : Nat) → Lexer → Result (List Token)
  | 0, _ => .error .unexpectedCharacter
  | fuel + 1, l => do
      let l ← (skipToToken (l.cursor.rest.length + 1) l).dropStale
      let l := l.closeBlocks l.column
      match l.cursor.rest.head? with
      | none => l.finish
      | some x => run fuel (← l.token x)

end Lexer

def read (text : List Char) : Result (List Token) :=
  if text.all isPrintable then Lexer.run (text.length + 1) (Lexer.new text)
  else .error .controlCharacter

end Token

end Rehearsal.Yaml
