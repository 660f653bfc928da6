import Rehearsal.Yaml.Token
/-!
The tree of a YAML document.

An alias stands for the node whose anchor it names. Anchors are numbered by how many names are
known when they are met, and of several nodes with one number the last to start counts.
-/

namespace Rehearsal.Yaml

inductive Node where
  | scalar (tag : Option String) (text : String) (style : Style)
  | sequence (tag : Option String) (items : List Node)
  | mapping (tag : Option String) (entries : List (Node × Node))
  | alias (anchor : Nat)
  deriving Repr, Inhabited

structure Document where
  root : Node
  /-- The nodes that aliases stand for. -/
  anchors : List (Nat × Node)
  /-- How many beginnings and ends of nodes the document has. -/
  size : Nat
  deriving Repr

def Document.anchor? (d : Document) (anchor : Nat) : Option Node :=
  (d.anchors.find? fun entry => entry.1 == anchor).map Prod.snd

/-- What is known while a tree is built. -/
structure Builder where
  tokens : List Token
  /-- The handles of tags and what they stand for. -/
  handles : List (String × String)
  names : List (String × Nat)
  /-- Anchored nodes with their numbers and the places where they start. -/
  anchored : List (Nat × Nat × Node)
  size : Nat

namespace Builder

abbrev Build := StateT Builder Result

def fail {α : Type} (problem : Problem) : Build α :=
  fun _ => .error problem

def peek : Build (Option Token) := do
  return (← get).tokens.head?

def skip : Build Unit :=
  modify fun b => { b with tokens := b.tokens.drop 1 }

def count (n : Nat) : Build Unit :=
  modify fun b => { b with size := b.size + n }

def bindName (name : String) : Build Nat := do
  let b ← get
  let number := b.names.length
  let others := b.names.filter fun entry => entry.1 != name
  set { b with names := (name, number) :: others }
  return number

/-- Puts an anchored node, which starts at a place, before all that start earlier. -/
def place (entry : Nat × Nat × Node) : List (Nat × Nat × Node) → List (Nat × Nat × Node)
  | [] => [entry]
  | other :: rest =>
      if other.2.1 < entry.2.1 then entry :: other :: rest else other :: place entry rest

def anchoring (name : Option String) (build : Build Node) : Build Node := do
  match name with
  | none => build
  | some name =>
      let number ← bindName name
      let start := (← get).size
      let node ← build
      modify fun b => { b with anchored := place (number, start, node) b.anchored }
      return node

def empty : Node := .scalar none "" .plain

def missing : Build Node := do
  count 1
  return empty

def commonHandles : List (String × String) :=
  [("!", "!"), ("!!", "tag:yaml.org,2002:")]

def expand (handle suffix : String) : Build String := do
  if handle = "" then return suffix
  else
    match ((← get).handles ++ commonHandles).find? fun entry => entry.1 == handle with
    | some (_, expansion) => return expansion ++ suffix
    | none => fail (.undefinedHandle handle)

/-- An anchor and a tag in front of a node, in either order. -/
def properties : Build (Option String × Option String) := do
  match ← peek with
  | some (.anchor name) =>
      skip
      match ← peek with
      | some (.tag handle suffix) =>
          skip
          return (some name, some (← expand handle suffix))
      | _ => return (some name, none)
  | some (.tag handle suffix) =>
      skip
      match ← peek with
      | some (.anchor name) =>
          skip
          return (some name, some (← expand handle suffix))
      | _ => return (none, some (← expand handle suffix))
  | _ => return (none, none)

def sees (tokens : List Token) : Build Bool := do
  match ← peek with
  | some t => return tokens.contains t
  | none => return false

def takes (t : Token) : Build Bool := do
  if ← sees [t] then
    skip
    return true
  else return false

/-- Builds a node, or an empty one where one of the tokens stands instead. -/
def nodeUnless (tokens : List Token) (build : Build Node) : Build Node := do
  if ← sees tokens then missing else build

def blockItems (node : Build Node) : (fuel : Nat) → Build (List Node)
  | 0 => fail .missingDash
  | fuel + 1 => do
      if ← takes .blockEntry then
        let item ← nodeUnless [.blockEntry, .blockEnd] node
        return item :: (← blockItems node fuel)
      else if ← takes .blockEnd then return []
      else fail .missingDash

/-- The items of a sequence that stands at the indentation of the mapping around it. -/
def looseItems (node : Build Node) : (fuel : Nat) → Build (List Node)
  | 0 => fail .missingDash
  | fuel + 1 => do
      if ← takes .blockEntry then
        let item ← nodeUnless [.blockEntry, .key, .value, .blockEnd] node
        return item :: (← looseItems node fuel)
      else return []

def blockEntries (node : Build Node) : (fuel : Nat) → Build (List (Node × Node))
  | 0 => fail .missingKey
  | fuel + 1 => do
      if ← takes .key then
        let key ← nodeUnless [.key, .value, .blockEnd] node
        let value ← if ← takes .value then nodeUnless [.key, .value, .blockEnd] node else missing
        return (key, value) :: (← blockEntries node fuel)
      else if ← takes .blockEnd then return []
      else fail .missingKey

/-- An item of a flow sequence that is a mapping of one entry, behind its key token. Where the
key is missing, the token in its place is gone over. -/
def flowPair (node : Build Node) : Build Node := do
  count 2
  let key ← if ← sees [.value, .flowEntry, .flowSequenceEnd] then do
      skip
      missing
    else node
  let value ← if ← takes .value then nodeUnless [.flowEntry, .flowSequenceEnd] node else missing
  return .mapping none [(key, value)]

def flowItems (node : Build Node) : (fuel : Nat) → (first : Bool) → Build (List Node)
  | 0, _ => fail .missingComma
  | fuel + 1, first => do
      if ← takes .flowSequenceEnd then return []
      else if !first && !(← takes .flowEntry) then fail .missingComma
      else if ← takes .flowSequenceEnd then return []
      else
        let item ← if ← takes .key then flowPair node else node
        return item :: (← flowItems node fuel false)

def flowEntries (node : Build Node) : (fuel : Nat) → (first : Bool) → Build (List (Node × Node))
  | 0, _ => fail .missingComma
  | fuel + 1, first => do
      if ← takes .flowMappingEnd then return []
      else if !first && !(← takes .flowEntry) then fail .missingComma
      else if ← takes .flowMappingEnd then return []
      else if ← takes .key then
        let key ← nodeUnless [.value, .flowEntry, .flowMappingEnd] node
        let value ← if ← takes .value then nodeUnless [.flowEntry, .flowMappingEnd] node
          else missing
        return (key, value) :: (← flowEntries node fuel false)
      else
        let key ← node
        let value ← missing
        return (key, value) :: (← flowEntries node fuel false)

/-- Builds the next node. Sequences and mappings count for their beginnings and ends. -/
def node : (fuel : Nat) → (block loose : Bool) → Build Node
  | 0, _, _ => fail .missingContent
  | fuel + 1, block, loose => do
      match ← peek with
      | some (.alias name) =>
          skip
          count 1
          match (← get).names.find? fun entry => entry.1 == name with
          | some (_, number) => return .alias number
          | none => fail (.unknownAnchor name)
      | _ =>
          let (name, tag) ← properties
          let inner := node fuel true true
          let flow := node fuel false false
          match ← peek with
          | some .blockEntry =>
              if loose then anchoring name do
                count 2
                return .sequence tag (← looseItems (node fuel true false) fuel)
              else content name tag
          | some (.scalar text style) => anchoring name do
              skip
              count 1
              return .scalar (if tag = some "!" then none else tag) text style
          | some .flowSequenceStart => anchoring name do
              skip
              count 2
              return .sequence tag (← flowItems flow fuel true)
          | some .flowMappingStart => anchoring name do
              skip
              count 2
              return .mapping tag (← flowEntries flow fuel true)
          | some .blockSequenceStart =>
              if block then anchoring name do
                skip
                count 2
                return .sequence tag (← blockItems (node fuel true false) fuel)
              else content name tag
          | some .blockMappingStart =>
              if block then anchoring name do
                skip
                count 2
                return .mapping tag (← blockEntries inner fuel)
              else content name tag
          | _ => content name tag
where
  /-- A node that is nothing but its anchor and its tag. -/
  content (name tag : Option String) : Build Node :=
    if name.isNone && tag.isNone then fail .missingContent
    else anchoring name do
      count 1
      return .scalar tag "" .plain

/-- The directives in front of a document; tells whether there were any. -/
def directives : (fuel : Nat) → (version : Bool) → Build Bool
  | 0, _ => fail .badDirective
  | fuel + 1, version => do
      match ← peek with
      | some .versionDirective =>
          skip
          if version then fail .badDirective
          else
            let _ ← directives fuel true
            return true
      | some (.tagDirective handle expansion) =>
          skip
          if (← get).handles.any fun entry => entry.1 == handle then fail .badDirective
          else
            modify fun b => { b with handles := (handle, expansion) :: b.handles }
            let _ ← directives fuel version
            return true
      | _ => return false

def root (fuel : Nat) : Build Node := do
  let directed ← directives fuel false
  if ← takes .documentStart then
    match ← peek with
    | none => missing
    | some .documentStart => missing
    | some .documentEnd => missing
    | some .versionDirective => missing
    | some (.tagDirective _ _) => missing
    | some _ => node fuel true false
  else if directed then fail .missingDocumentStart
  else node fuel true false

def finish : Build Unit := do
  let rest := (← get).tokens.dropWhile (· == .documentEnd)
  if rest.isEmpty then return () else fail .severalDocuments

end Builder

def Document.parse (text : String) : Result Document := do
  let tokens ← Token.read text.toList
  if tokens.isEmpty then .error .noDocument
  else
    let fuel := 2 * tokens.length + 2
    let (root, b) ← (do
      let root ← Builder.root fuel
      Builder.finish
      return root : Builder.Build Node).run ⟨tokens, [], [], [], 0⟩
    return {
      root, size := b.size
      anchors := b.anchored.map fun (number, _, node) => (number, node) }

end Rehearsal.Yaml
