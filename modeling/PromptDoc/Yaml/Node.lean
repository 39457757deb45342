import PromptDoc.Map.Ordered
import PromptDoc.Yaml.Token

/-!
# YAML nodes

The tree that the tokens of a text make: scalars, sequences and mappings, with their tags spelt out
and each alias given the number of the anchor it names. An empty place stands for an empty plain
scalar.
-/

namespace PromptDoc.Yaml

/-- A node. An anchor is known by its number. -/
inductive Node where
  | alias (target : Nat)
  | scalar (anchor : Option Nat) (tag : Option String) (text : String) (plain : Bool)
  | sequence (anchor : Option Nat) (tag : Option String) (items : List Node)
  | mapping (anchor : Option Nat) (tag : Option String) (entries : List (Node × Node))

/-- The node of an empty place. -/
def Node.empty : Node := .scalar none none "" true

/-- What is known while nodes are read. -/
structure Reading where
  tokens : List Token
  /-- What each handle of a tag stands for; the first entry counts. -/
  handles : List (String × String) := []
  /-- The number each anchor's name has now. -/
  anchors : OrderedMap Nat := ∅

/-- Reads something off the tokens. -/
abbrev Grammar := StateT Reading Option

namespace Grammar

/-- The next token. -/
def peek : Grammar (Option Token) := do return (← get).tokens.head?

/-- Leave the next token behind. -/
def skip : Grammar Unit := modify fun r ↦ { r with tokens := r.tokens.drop 1 }

/-- Leave the next token behind if it is the given one. -/
def accept (t : Token) : Grammar Bool := do
  if (← peek) = some t then
    skip
    return true
  else return false

/-- Leave the next token behind, which must be the given one. -/
def expect (t : Token) : Grammar Unit := do guard (← accept t)

/-- Whether the next token is one of some. -/
def at? (ts : List Token) : Grammar Bool := do return (← peek).any ts.contains

/-- Number an anchor: as many as there are names so far. -/
def numberAnchor (name : String) : Grammar Nat := do
  let n := (← get).anchors.size
  modify fun r ↦ { r with anchors := r.anchors.insert name n }
  return n

/-- Spell a tag out. -/
def resolveTag (handle suffix : String) : Grammar String := do
  if handle.isEmpty then return suffix
  else
    let start ← OrderedMap.find? handle (← get).handles
    return start ++ suffix

/-- Read an anchor if there is one. -/
def anchor? : Grammar (Option Nat) := do
  match ← peek with
  | some (.anchor name) =>
    skip
    return some (← numberAnchor name)
  | _ => return none

/-- Read a tag if there is one. -/
def tag? : Grammar (Option String) := do
  match ← peek with
  | some (.tag handle suffix) =>
    skip
    return some (← resolveTag handle suffix)
  | _ => return none

/-- Read an anchor and a tag, in either order. -/
def properties : Grammar (Option Nat × Option String) := do
  match ← anchor? with
  | some a => return (some a, ← tag?)
  | none =>
    let tag ← tag?
    return (← anchor?, tag)

mutual

/-- Read a node. Block collections may stand only where `block` holds, and entries without
indentation of their own only where `indentless` holds. -/
def node (block indentless : Bool) : Nat → Grammar Node
  | 0 => failure
  | fuel + 1 => do
    match ← peek with
    | some (.alias name) =>
      skip
      return .alias (← (← get).anchors.get? name)
    | _ =>
      let (anchor, tag) ← properties
      let next ← peek
      match next with
      | some (.scalar text plain) =>
        skip
        if tag = some "!" then return .scalar anchor none text true
        else return .scalar anchor tag text plain
      | some .flowSequenceStart =>
        skip
        return .sequence anchor tag (← flowItems true fuel)
      | some .flowMappingStart =>
        skip
        return .mapping anchor tag (← flowEntries true fuel)
      | _ =>
        if indentless && next = some .blockEntry then
          return .sequence anchor tag (← indentlessItems fuel)
        else if block && next = some .blockSequenceStart then
          skip
          return .sequence anchor tag (← blockItems fuel)
        else if block && next = some .blockMappingStart then
          skip
          return .mapping anchor tag (← blockEntries fuel)
        else
          guard (anchor.isSome || tag.isSome)
          return .scalar anchor tag "" true

/-- Read a node, unless one of some tokens shows that the place is empty. -/
def nodeUnless (ends : List Token) (block indentless : Bool) : Nat → Grammar Node
  | 0 => failure
  | fuel + 1 => do
    if ← at? ends then return .empty
    else node block indentless fuel

/-- Read the items of a block sequence and its end. -/
def blockItems : Nat → Grammar (List Node)
  | 0 => failure
  | fuel + 1 => do
    if ← accept .blockEntry then
      let item ← nodeUnless [.blockEntry, .blockEnd] true false fuel
      return item :: (← blockItems fuel)
    else
      expect .blockEnd
      return []

/-- Read the items of a sequence that has no indentation of its own. -/
def indentlessItems : Nat → Grammar (List Node)
  | 0 => failure
  | fuel + 1 => do
    if ← accept .blockEntry then
      let item ← nodeUnless [.blockEntry, .key, .value, .blockEnd] true false fuel
      return item :: (← indentlessItems fuel)
    else return []

/-- Read the entries of a block mapping and its end. -/
def blockEntries : Nat → Grammar (List (Node × Node))
  | 0 => failure
  | fuel + 1 => do
    if ← accept .key then
      let key ← nodeUnless [.key, .value, .blockEnd] true true fuel
      let value ← valueUnless [.key, .value, .blockEnd] true fuel
      return (key, value) :: (← blockEntries fuel)
    else
      expect .blockEnd
      return []

/-- Read the value of an entry. Without a colon it is empty. -/
def valueUnless (ends : List Token) (block : Bool) : Nat → Grammar Node
  | 0 => failure
  | fuel + 1 => do
    if ← accept .value then nodeUnless ends block block fuel
    else return .empty

/-- Read the items of a sequence in brackets and the closing bracket. -/
def flowItems (first : Bool) : Nat → Grammar (List Node)
  | 0 => failure
  | fuel + 1 => do
    if ← accept .flowSequenceEnd then return []
    else
      unless first do expect .flowEntry
      if ← accept .flowSequenceEnd then return []
      else if ← accept .key then
        let pair ← flowPair fuel
        return pair :: (← flowItems false fuel)
      else
        let item ← node false false fuel
        return item :: (← flowItems false fuel)

/-- Read a mapping of one entry among the items of a sequence, behind the mark of its key. What
shows that the key is empty is left behind. -/
def flowPair : Nat → Grammar Node
  | 0 => failure
  | fuel + 1 => do
    let key ←
      if ← at? [.value, .flowEntry, .flowSequenceEnd] then
        skip
        pure Node.empty
      else node false false fuel
    let value ← valueUnless [.flowEntry, .flowSequenceEnd] false fuel
    return .mapping none none [(key, value)]

/-- Read the entries of a mapping in braces and the closing brace. -/
def flowEntries (first : Bool) : Nat → Grammar (List (Node × Node))
  | 0 => failure
  | fuel + 1 => do
    if ← accept .flowMappingEnd then return []
    else
      unless first do expect .flowEntry
      if ← accept .flowMappingEnd then return []
      else if ← accept .key then
        let key ← nodeUnless [.value, .flowEntry, .flowMappingEnd] false false fuel
        let value ← valueUnless [.flowEntry, .flowMappingEnd] false fuel
        return (key, value) :: (← flowEntries false fuel)
      else
        let key ← node false false fuel
        return (key, .empty) :: (← flowEntries false fuel)

end

/-- The handles that every document knows. -/
def commonHandles : List (String × String) := [("!", "!"), ("!!", "tag:yaml.org,2002:")]

/-- Read the directives before a document. The version is given at most once and is 1.1 or 1.2, and
no handle is declared twice. -/
def directives (versioned : Bool) : Nat → Grammar Unit
  | 0 => failure
  | fuel + 1 => do
    match ← peek with
    | some (.versionDirective major minor) =>
      guard (!versioned && major = 1 && (minor = 1 || minor = 2))
      skip
      directives true fuel
    | some (.tagDirective handle start) =>
      guard ((OrderedMap.find? handle (← get).handles).isNone)
      skip
      modify fun r ↦ { r with handles := r.handles ++ [(handle, start)] }
      directives versioned fuel
    | _ => modify fun r ↦ { r with handles := r.handles ++ commonHandles }

/-- Whether a token can only stand outside of documents. -/
def isOutside : Token → Bool
  | .versionDirective .. | .tagDirective .. | .documentStart | .documentEnd => true
  | _ => false

/-- Read the one document of a text; none if there is nothing at all. -/
def document (fuel : Nat) : Grammar (Option Node) := do
  match ← peek with
  | none => return none
  | some first =>
    directives false fuel
    let root ←
      if isOutside first && first ≠ .documentEnd then
        expect .documentStart
        if (← peek).all isOutside then pure Node.empty
        else node true false fuel
      else node true false fuel
    modify fun r ↦ { r with tokens := r.tokens.dropWhile (· = .documentEnd) }
    guard (← get).tokens.isEmpty
    return some root

end Grammar

namespace Node

/-- The root that tokens make; none if there are no tokens. -/
def ofTokens? (ts : List Token) : Option (Option Node) :=
  ((Grammar.document (3 * ts.length + 3)).run { tokens := ts }).map Prod.fst

mutual

/-- The number of scalars, aliases and ends of collections in a node. -/
def weight : Node → Nat
  | .alias _ => 1
  | .scalar .. => 1
  | .sequence _ _ items => weightItems items + 2
  | .mapping _ _ entries => weightEntries entries + 2

/-- The weight of some nodes. -/
def weightItems : List Node → Nat
  | [] => 0
  | n :: ns => n.weight + weightItems ns

/-- The weight of some entries. -/
def weightEntries : List (Node × Node) → Nat
  | [] => 0
  | (k, v) :: es => k.weight + v.weight + weightEntries es

end

mutual

/-- The anchored nodes within a node with their numbers, each before what it holds. -/
def anchored : Node → List (Nat × Node)
  | .alias _ => []
  | .scalar a tag text plain => a.toList.map fun n ↦ (n, .scalar a tag text plain)
  | .sequence a tag items =>
    (a.toList.map fun n ↦ (n, .sequence a tag items)) ++ anchoredItems items
  | .mapping a tag entries =>
    (a.toList.map fun n ↦ (n, .mapping a tag entries)) ++ anchoredEntries entries

/-- The anchored nodes within some nodes. -/
def anchoredItems : List Node → List (Nat × Node)
  | [] => []
  | n :: ns => n.anchored ++ anchoredItems ns

/-- The anchored nodes within some entries. -/
def anchoredEntries : List (Node × Node) → List (Nat × Node)
  | [] => []
  | (k, v) :: es => k.anchored ++ v.anchored ++ anchoredEntries es

end

end Node

end PromptDoc.Yaml
