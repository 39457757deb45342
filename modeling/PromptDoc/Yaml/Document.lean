import PromptDoc.Yaml.Node
import PromptDoc.Yaml.Scalar

/-!
# YAML documents as values

Decoding the one document of a text. An alias stands for the node that was last given its number.
Two limits keep decoding finite: collections nest at most 128 deep, aliases included, and a document
may follow a hundred aliases for each of its parts.
-/

namespace PromptDoc.Yaml

open Json

/-- A document: its root, if there is one, and its anchored nodes. -/
structure Document where
  root : Option Node
  anchored : List (Nat × Node)

/-- Decodes something, and counts down the aliases that may still be followed. -/
abbrev Decoding := StateT Nat Option

namespace Document

/-- The document of a text. -/
def ofText? (s : String) : Option Document := do
  let ts ← Token.ofText? s
  let root ← Node.ofTokens? ts
  some ⟨root, root.elim [] Node.anchored⟩

/-- How many aliases may be followed. -/
def budget (d : Document) : Nat := 100 * d.root.elim 1 Node.weight

/-- Decode a document as a whole. -/
def decode {α : Type} (d : Document) (f : Decoding α) : Option α :=
  (f.run d.budget).map Prod.fst

/-- Count one alias. -/
def spend : Decoding Unit := do
  match ← get with
  | 0 => failure
  | n + 1 => set n

/-- What a node stands for. -/
def follow (d : Document) : Node → Decoding Node
  | .alias target => do
    spend
    match d.anchored.reverse.find? fun e ↦ e.1 = target with
    | some e => return e.2
    | none => failure
  | n => return n

/-- The text of a scalar, whatever its tag. -/
def text (d : Document) (n : Node) : Decoding String := do
  match ← d.follow n with
  | .scalar _ _ s _ => return s
  | _ => failure

/-- The text of a scalar, or none if it is empty or `null`. -/
def text? (d : Document) (n : Node) : Decoding (Option String) := do
  match ← d.follow n with
  | .scalar _ tag s plain =>
    if ← Scalar.isAbsent? tag s plain then return none else return some s
  | _ => failure

/-- The value of a node, with `depth` collections left to open. -/
def value (d : Document) : (depth : Nat) → Node → Decoding Value
  | 0, n => do
    match ← d.follow n with
    | .scalar _ tag s plain => Scalar.value? tag s plain
    | _ => failure
  | depth + 1, n => do
    match ← d.follow n with
    | .scalar _ tag s plain => Scalar.value? tag s plain
    | .sequence _ tag items =>
      guard (!Scalar.isLocalTag tag)
      return .array (← items.mapM (value d depth))
    | .mapping _ tag entries =>
      guard (!Scalar.isLocalTag tag)
      let entries ← entries.mapM fun e ↦ do return (← d.text e.1, ← value d depth e.2)
      return .ofFields (.ofList entries)
    | .alias _ => failure

/-- The value of a node, or none if it is empty or `null`. -/
def value? (d : Document) (depth : Nat) (n : Node) : Decoding (Option Value) := do
  match ← d.follow n with
  | .scalar _ tag s plain =>
    if ← Scalar.isAbsent? tag s plain then return none
    else return some (← Scalar.value? tag s plain)
  | n => return some (← d.value depth n)

/-- The entries of a mapping, whatever its tag; an empty place is an empty mapping. -/
def entries (d : Document) (n : Node) : Decoding (List (String × Node)) := do
  match ← d.follow n with
  | .scalar _ _ "" true => return []
  | .mapping _ _ es => es.mapM fun e ↦ do return (← d.text e.1, e.2)
  | _ => failure

/-- How many collections may nest. -/
def maxDepth : Nat := 128

/-- The value of a document; nothing at all is `null`. -/
def toValue? (d : Document) : Option Value :=
  match d.root with
  | none => some .null
  | some root => d.decode (d.value maxDepth root)

end Document

/-- The value that a text denotes. -/
def read? (s : String) : Option Value := (Document.ofText? s).bind Document.toValue?

end PromptDoc.Yaml
