import PromptDoc.Json.Codec

/-!
# Message parts

One piece of a message's content. A part is written without a tag: its payload's key tells what it
is, and a part that holds nothing but metadata is a pending one, a place still to be filled in.
-/

namespace PromptDoc

open Json

/-- Free-form metadata of messages, parts and prompts. -/
abbrev Annotations := Fields

/-- The metadata key for the purpose of a message or a pending part. -/
def purposeKey : String := "purpose"

/-- The metadata key for the flag of a pending part. -/
def pendingKey : String := "pending"

/-- A reference to a medium. -/
structure Media where
  url : String
  contentType : Option String := none
  deriving DecidableEq

/-- One piece of a message's content. Specification §3 (Part). -/
inductive Part where
  | text (text : String) (metadata : Option Annotations)
  | media (media : Media) (metadata : Option Annotations)
  | toolRequest (request : Fields) (metadata : Option Annotations)
  | toolResponse (response : Fields) (metadata : Option Annotations)
  | data (data : Fields) (metadata : Option Annotations)
  | pending (metadata : Annotations)
  deriving DecidableEq

/-- The written form of a medium. -/
def Media.toJson (m : Media) : Value :=
  .object (entry "url" (.string m.url) ++ entryGiven "contentType" (m.contentType.map .string))

/-- Read a medium. -/
def Media.ofJson? (v : Value) : Option Media := do
  let fields ← record? ["url", "contentType"] v
  let url ← required? Value.string? "url" fields
  let contentType ← optional? Value.string? "contentType" fields
  some ⟨url, contentType⟩

namespace Part

/-- A text without metadata. -/
def ofText (text : String) : Part := .text text none

/-- A medium without metadata. -/
def ofMedia (url : String) (contentType : Option String) : Part := .media ⟨url, contentType⟩ none

/-- A pending part with its flag set. -/
def awaiting : Part := .pending ((∅ : Annotations).insert pendingKey (.bool true))

/-- The metadata of a part. -/
def metadata? : Part → Option Annotations
  | text _ m | media _ m | toolRequest _ m | toolResponse _ m | data _ m => m
  | pending m => some m

/-- Set a metadata entry, with metadata made if there was none. -/
def setMetadata (p : Part) (k : String) (v : Value) : Part :=
  let set (m : Option Annotations) : Option Annotations := some ((m.getD ∅).insert k v)
  match p with
  | text t m => .text t (set m)
  | media x m => .media x (set m)
  | toolRequest x m => .toolRequest x (set m)
  | toolResponse x m => .toolResponse x (set m)
  | data x m => .data x (set m)
  | pending m => .pending (m.insert k v)

/-- Whether a part is pending: its flag must be the boolean `true`. Specification §3 (Part). -/
def isPending : Part → Bool
  | pending m => m.get? pendingKey = some (.bool true)
  | _ => false

/-- The text of a text part. -/
def text? : Part → Option String
  | text t _ => some t
  | _ => none

/-- The part of a section that is still to be filled in. -/
def ofSection (name : String) : Part := awaiting.setMetadata purposeKey (.string name)

/-- The written form of a part. -/
def toJson : Part → Value
  | text t m => .object (entry "text" (.string t) ++ metadataEntry m)
  | media x m => .object (entry "media" x.toJson ++ metadataEntry m)
  | toolRequest x m => .object (entry "toolRequest" (.ofFields x) ++ metadataEntry m)
  | toolResponse x m => .object (entry "toolResponse" (.ofFields x) ++ metadataEntry m)
  | data x m => .object (entry "data" (.ofFields x) ++ metadataEntry m)
  | pending m => .object (entry "metadata" (.ofFields m))
where
  /-- The entry of optional metadata. -/
  metadataEntry (m : Option Annotations) : List (String × Value) :=
    entryGiven "metadata" (m.map .ofFields)

/-- Read a part with a payload under `k`. -/
def payload? {α : Type} (read : Value → Option α) (k : String)
    (make : α → Option Annotations → Part) (fields : List (String × Value)) : Option Part := do
  let x ← required? read k fields
  let m ← optional? Value.fields? "metadata" fields
  some (make x m)

/-- Read a part: the first payload that fits tells what it is. Specification §10.7. -/
def ofJson? (v : Value) : Option Part := do
  let fields ← entries? v
  payload? Value.string? "text" .text fields
    <|> payload? Media.ofJson? "media" .media fields
    <|> payload? Value.fields? "toolRequest" .toolRequest fields
    <|> payload? Value.fields? "toolResponse" .toolResponse fields
    <|> payload? Value.fields? "data" .data fields
    <|> (required? Value.fields? "metadata" fields).map .pending

end Part

end PromptDoc
