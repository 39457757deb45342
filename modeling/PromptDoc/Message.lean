import PromptDoc.Part
import PromptDoc.Role

/-!
# Messages and what a render is given

A message is a role with a list of parts. A render is given input variables, reference documents,
the earlier messages of the conversation and a context.
-/

namespace PromptDoc

open Json

/-- A message of a conversation. Specification §3 (Message). -/
structure Message where
  role : Role
  content : List Part
  metadata : Option Annotations := none
  deriving DecidableEq

/-- A reference document. Specification §10.7. -/
structure Document where
  content : List Part
  metadata : Option Annotations := none
  deriving DecidableEq

/-- What a render is given. Specification §3 (DataArgument). -/
structure RenderData where
  /-- The input variables of the template. -/
  input : Fields := ∅
  /-- Reference documents. -/
  docs : List Document := []
  /-- The earlier messages of the conversation. -/
  messages : List Message := []
  /-- What the template sees under its context variable. -/
  context : Fields := ∅
  deriving DecidableEq

namespace Message

/-- The purpose of a message that was taken over from the history. -/
def historyPurpose : String := "history"

/-- A message of one text. -/
def ofText (role : Role) (text : String) : Message := ⟨role, [.ofText text], none⟩

/-- Whether a message was taken over from the history. -/
def isHistory (m : Message) : Bool :=
  (m.metadata.bind fun a ↦ a.get? purposeKey) = some (.string historyPurpose)

/-- The message tagged as taken over from the history. Specification §4.4. -/
def asHistory (m : Message) : Message :=
  { m with
    metadata := some ((m.metadata.getD ∅).insert purposeKey (.string historyPurpose)) }

/-- The written form of a message. -/
def toJson (m : Message) : Value :=
  .object (entry "role" m.role.toJson ++ entry "content" (.array (m.content.map Part.toJson)) ++
    entryGiven "metadata" (m.metadata.map .ofFields))

/-- Read a message. -/
def ofJson? (v : Value) : Option Message := do
  let fields ← record? ["role", "content", "metadata"] v
  let role ← required? Role.ofJson? "role" fields
  let content ← required? (list? Part.ofJson?) "content" fields
  let metadata ← optional? Value.fields? "metadata" fields
  some ⟨role, content, metadata⟩

/-- A tagged message counts as history. -/
@[simp] theorem isHistory_asHistory (m : Message) : m.asHistory.isHistory = true := by
  simp [isHistory, asHistory, OrderedMap.get?_insert]

end Message

/-- The written form of a document. -/
def Document.toJson (d : Document) : Value :=
  .object (entry "content" (.array (d.content.map Part.toJson)) ++
    entryGiven "metadata" (d.metadata.map .ofFields))

/-- Read a document. -/
def Document.ofJson? (v : Value) : Option Document := do
  let fields ← record? ["content", "metadata"] v
  let content ← required? (list? Part.ofJson?) "content" fields
  let metadata ← optional? Value.fields? "metadata" fields
  some ⟨content, metadata⟩

namespace RenderData

/-- The written form of what a render is given. -/
def toJson (d : RenderData) : Value :=
  .object (entryUnless d.input.isEmpty "input" (.ofFields d.input) ++
    entryUnless d.docs.isEmpty "docs" (.array (d.docs.map Document.toJson)) ++
    entryUnless d.messages.isEmpty "messages" (.array (d.messages.map Message.toJson)) ++
    entryUnless d.context.isEmpty "context" (.ofFields d.context))

/-- Read what a render is given. -/
def ofJson? (v : Value) : Option RenderData := do
  let fields ← record? ["input", "docs", "messages", "context"] v
  let input ← defaulted? Value.fields? ∅ "input" fields
  let docs ← defaulted? (list? Document.ofJson?) [] "docs" fields
  let messages ← defaulted? (list? Message.ofJson?) [] "messages" fields
  let context ← defaulted? Value.fields? ∅ "context" fields
  some ⟨input, docs, messages, context⟩

end RenderData

end PromptDoc
