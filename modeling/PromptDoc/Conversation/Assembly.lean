import PromptDoc.Conversation.History
import PromptDoc.Marker.Split

/-!
# Assembling messages

From rendered text to messages. Role and history markers cut the text into turns; a role marker
renames the open turn if nothing has been said in it. Within a turn, media and section markers cut
its text into parts. Earlier messages come in at the history markers, or are put in at the end.
-/

namespace PromptDoc

open Marker

/-- Why rendered text makes no messages. Specification §7 (d) and §10.7. -/
inductive MessageError where
  /-- A media marker that does not have two or three fields. -/
  | mediaFields (piece : String) (found : Nat)
  /-- A section marker that does not have two fields. -/
  | sectionFields (piece : String) (found : Nat)
  /-- A role marker that names no role. -/
  | role (error : UnknownRole)
  deriving DecidableEq

/-- The error's text. -/
def MessageError.message : MessageError → String
  | mediaFields piece found =>
    "invalid media piece: " ++ piece ++ "; expected 2 or 3 fields, found " ++ toString found
  | sectionFields piece found =>
    "invalid section piece: " ++ piece ++ "; expected 2 fields, found " ++ toString found
  | role error => "invalid role marker: " ++ error.message

namespace Conversation

/-- The part of a media marker: behind the kind stand the url and at most a content type, each after
one space. A blank content type counts as none. Specification §4.4. -/
def mediaPart (m : Marker) : Except MessageError Part :=
  match Text.fields ' ' m.body with
  | [_, url] => .ok (.ofMedia (String.ofList url) none)
  | [_, url, kind] =>
    .ok (.ofMedia (String.ofList url)
      (if Text.allBlank kind then none else some (String.ofList kind)))
  | fields => .error (.mediaFields (String.ofList m.body) fields.length)

/-- The part of a section marker: behind the kind stands the name, after one space. Specification
§4.4. -/
def sectionPart (m : Marker) : Except MessageError Part :=
  match Text.fields ' ' m.body with
  | [_, name] => .ok (.ofSection (String.ofList (Text.trim name)))
  | fields => .error (.sectionFields (String.ofList m.body) fields.length)

/-- The part of a piece. A marker of another kind is text. -/
def partOf : Piece → Except MessageError Part
  | .text cs => .ok (.ofText (String.ofList cs))
  | .marker (.media arguments) => mediaPart (.media arguments)
  | .marker (.placeholder arguments) => sectionPart (.placeholder arguments)
  | .marker m => .ok (.ofText (String.ofList m.body))

/-- The parts of a turn's text. -/
def partsOf (source : List Char) : Except MessageError (List Part) :=
  (splitParts source).mapM partOf

/-- What a conversation is built from: a turn of rendered text, or an earlier message. -/
inductive Turn where
  | said (role : Role) (source : List Char)
  | earlier (message : Message)

/-- A conversation under construction: its closed turns and the open one. Specification §4.4, the
list of message sources. -/
structure Draft where
  closed : List Turn := []
  role : Role := .user
  source : List Char := []

/-- Close the open turn and open another. -/
def Draft.next (d : Draft) (between : List Turn) (speaker : Role) : Draft :=
  ⟨d.closed ++ .said d.role d.source :: between, speaker, []⟩

/-- Take up a piece of the text. Specification §4.4, the state machine. -/
def Draft.add (history : List Message) (d : Draft) : Piece → Except MessageError Draft
  | .marker (.role name) =>
    match Role.ofName (String.ofList name) with
    | .error e => .error (.role e)
    | .ok speaker =>
      if Text.allBlank d.source then .ok { d with role := speaker } else .ok (d.next [] speaker)
  | .marker .history =>
    .ok (d.next (history.map fun m ↦ .earlier m.asHistory) .model)
  | .marker m => .ok { d with source := d.source ++ m.body }
  | .text cs => .ok { d with source := d.source ++ cs }

/-- All turns, the open one last. -/
def Draft.turns (d : Draft) : List Turn := d.closed ++ [.said d.role d.source]

/-- The turns of a rendered text. -/
def turnsOf (rendered : List Char) (history : List Message) : Except MessageError (List Turn) :=
  Draft.turns <$> (splitTurns rendered).foldlM (Draft.add history) {}

/-- The message of a turn. A turn in which nothing is said has none. Specification §4.4. -/
def Turn.message? : Turn → Except MessageError (Option Message)
  | .earlier m => .ok (some m)
  | .said speaker source =>
    if Text.allBlank source then .ok none
    else (partsOf source).map fun parts ↦ some ⟨speaker, parts, none⟩

/-- The messages of a rendered text, with the earlier messages among them. Specification §4.4,
`assemble(renderedText, dataArgument)`. -/
def toMessages (rendered : String) (history : List Message) :
    Except MessageError (List Message) := do
  let turns ← turnsOf rendered.toList history
  let messages ← turns.mapM Turn.message?
  .ok (insertHistory (messages.filterMap id) history)

end Conversation

end PromptDoc
