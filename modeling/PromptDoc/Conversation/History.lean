import PromptDoc.Message

/-!
# Earlier messages

Putting the earlier messages of a conversation among new ones. The earlier messages are tagged, and
where a tagged message stands already nothing is put in, so that they appear once.
-/

namespace PromptDoc.Conversation

/-- Whether a conversation holds messages taken over from its history. -/
def hasHistory (messages : List Message) : Bool := messages.any Message.isHistory

/-- Put a block right before the last message if that is the user's, else at the end. -/
def splice (messages block : List Message) : List Message :=
  match messages.getLast? with
  | some last =>
    if last.role = .user then messages.dropLast ++ block ++ [last] else messages ++ block
  | none => block

/-- Put earlier messages into a conversation, unless some are there already. Specification §4.4 and
§8, `insertHistory`. -/
def insertHistory (messages history : List Message) : List Message :=
  if history.isEmpty || hasHistory messages then messages
  else splice messages (history.map Message.asHistory)

end PromptDoc.Conversation
