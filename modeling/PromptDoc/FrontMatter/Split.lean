import PromptDoc.Text.Blank
import PromptDoc.Text.Split

/-!
# Finding front matter

Front matter stands at the very start of a document, between two fences. A fence is `---`, any white
space and a line break; the closing one follows a line break. White space may cross lines: of the
places where the opening fence can end the last is taken that lets a closing fence be found, and the
closing fence is the first one and takes all the white space it can.
-/

namespace PromptDoc.FrontMatter

/-- What a document begins with. -/
inductive Split where
  /-- Fenced text and the text behind it. -/
  | present (inner body : List Char)
  /-- Two fences with nothing between them. -/
  | empty (body : List Char)
  /-- No front matter. -/
  | absent
  deriving DecidableEq

/-- The dashes of a fence. -/
def dashes : List Char := ['-', '-', '-']

/-- Where a fence can end in the text behind its dashes: behind each line break of the leading white
space, the last first. -/
def fenceEnds : List Char → List (List Char)
  | [] => []
  | c :: cs =>
    if Text.isBlank c then fenceEnds cs ++ (if Text.isBreak c then [cs] else []) else []

/-- The text behind a fence that takes all the white space it can. -/
def afterFence? (cs : List Char) : Option (List Char) :=
  (Text.after? dashes cs).bind fun rest ↦ (fenceEnds rest).head?

/-- The text behind a line break and a fence. -/
def afterClosing? : List Char → Option (List Char)
  | '\r' :: '\n' :: rest => afterFence? rest
  | '\r' :: rest => afterFence? rest
  | '\n' :: rest => afterFence? rest
  | _ => none

/-- The text before the first closing fence and the text behind it. -/
def untilClosing : List Char → Option (List Char × List Char)
  | [] => none
  | c :: cs =>
    match afterClosing? (c :: cs) with
    | some body => some ([], body)
    | none => (untilClosing cs).map fun p ↦ (c :: p.1, p.2)

/-- Split a document at its front matter. Specification §4.2. -/
def split (source : List Char) : Split :=
  match Text.after? dashes source with
  | none => .absent
  | some rest =>
    let starts := fenceEnds rest
    match starts.findSome? untilClosing with
    | some ([], body) => .empty body
    | some (inner, body) => .present inner body
    | none =>
      match starts.findSome? afterFence? with
      | some body => .empty body
      | none => .absent

end PromptDoc.FrontMatter
