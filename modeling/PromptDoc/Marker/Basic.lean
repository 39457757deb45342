import PromptDoc.Text.Split

/-!
# Markers

A rendered text carries its structure in markers: where a turn of some role begins, where earlier
messages go, where a media reference stands, and where a named section is still to be filled in. A
marker is written `<<<dotprompt:…>>>`; nothing escapes one.
-/

namespace PromptDoc

/-- A marker. `media` and `placeholder` keep what is written behind their kind as it stands.
Specification §6, the marker protocol. -/
inductive Marker where
  | role (name : List Char)
  | history
  | media (arguments : List Char)
  | placeholder (arguments : List Char)
  deriving DecidableEq

namespace Marker

/-- What every marker begins with. -/
def opening : List Char := ['<', '<', '<', 'd', 'o', 't', 'p', 'r', 'o', 'm', 'p', 't', ':']

/-- What every marker ends with. -/
def closing : List Char := ['>', '>', '>']

/-- The beginning of a role marker, up to the name. -/
def roleLead : List Char := opening ++ ['r', 'o', 'l', 'e', ':']

/-- The history marker less its closing. -/
def historyLead : List Char := opening ++ ['h', 'i', 's', 't', 'o', 'r', 'y']

/-- The beginning of a media marker, up to its arguments. -/
def mediaLead : List Char := opening ++ ['m', 'e', 'd', 'i', 'a', ':', 'u', 'r', 'l']

/-- The beginning of a section marker, up to its arguments. -/
def placeholderLead : List Char := opening ++ ['s', 'e', 'c', 't', 'i', 'o', 'n']

/-- The marker less its closing. -/
def body : Marker → List Char
  | role name => roleLead ++ name
  | history => historyLead
  | media arguments => mediaLead ++ arguments
  | placeholder arguments => placeholderLead ++ arguments

/-- The written marker. -/
def text (m : Marker) : List Char := m.body ++ closing

/-- The written marker, as a string. -/
def toString (m : Marker) : String := String.ofList m.text

/-- The marker that begins a turn. -/
def ofRole (name : String) : Marker := .role name.toList

/-- The marker of a named section. -/
def ofSection (name : String) : Marker := .placeholder (' ' :: name.toList)

/-- The marker of a media reference. An empty content type is not written. -/
def ofMedia (url : String) (contentType : Option String) : Marker :=
  match contentType with
  | some kind =>
    if kind.isEmpty then .media (' ' :: url.toList)
    else .media (' ' :: url.toList ++ ' ' :: kind.toList)
  | none => .media (' ' :: url.toList)

end Marker

end PromptDoc
