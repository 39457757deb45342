import PromptDoc.Json.Value

/-!
# Reading and writing records as JSON

A record is written as an object whose entries stand in a fixed order, with an absent field left
out. Reading looks each field up by its key, so that the order and unknown keys do not matter.
-/

namespace PromptDoc.Json

variable {α : Type}

/-- The entry of a field that is always written. -/
def entry (k : String) (v : Value) : List (String × Value) := [(k, v)]

/-- The entry of a field that is left out when absent. -/
def entryGiven (k : String) (v : Option Value) : List (String × Value) :=
  match v with
  | some v => [(k, v)]
  | none => []

/-- The entry of a field that is left out when it is empty. -/
def entryUnless (isEmpty : Bool) (k : String) (v : Value) : List (String × Value) :=
  if isEmpty then [] else [(k, v)]

/-- The fields of a record: the entries of an object, or an array that gives the fields of the
names in their order, of which the last ones may be missing. -/
def record? (names : List String) : Value → Option (List (String × Value))
  | .object fields => some fields
  | .array items => if items.length ≤ names.length then some (names.zip items) else none
  | _ => none

/-- Read a field that must be given. A missing one reads as `null`. -/
def required? (read : Value → Option α) (k : String) (fields : List (String × Value)) : Option α :=
  read ((OrderedMap.find? k fields).getD .null)

/-- Read a field that may be missing or `null`. -/
def optional? (read : Value → Option α) (k : String) (fields : List (String × Value)) :
    Option (Option α) :=
  match OrderedMap.find? k fields with
  | none | some .null => some none
  | some v => (read v).map some

/-- Read a field that may be missing but not `null`. -/
def defaulted? (read : Value → Option α) (missing : α) (k : String)
    (fields : List (String × Value)) : Option α :=
  match OrderedMap.find? k fields with
  | none => some missing
  | some v => read v

/-- Read an array item by item. -/
def list? (read : Value → Option α) (v : Value) : Option (List α) := do
  (← v.items?).mapM read

/-- Read a natural number below `bound`. -/
def natBelow? (bound : Nat) : Value → Option Nat
  | .number (.int n) => if 0 ≤ n ∧ n < bound then some n.toNat else none
  | _ => none

/-- Read a boolean. -/
def bool? : Value → Option Bool
  | .bool b => some b
  | _ => none

/-- The entries of an object. -/
def entries? : Value → Option (List (String × Value))
  | .object fields => some fields
  | _ => none

end PromptDoc.Json
