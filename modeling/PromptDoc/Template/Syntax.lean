/-!
# Template syntax

Expressions and the nodes of a template. Tuples are lists; a keyword argument is named.
-/

namespace PromptDoc.Template

/-- A value that is written out. -/
inductive Literal where
  | null
  | bool (value : Bool)
  | int (value : Nat)
  | float (bits : UInt64)
  | string (value : String)
  deriving DecidableEq

/-- The operators that look at both sides. -/
inductive Operator where
  | add
  | subtract
  | multiply
  | divide
  | divideWhole
  | remainder
  | power
  | concat
  | equal
  | unequal
  | less
  | lessEqual
  | greater
  | greaterEqual
  | member
  deriving DecidableEq

/-- An expression. -/
inductive Expr where
  | literal (value : Literal)
  | name (name : String)
  | list (items : List Expr)
  | map (entries : List (Expr × Expr))
  /-- The attribute of a value. -/
  | attribute (of : Expr) (name : String)
  /-- The item of a value at an index or under a key. -/
  | item (of : Expr) (index : Expr)
  | call (function : Expr) (arguments : List Expr) (named : List (String × Expr))
  | filter (name : String) (of : Expr) (arguments : List Expr) (named : List (String × Expr))
  | negate (of : Expr)
  | not (of : Expr)
  | both (left right : Expr)
  | either (left right : Expr)
  | binary (operator : Operator) (left right : Expr)
  /-- One of two values by a condition; without a second the value is undefined. -/
  | choice (condition yes : Expr) (no : Option Expr)

/-- What is assigned to: a name, or several at once. -/
inductive Target where
  | name (name : String)
  | unpack (targets : List Target)

/-- A node of a template. -/
inductive Node where
  | text (text : String)
  | output (value : Expr)
  | branch (condition : Expr) (yes no : List Node)
  /-- A loop over the items that `keep` holds of, with what is done if there are none. -/
  | loop (target : Target) (items : Expr) (keep : Option Expr) (body otherwise : List Node)
  | assign (target : Target) (value : Expr)
  /-- Assign what some nodes put out. -/
  | capture (name : String) (body : List Node)
  | embed (name : Expr) (optional : Bool)

end PromptDoc.Template
