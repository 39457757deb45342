import PromptDoc.Template.Filter
import PromptDoc.Template.Function
import PromptDoc.Template.Operator

/-!
# Evaluating templates

Expressions have values, nodes put text out. Names are looked up in the scopes of the enclosing
loops, then in the root, and then among the functions. What is assigned stays in the scope it is
assigned in; an embedded template shares the scope of the place it is embedded at. A template that
embeds itself without end fails.
-/

namespace PromptDoc.Template

/-- What a template is evaluated in. -/
structure Surroundings where
  functions : OrderedMap Function
  templates : OrderedMap (List Node)
  root : Value

/-- The variables of a loop, or of the template as a whole. -/
abbrev Scope := OrderedMap Value

namespace Expr

/-- The value of a literal. -/
def ofLiteral : Literal → Value
  | .null => .null
  | .bool b => .bool b
  | .int n => .int n
  | .float bits => .float bits
  | .string s => .string s

/-- Look a name up. The innermost scope comes first. -/
def lookup (c : Surroundings) (scopes : List Scope) (name : String) : Value :=
  match (scopes.findSome? fun s ↦ s.get? name).or (c.root.attribute? name) with
  | some v => v
  | none => if c.functions.contains name then .function name else .undefined

/-- A part of a value: nothing has parts if it is undefined, and a missing part is undefined. -/
def part (v : Value) (found : Option Value) : Option Value :=
  match v with
  | .undefined => none
  | _ => some (found.getD .undefined)

/-- Call a value. -/
def callValue (c : Surroundings) (f : Value) (a : Arguments) : Option Value :=
  match f with
  | .function k => (c.functions.get? k).bind fun f ↦ f.call a
  | _ => none

mutual

/-- The value of an expression; `none` is an error. -/
def eval (c : Surroundings) (scopes : List Scope) : Expr → Option Value
  | .literal l => some (ofLiteral l)
  | .name n => some (lookup c scopes n)
  | .list items => (evalAll c scopes items).map .list
  | .map entries => (evalEntries c scopes entries).map .ofEntries
  | .attribute e k => do
    let v ← eval c scopes e
    part v (v.attribute? k)
  | .item e index => do
    let v ← eval c scopes e
    let i ← eval c scopes index
    part v (v.item? i)
  | .call f arguments named => do
    let f ← eval c scopes f
    let values ← evalAll c scopes arguments
    let named ← evalNamed c scopes named
    callValue c f ⟨values, named.reverse⟩
  | .filter k e arguments named => do
    let v ← eval c scopes e
    let values ← evalAll c scopes arguments
    guard named.isEmpty
    let f ← Filter.ofName? k
    f v values
  | .negate e => (eval c scopes e).bind Value.negate?
  | .not e => do
    let v ← eval c scopes e
    some (.bool (!v.isTrue))
  | .both a b => do
    let v ← eval c scopes a
    if v.isTrue then eval c scopes b else some v
  | .either a b => do
    let v ← eval c scopes a
    if v.isTrue then some v else eval c scopes b
  | .binary op a b => do
    let v ← eval c scopes a
    let w ← eval c scopes b
    op.apply? v w
  | .choice condition yes no => do
    let v ← eval c scopes condition
    if v.isTrue then eval c scopes yes
    else match no with
      | some e => eval c scopes e
      | none => some .undefined

/-- The values of some expressions. -/
def evalAll (c : Surroundings) (scopes : List Scope) : List Expr → Option (List Value)
  | [] => some []
  | e :: es => do
    let v ← eval c scopes e
    let vs ← evalAll c scopes es
    some (v :: vs)

/-- The values of named arguments. -/
def evalNamed (c : Surroundings) (scopes : List Scope) :
    List (String × Expr) → Option (List (String × Value))
  | [] => some []
  | (k, e) :: es => do
    let v ← eval c scopes e
    let vs ← evalNamed c scopes es
    some ((k, v) :: vs)

/-- The values of the entries of a map. -/
def evalEntries (c : Surroundings) (scopes : List Scope) :
    List (Expr × Expr) → Option (List (Value × Value))
  | [] => some []
  | (k, e) :: es => do
    let key ← eval c scopes k
    let v ← eval c scopes e
    let vs ← evalEntries c scopes es
    some ((key, v) :: vs)

end

end Expr

/-- A template under evaluation. -/
structure Progress where
  /-- The scopes, the innermost first. -/
  scopes : List Scope
  /-- How many templates are embedded in one another. -/
  embedded : Nat := 0
  out : String := ""

/-- Evaluates something. -/
abbrev Run := StateT Progress Option

namespace Run

/-- How deep a template may nest. -/
def maxDepth : Nat := 500

/-- The depth of one embedded template. -/
def embedCost : Nat := 10

/-- Fail if a template nests too deep. -/
def checkDepth : Run Unit := do
  let p ← get
  guard (embedCost * p.embedded + p.scopes.length ≤ maxDepth)

/-- The value of an expression. -/
def value (c : Surroundings) (e : Expr) : Run Value := do e.eval c (← get).scopes

/-- Put a text out. -/
def put (s : String) : Run Unit := modify fun p ↦ { p with out := p.out ++ s }

/-- Assign a variable in the innermost scope. -/
def setName (name : String) (v : Value) : Run Unit := modify fun p ↦
  match p.scopes with
  | s :: rest => { p with scopes := s.insert name v :: rest }
  | [] => p

mutual

/-- Assign a value. Several targets take a value with as many items. -/
def assign (t : Target) (v : Value) : Run Unit :=
  match t with
  | .name n => setName n v
  | .unpack ts =>
    match v with
    | .list items => assignAll ts items
    | .map entries => assignAll ts (entries.map Prod.fst)
    | _ => failure

/-- Assign values in order. -/
def assignAll : List Target → List Value → Run Unit
  | [], [] => return
  | t :: ts, v :: vs => do
    assign t v
    assignAll ts vs
  | _, _ => failure

end

/-- Run something in a scope of its own. -/
def inScope {α : Type} (r : Run α) : Run α := do
  checkDepth
  modify fun p ↦ { p with scopes := ∅ :: p.scopes }
  let a ← r
  modify fun p ↦ { p with scopes := p.scopes.drop 1 }
  return a

/-- What a loop tells about itself at the item `n` of `length`. -/
def loopState (n length : Nat) : Value :=
  .ofEntries
    [(.string "index", .int (n + 1)), (.string "index0", .int n), (.string "length", .int length),
      (.string "revindex", .int (length - n)), (.string "revindex0", .int (length - n - 1)),
      (.string "first", .bool (n = 0)), (.string "last", .bool (n + 1 = length)),
      (.string "depth", .int 1), (.string "depth0", .int 0)]

/-- Run the body of a loop for each item. -/
def eachItem (t : Target) (body : Run Unit) (length : Nat) : Nat → List Value → Run Unit
  | _, [] => return
  | n, v :: vs => do
    setName "loop" (loopState n length)
    assign t v
    body
    eachItem t body length (n + 1) vs

/-- The items that a condition holds of. -/
def keepItems (c : Surroundings) (t : Target) (keep : Expr) : List Value → Run (List Value)
  | [] => return []
  | v :: vs => do
    assign t v
    let kept := (← value c keep).isTrue
    let rest ← keepItems c t keep vs
    return if kept then v :: rest else rest

/-- The nodes of the template to embed: a value names one, or several of which the first that there
is is taken. -/
def chosen? (c : Surroundings) (v : Value) : Option (Option (List Node)) := do
  let names := match v with
    | .list items => items
    | .map entries => entries.map Prod.fst
    | v => [v]
  choose names
where
  /-- The first template that there is. -/
  choose : List Value → Option (Option (List Node))
    | [] => some none
    | .string s :: rest =>
      match c.templates.get? s with
      | some nodes => some (some nodes)
      | none => choose rest
    | _ :: _ => none

/-- Whether a value that names templates names any. -/
def namesAny : Value → Bool
  | .list items => !items.isEmpty
  | .map entries => !entries.isEmpty
  | _ => true

mutual

/-- Run a node; `embed` runs an embedded template. -/
def node (c : Surroundings) (embed : List Node → Run Unit) : Node → Run Unit
  | .text s => put s
  | .output e => do put (← value c e).text
  | .branch condition yes no => do
    if (← value c condition).isTrue then nodes c embed yes else nodes c embed no
  | .loop t items keep body otherwise => do
    match (← value c items).items? with
    | none => failure
    | some vs =>
      let vs ← match keep with
        | some e => inScope (keepItems c t e vs)
        | none => pure vs
      inScope (eachItem t (nodes c embed body) vs.length 0 vs)
      if vs.isEmpty then nodes c embed otherwise
  | .assign t e => do assign t (← value c e)
  | .capture name body => do
    let before := (← get).out
    modify fun p ↦ { p with out := "" }
    nodes c embed body
    let text := (← get).out
    modify fun p ↦ { p with out := before }
    setName name (.string text)
  | .embed e optional => do
    let v ← value c e
    match ← chosen? c v with
    | some found => embed found
    | none => guard (optional || !namesAny v)

/-- Run some nodes. -/
def nodes (c : Surroundings) (embed : List Node → Run Unit) : List Node → Run Unit
  | [] => return
  | n :: ns => do
    node c embed n
    nodes c embed ns

end

/-- Run an embedded template, with `levels` more of them left. -/
def embedded (c : Surroundings) : (levels : Nat) → List Node → Run Unit
  | 0, _ => failure
  | levels + 1, ns => do
    modify fun p ↦ { p with embedded := p.embedded + 1 }
    checkDepth
    nodes c (embedded c levels) ns
    modify fun p ↦ { p with embedded := p.embedded - 1 }

/-- What a template puts out. -/
def render (c : Surroundings) (ns : List Node) : Option String := do
  let (_, p) ← (nodes c (embedded c (maxDepth / embedCost)) ns).run { scopes := [∅] }
  some p.out

end Run

end PromptDoc.Template
