import PromptDoc.Template.Syntax
import PromptDoc.Template.Token

/-!
# Parsing templates

From tokens to nodes. The levels of an expression, the weakest first: a choice by `if`, `or`, `and`,
`not`, comparisons, sums, concatenations, products, powers, signs, and filters. Operators of one
level group to the left.
-/

namespace PromptDoc.Template

/-- Parses something off the tokens. -/
abbrev Parsing := StateT (List Token) Option

namespace Parsing

/-- The next token. -/
def peek : Parsing (Option Token) := do return (← get).head?

/-- Leave the next token behind. -/
def skip : Parsing Unit := modify (·.drop 1)

/-- Leave the next token behind if it is the given one. -/
def accept (t : Token) : Parsing Bool := do
  if (← peek) = some t then
    skip
    return true
  else return false

/-- Leave the next token behind, which must be the given one. -/
def expect (t : Token) : Parsing Unit := do guard (← accept t)

/-- Leave a symbol behind if it is the next token. -/
def acceptSymbol (s : String) : Parsing Bool := accept (.symbol s)

/-- Leave a symbol behind. -/
def expectSymbol (s : String) : Parsing Unit := expect (.symbol s)

/-- Leave a word behind if it is the next token. -/
def acceptWord (s : String) : Parsing Bool := accept (.name s)

/-- Whether the next token is one of some words. -/
def at? (words : List String) : Parsing Bool := do
  match ← peek with
  | some (.name s) => return words.contains s
  | _ => return false

/-- Read a name. -/
def identifier : Parsing String := do
  match ← peek with
  | some (.name s) =>
    skip
    return s
  | _ => failure

/-- The operators of sums. -/
def sumOperator : Token → Option Operator
  | .symbol "+" => some .add
  | .symbol "-" => some .subtract
  | _ => none

/-- The operators of concatenations. -/
def concatOperator : Token → Option Operator
  | .symbol "~" => some .concat
  | _ => none

/-- The operators of products. -/
def productOperator : Token → Option Operator
  | .symbol "*" => some .multiply
  | .symbol "/" => some .divide
  | .symbol "//" => some .divideWhole
  | .symbol "%" => some .remainder
  | _ => none

/-- The operators of powers. -/
def powerOperator : Token → Option Operator
  | .symbol "**" => some .power
  | _ => none

/-- The operators of comparisons. -/
def comparisonOperator : Token → Option Operator
  | .symbol "==" => some .equal
  | .symbol "!=" => some .unequal
  | .symbol "<" => some .less
  | .symbol "<=" => some .lessEqual
  | .symbol ">" => some .greater
  | .symbol ">=" => some .greaterEqual
  | .name "in" => some .member
  | _ => none

/-- Read the operators of a level with their right operands behind a left operand. -/
def chain (operator : Token → Option Operator) (operand : Parsing Expr) : Nat → Expr → Parsing Expr
  | 0, _ => failure
  | fuel + 1, left => do
    match (← peek).bind operator with
    | some op =>
      skip
      let right ← operand
      chain operator operand fuel (.binary op left right)
    | none => return left

/-- Read the operands behind a word and join them to a left operand. -/
def joined (word : String) (join : Expr → Expr → Expr) (operand : Parsing Expr) :
    Nat → Expr → Parsing Expr
  | 0, _ => failure
  | fuel + 1, left => do
    if ← acceptWord word then
      let right ← operand
      joined word join operand fuel (join left right)
    else return left

/-- Read comparisons behind a left operand. -/
def comparisons (operand : Parsing Expr) : Nat → Expr → Parsing Expr
  | 0, _ => failure
  | fuel + 1, left => do
    if ← acceptWord "not" then
      guard (← acceptWord "in")
      let right ← operand
      comparisons operand fuel (.not (.binary .member left right))
    else
      match (← peek).bind comparisonOperator with
      | some op =>
        skip
        let right ← operand
        comparisons operand fuel (.binary op left right)
      | none => return left

mutual

/-- Read an expression. -/
def expression : Nat → Parsing Expr
  | 0 => failure
  | fuel + 1 => do
    let value ← disjunction fuel
    choices fuel value

/-- Read the conditions behind a value. -/
def choices : Nat → Expr → Parsing Expr
  | 0, _ => failure
  | fuel + 1, value => do
    if ← acceptWord "if" then
      let condition ← disjunction fuel
      let no ← if ← acceptWord "else" then some <$> expression fuel else pure none
      choices fuel (.choice condition value no)
    else return value

/-- Read an expression without conditions. -/
def disjunction : Nat → Parsing Expr
  | 0 => failure
  | fuel + 1 => do joined "or" .either (conjunction fuel) (fuel + 1) (← conjunction fuel)

/-- Read operands of `or`. -/
def conjunction : Nat → Parsing Expr
  | 0 => failure
  | fuel + 1 => do joined "and" .both (negation fuel) (fuel + 1) (← negation fuel)

/-- Read operands of `and`. -/
def negation : Nat → Parsing Expr
  | 0 => failure
  | fuel + 1 => do
    if ← acceptWord "not" then .not <$> negation fuel
    else comparisons (sum fuel) (fuel + 1) (← sum fuel)

/-- Read operands of comparisons. -/
def sum : Nat → Parsing Expr
  | 0 => failure
  | fuel + 1 => do chain sumOperator (concatenation fuel) (fuel + 1) (← concatenation fuel)

/-- Read operands of sums. -/
def concatenation : Nat → Parsing Expr
  | 0 => failure
  | fuel + 1 => do chain concatOperator (product fuel) (fuel + 1) (← product fuel)

/-- Read operands of concatenations. -/
def product : Nat → Parsing Expr
  | 0 => failure
  | fuel + 1 => do chain productOperator (power fuel) (fuel + 1) (← power fuel)

/-- Read operands of products. -/
def power : Nat → Parsing Expr
  | 0 => failure
  | fuel + 1 => do chain powerOperator (filtered fuel) (fuel + 1) (← filtered fuel)

/-- Read a value with its signs, what is taken of it, and its filters. -/
def filtered : Nat → Parsing Expr
  | 0 => failure
  | fuel + 1 => do
    let value ← signed fuel
    let value ← taken fuel value
    filters fuel value

/-- Read a value with its signs. -/
def signed : Nat → Parsing Expr
  | 0 => failure
  | fuel + 1 => do
    if ← acceptSymbol "-" then .negate <$> signed fuel
    else primary fuel

/-- Read the attributes, items and calls behind a value. -/
def taken : Nat → Expr → Parsing Expr
  | 0, _ => failure
  | fuel + 1, value => do
    if ← acceptSymbol "." then
      let name ← identifier
      taken fuel (.attribute value name)
    else if ← acceptSymbol "[" then
      let index ← expression fuel
      expectSymbol "]"
      taken fuel (.item value index)
    else if ← acceptSymbol "(" then
      let (arguments, named) ← arguments true fuel
      taken fuel (.call value arguments named)
    else return value

/-- Read the filters behind a value. -/
def filters : Nat → Expr → Parsing Expr
  | 0, _ => failure
  | fuel + 1, value => do
    if ← acceptSymbol "|" then
      let name ← identifier
      let (arguments, named) ← if ← acceptSymbol "(" then arguments true fuel else pure ([], [])
      filters fuel (.filter name value arguments named)
    else return value

/-- Read arguments up to the closing bracket, the named ones last. -/
def arguments (first : Bool) : Nat → Parsing (List Expr × List (String × Expr))
  | 0 => failure
  | fuel + 1 => do
    if ← acceptSymbol ")" then return ([], [])
    else
      unless first do expectSymbol ","
      if ← acceptSymbol ")" then return ([], [])
      else
        let value ← expression fuel
        match value with
        | .name k =>
          if ← acceptSymbol "=" then
            let value ← disjunction fuel
            let (values, named) ← arguments false fuel
            guard values.isEmpty
            return ([], (k, value) :: named)
          else
            let (values, named) ← arguments false fuel
            return (value :: values, named)
        | _ =>
          let (values, named) ← arguments false fuel
          return (value :: values, named)

/-- Read a literal, a name, a list, a map or an expression in brackets. -/
def primary : Nat → Parsing Expr
  | 0 => failure
  | fuel + 1 => do
    let t ← peek
    skip
    match t with
    | some (.name "true") | some (.name "True") => return .literal (.bool true)
    | some (.name "false") | some (.name "False") => return .literal (.bool false)
    | some (.name "none") | some (.name "None") => return .literal .null
    | some (.name s) => return .name s
    | some (.string s) => return .literal (.string s)
    | some (.int n) => return .literal (.int n)
    | some (.float bits) => return .literal (.float bits)
    | some (.symbol "[") => .list <$> items "]" true fuel
    | some (.symbol "\x7b") => .map <$> entries true fuel
    | some (.symbol "(") =>
      if ← acceptSymbol ")" then return .list []
      else
        let value ← expression fuel
        if ← acceptSymbol "," then
          return .list (value :: (← items ")" true fuel))
        else
          expectSymbol ")"
          return value
    | _ => failure

/-- Read items up to a closing bracket. -/
def items (closing : String) (first : Bool) : Nat → Parsing (List Expr)
  | 0 => failure
  | fuel + 1 => do
    if ← acceptSymbol closing then return []
    else
      unless first do expectSymbol ","
      if ← acceptSymbol closing then return []
      else
        let value ← expression fuel
        return value :: (← items closing false fuel)

/-- Read the entries of a map up to its closing brace. -/
def entries (first : Bool) : Nat → Parsing (List (Expr × Expr))
  | 0 => failure
  | fuel + 1 => do
    if ← acceptSymbol "\x7d" then return []
    else
      unless first do expectSymbol ","
      if ← acceptSymbol "\x7d" then return []
      else
        let key ← expression fuel
        expectSymbol ":"
        let value ← expression fuel
        return (key, value) :: (← entries false fuel)

end

/-- The names that nothing can be assigned to. -/
def reservedNames : List String :=
  ["true", "True", "false", "False", "none", "None", "loop", "self"]

/-- Read a name to assign to. -/
def assignable : Parsing String := do
  let name ← identifier
  guard (!reservedNames.contains name)
  return name

/-- Whether a token ends a list of targets. -/
def endsTargets : Token → Bool
  | .symbol ")" | .outputEnd | .statementEnd | .name "in" => true
  | _ => false

mutual

/-- Read what is assigned to. -/
def target : Nat → Parsing Target
  | 0 => failure
  | fuel + 1 => do
    match ← targets true fuel with
    | ([t], false) => return t
    | (ts, _) => return .unpack ts

/-- Read targets with commas between them, and whether there was a comma. -/
def targets (first : Bool) : Nat → Parsing (List Target × Bool)
  | 0 => failure
  | fuel + 1 => do
    if (← peek).any endsTargets then return ([], false)
    else
      let t ←
        if ← acceptSymbol "(" then
          let t ← target fuel
          expectSymbol ")"
          pure t
        else Target.name <$> assignable
      if ← acceptSymbol "," then
        let (ts, _) ← targets false fuel
        return (t :: ts, true)
      else return ([t], !first)

end

mutual

/-- Read nodes up to the end, or up to a statement that begins with one of some words; its opening
is left behind. -/
def nodes (ends : List String) : Nat → Parsing (List Node)
  | 0 => failure
  | fuel + 1 => do
    match ← peek with
    | none => return []
    | some (.text s) =>
      skip
      return .text s :: (← nodes ends fuel)
    | some .outputStart =>
      skip
      let value ← expression fuel
      expect .outputEnd
      return .output value :: (← nodes ends fuel)
    | some .statementStart =>
      skip
      match ← peek with
      | some (.name word) =>
        if ends.contains word then return []
        else
          skip
          let n ← statement word fuel
          expect .statementEnd
          return n :: (← nodes ends fuel)
      | _ => failure
    | some _ => failure

/-- Read a statement behind its word. -/
def statement (word : String) : Nat → Parsing Node
  | 0 => failure
  | fuel + 1 => do
    if word = "if" then branch fuel
    else if word = "for" then
      let t ← target fuel
      guard (← acceptWord "in")
      let values ← disjunction fuel
      let keep ← if ← acceptWord "if" then some <$> expression fuel else pure none
      expect .statementEnd
      let body ← nodes ["endfor", "else"] fuel
      let otherwise ←
        if ← acceptWord "else" then
          expect .statementEnd
          nodes ["endfor"] fuel
        else pure []
      skip
      return .loop t values keep body otherwise
    else if word = "set" then
      if ← acceptSymbol "(" then
        let t ← target fuel
        expectSymbol ")"
        expectSymbol "="
        return .assign t (← expression fuel)
      else
        let name ← assignable
        if ← accept .statementEnd then
          let body ← nodes ["endset"] fuel
          skip
          return .capture name body
        else
          expectSymbol "="
          return .assign (.name name) (← expression fuel)
    else if word = "include" then
      let name ← expression fuel
      contextWords
      if ← acceptWord "ignore" then
        guard (← acceptWord "missing")
        contextWords
        return .embed name true
      else return .embed name false
    else failure

/-- Read the words that say whether the context is passed on, which it always is. -/
def contextWords : Parsing Unit := do
  if ← at? ["with", "without"] then
    skip
    guard (← acceptWord "context")

/-- Read a branch behind its word. -/
def branch : Nat → Parsing Node
  | 0 => failure
  | fuel + 1 => do
    let condition ← expression fuel
    expect .statementEnd
    let yes ← nodes ["endif", "else", "elif"] fuel
    if ← acceptWord "else" then
      expect .statementEnd
      let no ← nodes ["endif"] fuel
      skip
      return .branch condition yes no
    else if ← acceptWord "elif" then
      let no ← branch fuel
      return .branch condition yes [no]
    else
      skip
      return .branch condition yes []

end

end Parsing

/-- The nodes of a template. -/
def parse? (source : String) : Option (List Node) := do
  let ts ← Token.ofText? source
  let (nodes, rest) ← (Parsing.nodes [] (16 * ts.length + 16)).run ts
  guard rest.isEmpty
  some nodes

end PromptDoc.Template
