import PromptDoc.Decimal.Reader
import PromptDoc.Json.Reader
import PromptDoc.Text.Blank
import PromptDoc.Text.Split

/-!
# Template tokens

A template is text with tags in it. Tags that put something out stand in double braces, statements
in braces with percent signs, and comments in braces with hash signs. A dash at either end of a tag
trims the text beside it. Between the tags of a raw block everything is text. One line break at the
end of a template is dropped.
-/

namespace PromptDoc.Template

/-- A token. -/
inductive Token where
  | text (text : String)
  | outputStart
  | outputEnd
  | statementStart
  | statementEnd
  | name (name : String)
  | string (value : String)
  | int (value : Nat)
  | float (bits : UInt64)
  | symbol (symbol : String)
  deriving DecidableEq

/-- How a tag treats the text beside it. -/
inductive Control where
  | standard
  | trim
  | preserve
  deriving DecidableEq

/-- The kinds of tags. -/
inductive TagKind where
  | output
  | statement
  | comment
  deriving DecidableEq

namespace Token

/-- The control that a character asks for. -/
def controlOf : Option Char → Control
  | some '-' => .trim
  | some '+' => .preserve
  | _ => .standard

/-- A control at the front of a text, and the text behind it. -/
def readControl (cs : List Char) : Control × List Char :=
  match controlOf cs.head? with
  | .standard => (.standard, cs)
  | control => (control, cs.drop 1)

/-- White space between the tokens of a tag. -/
def isGap (c : Char) : Bool := c == ' ' || c == '\t' || c == '\n' || c == '\x0c' || c == '\r'

/-- The kind of the tag that two characters open. -/
def tagKind? : List Char → Option TagKind
  | '\x7b' :: '\x7b' :: _ => some .output
  | '\x7b' :: '%' :: _ => some .statement
  | '\x7b' :: '#' :: _ => some .comment
  | _ => none

/-- The text before the first tag, the kind of the tag and the text behind its two characters. -/
def findTag : List Char → Option (List Char × TagKind × List Char)
  | [] => none
  | c :: cs =>
    match tagKind? (c :: cs) with
    | some kind => some ([], kind, cs.drop 1)
    | none => (findTag cs).map fun r ↦ (c :: r.1, r.2)

/-- The text before the first place where a text begins with `mark`, and the text behind it. -/
def cutAt? (mark : List Char) : List Char → Option (List Char × List Char)
  | [] => none
  | c :: cs =>
    match Text.after? mark (c :: cs) with
    | some rest => some ([], rest)
    | none => (cutAt? mark cs).map fun r ↦ (c :: r.1, r.2)

/-- Read the rest of a tag that holds a word only: the word, a control and the end. -/
def wordTag? (word : String) (cs : List Char) : Option (Control × List Char) := do
  let rest ← Text.after? word.toList (cs.dropWhile isGap)
  let (control, rest) := readControl (rest.dropWhile isGap)
  let rest ← Text.after? ['%', '\x7d'] rest
  some (control, rest)

/-- Read the rest of a raw block: its text with the control at the text's end, the control behind
the block and the text behind it. -/
def rawBlock? : Nat → List Char → Option (List Char × Control × Control × List Char)
  | 0, _ => none
  | fuel + 1, cs => do
    let (before, rest) ← cutAt? ['\x7b', '%'] cs
    match wordTag? "endraw" (readControl rest).2 with
    | some (control, behind) => some (before, controlOf rest.head?, control, behind)
    | none =>
      let (more, r) ← rawBlock? fuel rest
      some (before ++ '\x7b' :: '%' :: more, r)

/-- Read the rest of a string up to its quote, with its escapes as they are. -/
def stringBody (quote : Char) : List Char → Option (List Char × List Char)
  | [] => none
  | '\\' :: c :: cs => (stringBody quote cs).map fun r ↦ ('\\' :: c :: r.1, r.2)
  | c :: cs =>
    if c = quote then some ([], cs) else (stringBody quote cs).map fun r ↦ (c :: r.1, r.2)

/-- The text that a string with escapes stands for. -/
def unescape : Nat → List Char → Option (List Char)
  | 0, _ => none
  | _ + 1, [] => some []
  | fuel + 1, '\\' :: 'u' :: cs => do
    let (c, rest) ← Json.readUnicode cs
    (unescape fuel rest).map (c :: ·)
  | fuel + 1, '\\' :: c :: cs => do
    let c ← if c = '\'' then some c else Json.escape? c
    (unescape fuel cs).map (c :: ·)
  | fuel + 1, c :: cs => (unescape fuel cs).map (c :: ·)

/-- How far a number has been read. -/
inductive NumberPart where
  | radix (hex : Bool)
  | whole
  | fraction
  | exponent
  | exponentDigits
  deriving DecidableEq

/-- The part that a character continues or begins. -/
def NumberPart.next? (p : NumberPart) (c : Char) : Option NumberPart :=
  if c == '_' then some p
  else if c.isDigit then some (if p = .exponent then .exponentDigits else p)
  else if p = .whole && c == '.' then some .fraction
  else if (p = .whole || p = .fraction) && (c == 'e' || c == 'E') then some .exponent
  else if p = .exponent && (c == '+' || c == '-') then some .exponentDigits
  else if p = .radix true && (Json.hexDigit? c).isSome then some p
  else none

/-- The characters of a number, its last part and the text behind it. -/
def numberChars (p : NumberPart) : List Char → List Char × NumberPart × List Char
  | [] => ([], p, [])
  | c :: cs =>
    match p.next? c with
    | some q =>
      let (taken, r) := numberChars q cs
      (c :: taken, r)
    | none => ([], p, c :: cs)

/-- The number that digits of a base write. -/
def natural? (base : Nat) (cs : List Char) : Option Nat :=
  if cs.isEmpty then none
  else cs.foldlM (fun n c ↦ ((Json.hexDigit? c).filter (· < base)).map (n * base + ·)) 0

/-- The base of a number by its first two characters. -/
def numberBase : List Char → Nat
  | '0' :: c :: _ =>
    if c == 'b' || c == 'B' then 2 else if c == 'o' || c == 'O' then 8
    else if c == 'x' || c == 'X' then 16 else 10
  | _ => 10

/-- Read a number at the front of a text. Digits may be grouped by `_`; a whole number fits in 128
bits. -/
def number? (cs : List Char) : Option (Token × List Char) := do
  let base := numberBase cs
  let (taken, part, rest) :=
    if base = 10 then numberChars .whole cs else numberChars (.radix (base = 16)) (cs.drop 2)
  guard (taken.getLast? ≠ some '_')
  let digits := taken.filter (· ≠ '_')
  if part = .whole || part = .radix (base = 16) then
    let n ← natural? base digits
    guard (n < Decimal.pow2 128)
    some (.int n, rest)
  else
    let bits ← Decimal.read? digits
    some (.float bits, rest)

/-- The symbols of two characters, and then those of one. -/
def symbols : List String :=
  ["//", "**", "==", "!=", ">=", "<=", "+", "-", "*", "/", "%", ".", ",", ":", "~", "=", "|", ">",
    "<", "(", ")", "[", "]", "\x7b", "\x7d"]

/-- Read a symbol at the front of a text. -/
def symbol? (cs : List Char) : Option (String × List Char) :=
  symbols.findSome? fun s ↦ (Text.after? s.toList cs).map fun rest ↦ (s, rest)

/-- How a symbol changes the number of open brackets. -/
def bracketChange (s : String) : Int :=
  if ["(", "[", "\x7b"].contains s then 1 else if [")", "]", "\x7d"].contains s then -1 else 0

/-- Whether a character continues a name. -/
def isNameChar (c : Char) : Bool := c == '_' || c.isAlphanum

/-- Read a token inside a tag at the front of a text. -/
def one? (cs : List Char) : Option (Token × List Char) :=
  match cs with
  | [] => none
  | c :: rest =>
    if c == '\'' || c == '"' then do
      let (body, rest) ← stringBody c rest
      let s ← unescape (body.length + 1) body
      some (.string (String.ofList s), rest)
    else if c.isDigit then number? cs
    else if c == '_' || c.isAlpha then
      some (.name (String.ofList (cs.takeWhile isNameChar)), cs.dropWhile isNameChar)
    else (symbol? cs).map fun r ↦ (.symbol r.1, r.2)

/-- The two characters that close a tag. -/
def closing : TagKind → List Char
  | .output => ['\x7d', '\x7d']
  | .statement => ['%', '\x7d']
  | .comment => ['#', '\x7d']

/-- The control at the end of a tag and the text behind it, if a text begins with such an end. -/
def tagEnd? (kind : TagKind) (cs : List Char) : Option (Control × List Char) :=
  match Text.after? (closing kind) (readControl cs).2 with
  | some rest => some ((readControl cs).1, rest)
  | none => none

/-- Read the tokens of a tag to its end, which is not looked for inside brackets. Gives the control
at the end and the text behind it. -/
def tagTokens (kind : TagKind) :
    Nat → (depth : Int) → List Char → Option (List Token × Control × List Char)
  | 0, _, _ => none
  | fuel + 1, depth, cs =>
    let cs := cs.dropWhile isGap
    match if depth = 0 then tagEnd? kind cs else none with
    | some (control, rest) => some ([], control, rest)
    | none => do
      let (t, rest) ← one? cs
      let change := match t with
        | .symbol s => bracketChange s
        | _ => 0
      let (ts, r) ← tagTokens kind fuel (depth + change) rest
      some (t :: ts, r)

/-- The token of a text, unless it is empty. -/
def ofLead (cs : List Char) : List Token :=
  if cs.isEmpty then [] else [.text (String.ofList cs)]

/-- Read all tokens. `trim` asks to trim the front of the text. -/
def read : Nat → (trim : Bool) → List Char → Option (List Token)
  | 0, _, _ => none
  | fuel + 1, trim, cs => do
    let cs := if trim then cs.dropWhile Text.isBlank else cs
    match findTag cs with
    | none => some (ofLead cs)
    | some (lead, kind, inside) =>
      let (control, body) := readControl inside
      let lead := ofLead (if control = .trim then Text.trimEndBy Text.isBlank lead else lead)
      match kind with
      | .comment =>
        let (comment, rest) ← cutAt? (closing .comment) body
        return lead ++ (← read fuel (controlOf comment.getLast? = .trim) rest)
      | .output =>
        let (ts, last, rest) ← tagTokens .output (body.length + 1) 0 body
        return lead ++ .outputStart :: ts ++ .outputEnd :: (← read fuel (last = .trim) rest)
      | .statement =>
        match wordTag? "raw" body with
        | some (front, block) =>
          let (raw, back, last, rest) ← rawBlock? (block.length + 1) block
          let raw := if front = .trim then raw.dropWhile Text.isBlank else raw
          let raw := if back = .trim then Text.trimEndBy Text.isBlank raw else raw
          return lead ++ ofLead raw ++ (← read fuel (last = .trim) rest)
        | none =>
          let (ts, last, rest) ← tagTokens .statement (body.length + 1) 0 body
          return lead ++ .statementStart :: ts ++ .statementEnd ::
            (← read fuel (last = .trim) rest)

/-- The tokens of a template. -/
def ofText? (source : String) : Option (List Token) :=
  let cs := Text.stripEnd '\r' (Text.stripEnd '\n' source.toList)
  read (cs.length + 1) false cs

end Token

end PromptDoc.Template
