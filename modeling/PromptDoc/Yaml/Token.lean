import PromptDoc.Yaml.Text

/-!
# YAML tokens

The tokens of a YAML text. Indentation opens and closes block collections. What may be a key is
remembered until a colon on its line makes it one; the tokens that make it a key are then put in
front of it.
-/

namespace PromptDoc.Yaml

/-- A token. -/
inductive Token where
  | versionDirective (major minor : Nat)
  | tagDirective (handle start : String)
  | documentStart
  | documentEnd
  | blockSequenceStart
  | blockMappingStart
  | blockEnd
  | flowSequenceStart
  | flowSequenceEnd
  | flowMappingStart
  | flowMappingEnd
  | blockEntry
  | flowEntry
  | key
  | value
  | alias (name : String)
  | anchor (name : String)
  | tag (handle suffix : String)
  | scalar (text : String) (plain : Bool)
  deriving DecidableEq

/-- A place where a key may have begun. -/
structure PossibleKey where
  /-- The number of tokens before it. -/
  position : Nat
  index : Nat
  line : Nat
  column : Nat
  /-- Whether nothing but a key can stand there. -/
  required : Bool

/-- A text on its way to tokens. -/
structure Lexer where
  cursor : Cursor
  tokens : Array Token := #[]
  /-- The column of the innermost block collection. -/
  indent : Int := -1
  /-- The columns of the block collections around it. -/
  outer : List Int := []
  /-- The possible key of the block level and of each flow level, the innermost first. -/
  keys : List (Option PossibleKey) := [none]
  /-- Whether a key may begin at the cursor. -/
  keyAllowed : Bool := true

namespace Lexer

/-- Whether the cursor is between brackets. -/
def inFlow (s : Lexer) : Bool := 1 < s.keys.length

/-- The lexer with a token added. -/
def emit (s : Lexer) (t : Token) : Lexer := { s with tokens := s.tokens.push t }

/-- The lexer with its cursor moved on by `n` characters. -/
def skip (s : Lexer) (n : Nat) : Lexer := { s with cursor := s.cursor.skip n }

/-- Skip white space, comments and line breaks. Where a key may begin tabs are not skipped. -/
def toNextToken : Nat → Lexer → Lexer
  | 0, s => s
  | fuel + 1, s =>
    let tabs := s.inFlow || !s.keyAllowed
    let c := s.cursor.skipWhile fun x ↦ x == ' ' || (tabs && x == '\t')
    let c := if c.peek? = some '#' then c.skipLine else c
    if c.peek?.any isLineBreak then
      toNextToken fuel { s with cursor := c.skipBreak, keyAllowed := s.keyAllowed || !s.inFlow }
    else { s with cursor := c }

/-- A possible key less those that the cursor has left behind: a key stands on one line and is not
longer than 1024 characters. -/
def freshKey? (c : Cursor) : Option PossibleKey → Option (Option PossibleKey)
  | none => some none
  | some k =>
    if k.line < c.line || k.index + 1024 < c.index then
      if k.required then none else some none
    else some (some k)

/-- Drop the possible keys that the cursor has left behind. -/
def dropStaleKeys (s : Lexer) : Option Lexer := do
  let keys ← s.keys.mapM (freshKey? s.cursor)
  some { s with keys }

/-- Give up the innermost possible key. -/
def removeKey (s : Lexer) : Option Lexer :=
  match s.keys with
  | some k :: keys => if k.required then none else some { s with keys := none :: keys }
  | _ => some s

/-- Remember that a key may begin at the cursor. -/
def saveKey (s : Lexer) : Option Lexer :=
  if !s.keyAllowed then some s
  else do
    let s ← s.removeKey
    let c := s.cursor
    let required := !s.inFlow && s.indent = c.column
    some { s with
      keys := some ⟨s.tokens.size, c.index, c.line, c.column, required⟩ :: s.keys.drop 1 }

/-- Close the block collections that are indented by more than `column`. -/
def unrollFrom (column : Int) : Int → List Int → Array Token → Int × List Int × Array Token
  | indent, [], tokens => (indent, [], tokens)
  | indent, o :: outer, tokens =>
    if column < indent then unrollFrom column o outer (tokens.push .blockEnd)
    else (indent, o :: outer, tokens)

/-- Close the block collections that end before `column`. Between brackets there are none. -/
def unroll (s : Lexer) (column : Int) : Lexer :=
  if s.inFlow then s
  else
    let (indent, outer, tokens) := unrollFrom column s.indent s.outer s.tokens
    { s with indent, outer, tokens }

/-- Open a block collection at a column that is deeper than the innermost one, with its token put
at a position. -/
def roll (s : Lexer) (column : Nat) (position : Nat) (t : Token) : Lexer :=
  if !s.inFlow && s.indent < column then
    { s with
      outer := s.indent :: s.outer
      indent := column
      tokens := s.tokens.insertIdxIfInBounds position t }
  else s

/-- Close everything at the end of a document or of the text. -/
def closeAll (s : Lexer) : Option Lexer := do
  let s ← (s.unroll (-1)).removeKey
  some { s with keyAllowed := false }

/-- A bracket that opens a flow collection. -/
def openFlow (s : Lexer) (t : Token) : Option Lexer := do
  let s ← s.saveKey
  some { (s.skip 1).emit t with keys := none :: s.keys, keyAllowed := true }

/-- A bracket that closes a flow collection. -/
def closeFlow (s : Lexer) (t : Token) : Option Lexer := do
  let s ← s.removeKey
  let keys := if s.inFlow then s.keys.drop 1 else s.keys
  some { (s.skip 1).emit t with keys, keyAllowed := false }

/-- A comma between brackets. -/
def flowEntry (s : Lexer) : Option Lexer := do
  let s ← s.removeKey
  some { (s.skip 1).emit .flowEntry with keyAllowed := true }

/-- The dash of an entry. -/
def blockEntry (s : Lexer) : Option Lexer := do
  guard (s.inFlow || s.keyAllowed)
  let s := s.roll s.cursor.column s.tokens.size .blockSequenceStart
  let s ← s.removeKey
  some { (s.skip 1).emit .blockEntry with keyAllowed := true }

/-- A question mark in front of a key. -/
def explicitKey (s : Lexer) : Option Lexer := do
  guard (s.inFlow || s.keyAllowed)
  let s := s.roll s.cursor.column s.tokens.size .blockMappingStart
  let s ← s.removeKey
  some { (s.skip 1).emit .key with keyAllowed := !s.inFlow }

/-- A colon in front of a value. -/
def value (s : Lexer) : Option Lexer :=
  match s.keys with
  | some k :: keys =>
    let s := { s with tokens := s.tokens.insertIdxIfInBounds k.position .key, keys := none :: keys }
    let s := s.roll k.column k.position .blockMappingStart
    some { (s.skip 1).emit .value with keyAllowed := false }
  | _ => do
    guard (s.inFlow || s.keyAllowed)
    let s := s.roll s.cursor.column s.tokens.size .blockMappingStart
    some { (s.skip 1).emit .value with keyAllowed := !s.inFlow }

/-- The name of an anchor or an alias behind its indicator. -/
def named (s : Lexer) (make : String → Token) : Option Lexer := do
  let s ← s.saveKey
  let (name, c) := (s.cursor.skip 1).takeWhile isWordChar
  guard (!name.isEmpty)
  guard (atGapOrEnd c.rest || c.peek?.any fun x ↦
    x == '?' || x == ':' || x == ',' || x == ']' || x == '\x7d' || x == '%' || x == '@' ||
      x == '\u0060')
  some { s.emit (make (String.ofList name)) with cursor := c, keyAllowed := false }

/-- Whether a character may stand in a tag; between angle brackets some more may. -/
def isTagChar (verbatim : Bool) (c : Char) : Bool :=
  isWordChar c || [';', '/', '?', ':', '@', '&', '=', '+', '$', '.', '%', '!', '~', '*', '\'', '(',
    ')'].contains c || (verbatim && [',', '[', ']'].contains c)

/-- The value of an escaped octet `%XX` at the front of a text. -/
def octet? : List Char → Option Nat
  | '%' :: a :: b :: _ => do
    let a ← hexValue? a
    let b ← hexValue? b
    some (a * 16 + b)
  | _ => none

/-- Read `n` more octets of an escaped character. -/
def moreOctets : Nat → Nat → List Char → Option Nat
  | 0, value, _ => some value
  | n + 1, value, cs => do
    let o ← octet? cs
    guard (0x80 ≤ o ∧ o < 0xC0)
    moreOctets n (value * 64 + (o - 0x80)) (cs.drop 3)

/-- The character that escaped octets spell, and the number of octets. -/
def escapedChar? (cs : List Char) : Option (Char × Nat) := do
  let o ← octet? cs
  let (width, value) ←
    if o < 0x80 then some (1, o)
    else if 0xC0 ≤ o ∧ o < 0xE0 then some (2, o - 0xC0)
    else if 0xE0 ≤ o ∧ o < 0xF0 then some (3, o - 0xE0)
    else if 0xF0 ≤ o ∧ o < 0xF8 then some (4, o - 0xF0)
    else none
  let value ← moreOctets (width - 1) value (cs.drop 3)
  some (Char.ofNat value, width)

/-- Read the characters of a tag. -/
def readTagText (verbatim : Bool) : Nat → List Char → Cursor → Option (List Char × Cursor)
  | 0, _, _ => none
  | fuel + 1, text, c =>
    match c.rest with
    | [] => some (text, c)
    | x :: _ =>
      if !isTagChar verbatim x then some (text, c)
      else if x == '%' then do
        let (char, width) ← escapedChar? c.rest
        readTagText verbatim fuel (text ++ [char]) (c.skip (3 * width))
      else readTagText verbatim fuel (text ++ [x]) (c.skip 1)

/-- Read a tag: its handle and its suffix. A tag without a second `!` belongs to the handle `!`, and
a lone `!` has no handle. -/
def readTag (c : Cursor) : Option (String × String × Cursor) :=
  match c.rest with
  | '!' :: '<' :: _ => do
    let c := c.skip 2
    let (text, c) ← readTagText true (c.rest.length + 1) [] c
    guard (!text.isEmpty && c.peek? = some '>')
    some ("", String.ofList text, c.skip 1)
  | '!' :: _ => do
    let (word, next) := (c.skip 1).takeWhile isWordChar
    if next.peek? = some '!' then
      let next := next.skip 1
      let (text, next) ← readTagText false (next.rest.length + 1) [] next
      guard !text.isEmpty
      some ("!" ++ String.ofList word ++ "!", String.ofList text, next)
    else
      let (text, next) ← readTagText false (next.rest.length + 1) word next
      if text.isEmpty then some ("", "!", next) else some ("!", String.ofList text, next)
  | _ => none

/-- A tag. -/
def tagToken (s : Lexer) : Option Lexer := do
  let s ← s.saveKey
  let (handle, suffix, c) ← readTag s.cursor
  guard (atGapOrEnd c.rest || (s.inFlow && c.peek? = some ','))
  some { s.emit (.tag handle suffix) with cursor := c, keyAllowed := false }

/-- A block scalar. -/
def blockScalar (s : Lexer) (literal : Bool) : Option Lexer := do
  let s ← s.removeKey
  let (text, c) ← readBlock literal s.indent (s.cursor.skip 1)
  some { s.emit (.scalar (String.ofList text) false) with cursor := c, keyAllowed := true }

/-- A quoted scalar. -/
def quotedScalar (s : Lexer) (single : Bool) : Option Lexer := do
  let s ← s.saveKey
  let c := s.cursor.skip 1
  let (text, c) ← readQuoted single (c.rest.length + 1) [] c
  some { s.emit (.scalar (String.ofList text) false) with cursor := c, keyAllowed := false }

/-- A plain scalar. A line break behind it lets a key begin. -/
def plainScalar (s : Lexer) : Option Lexer := do
  let s ← s.saveKey
  let c := s.cursor
  let (text, broken, c) ← readPlain s.inFlow (s.indent + 1) (c.rest.length + 1) [] {} c
  some { s.emit (.scalar (String.ofList text) true) with cursor := c, keyAllowed := broken }

/-- A number of a version directive, of at most nine digits. -/
def versionNumber? (c : Cursor) : Option (Nat × Cursor) := do
  let (digits, c) := c.takeWhile Char.isDigit
  guard (!digits.isEmpty && digits.length ≤ 9)
  some (digits.foldl (fun n d ↦ n * 10 + (d.toNat - '0'.toNat)) 0, c)

/-- What a directive says, behind its name. -/
def readDirective (name : List Char) (c : Cursor) : Option (Token × Cursor) := do
  let c := c.skipWhile isSpaceOrTab
  if name = ['Y', 'A', 'M', 'L'] then
    let (major, c) ← versionNumber? c
    guard (c.peek? = some '.')
    let (minor, c) ← versionNumber? (c.skip 1)
    some (.versionDirective major minor, c)
  else if name = ['T', 'A', 'G'] then
    guard (c.peek? = some '!')
    let (word, c) := (c.skip 1).takeWhile isWordChar
    guard (c.peek? = some '!' || word.isEmpty)
    let (handle, c) :=
      if c.peek? = some '!' then ("!" ++ String.ofList word ++ "!", c.skip 1) else ("!", c)
    guard (c.peek?.any isSpaceOrTab)
    let c := c.skipWhile isSpaceOrTab
    let (start, c) ← readTagText true (c.rest.length + 1) [] c
    guard (!start.isEmpty && atGapOrEnd c.rest)
    some (.tagDirective handle (String.ofList start), c)
  else none

/-- A directive, which takes its whole line. -/
def directive (s : Lexer) : Option Lexer := do
  let s ← s.closeAll
  let (name, c) := (s.cursor.skip 1).takeWhile isWordChar
  guard (!name.isEmpty && atGapOrEnd c.rest)
  let (t, c) ← readDirective name c
  let c := c.skipWhile isSpaceOrTab
  let c := if c.peek? = some '#' then c.skipLine else c
  guard (atBreakOrEnd c.rest)
  some { s.emit t with cursor := if c.rest.isEmpty then c else c.skipBreak }

/-- The beginning or the end of a document. -/
def documentMark (s : Lexer) (t : Token) : Option Lexer := do
  let s ← s.closeAll
  some ((s.skip 3).emit t)

/-- Whether a plain scalar may begin with a text. -/
def beginsPlain (inFlow : Bool) : List Char → Bool
  | [] => false
  | c :: cs =>
    if c == '-' then !cs.head?.any isSpaceOrTab
    else if c == '?' || c == ':' then !inFlow && !atGapOrEnd cs
    else !(isSpaceOrTab c || isLineBreak c || isFlowMark c ||
      ['#', '&', '*', '!', '|', '>', '\'', '"', '%', '@', '\u0060'].contains c)

/-- Read the token at the cursor, which is not at the end of the text. -/
def next (s : Lexer) : Option Lexer :=
  let c := s.cursor
  let rest := c.rest.drop 1
  let other (s : Lexer) : Option Lexer :=
    if beginsPlain s.inFlow c.rest then s.plainScalar else none
  if c.column == 0 && c.peek? = some '%' then s.directive
  else if c.atDocumentMark then
    s.documentMark (if c.peek? = some '-' then .documentStart else .documentEnd)
  else match c.peek? with
    | none => none
    | some '[' => s.openFlow .flowSequenceStart
    | some '\x7b' => s.openFlow .flowMappingStart
    | some ']' => s.closeFlow .flowSequenceEnd
    | some '\x7d' => s.closeFlow .flowMappingEnd
    | some ',' => s.flowEntry
    | some '-' => if atGapOrEnd rest then s.blockEntry else other s
    | some '?' => if s.inFlow || atGapOrEnd rest then s.explicitKey else other s
    | some ':' => if s.inFlow || atGapOrEnd rest then s.value else other s
    | some '*' => s.named .alias
    | some '&' => s.named .anchor
    | some '!' => s.tagToken
    | some '|' => if s.inFlow then none else s.blockScalar true
    | some '>' => if s.inFlow then none else s.blockScalar false
    | some '\'' => s.quotedScalar true
    | some '"' => s.quotedScalar false
    | some _ => other s

/-- Read all tokens. -/
def run : Nat → Lexer → Option (List Token)
  | 0, _ => none
  | fuel + 1, s => do
    let s ← (s.toNextToken (s.cursor.rest.length + 1)).dropStaleKeys
    let s := s.unroll s.cursor.column
    if s.cursor.rest.isEmpty then
      let s ← s.closeAll
      some s.tokens.toList
    else
      let s ← s.next
      run fuel s

end Lexer

/-- The tokens of a text. -/
def Token.ofText? (s : String) : Option (List Token) :=
  let cs := s.toList
  if cs.all isPrintable then Lexer.run (cs.length + 2) { cursor := { rest := cs } } else none

end PromptDoc.Yaml
