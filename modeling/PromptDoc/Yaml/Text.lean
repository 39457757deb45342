import PromptDoc.Yaml.Cursor

/-!
# YAML scalars as written

Reading the text of a scalar off a cursor: plain, in single or double quotes, or as a block. Line
breaks within a scalar are folded: one break is a space, and of several the first is dropped.
-/

namespace PromptDoc.Yaml

/-- White space between two pieces of a scalar. -/
structure Gap where
  /-- Spaces and tabs on the line of the piece before. -/
  blanks : List Char := []
  /-- Whether a line was broken. -/
  broken : Bool := false
  firstBreak : List Char := []
  moreBreaks : List Char := []

namespace Gap

/-- Whether there is nothing between the pieces. -/
def isEmpty (g : Gap) : Bool := g.blanks.isEmpty && !g.broken

/-- The gap with a line break added. -/
def addBreak (g : Gap) (text : List Char) : Gap :=
  if g.broken then { g with moreBreaks := g.moreBreaks ++ text }
  else { broken := true, firstBreak := text }

/-- The text that a gap stands for. -/
def folded (g : Gap) : List Char :=
  if !g.broken then g.blanks
  else if g.firstBreak = ['\n'] then
    if g.moreBreaks.isEmpty then [' '] else g.moreBreaks
  else g.firstBreak ++ g.moreBreaks

/-- Read a gap. `tabFrom` is the column before which a tab may not stand on a new line. -/
def read (tabFrom : Int) : Nat → Gap → Cursor → Option (Gap × Cursor)
  | 0, _, _ => none
  | fuel + 1, g, c =>
    match c.rest with
    | [] => some (g, c)
    | x :: _ =>
      if isSpaceOrTab x then
        if g.broken && x == '\t' && (c.column : Int) < tabFrom then none
        else
          let g := if g.broken then g else { g with blanks := g.blanks ++ [x] }
          read tabFrom fuel g (c.skip 1)
      else if isLineBreak x then read tabFrom fuel (g.addBreak c.breakText) c.skipBreak
      else some (g, c)

end Gap

/-- Whether a character ends a plain scalar between brackets. -/
def isFlowMark (c : Char) : Bool :=
  c == ',' || c == '[' || c == ']' || c == '\x7b' || c == '\x7d'

/-- The characters of a plain scalar up to white space or what ends it. Between brackets a colon
right before a bracket, a comma or a question mark is an error. -/
def plainPiece (inFlow : Bool) : List Char → Option (List Char)
  | [] => some []
  | c :: cs =>
    if isSpaceOrTab c || isLineBreak c then some []
    else if inFlow && c == ':' && cs.head?.any (fun d ↦ isFlowMark d || d == '?') then none
    else if (c == ':' && atGapOrEnd cs) || (inFlow && isFlowMark c) then some []
    else (plainPiece inFlow cs).map (c :: ·)

/-- Read a plain scalar: its text, and whether it was followed by a line break. -/
def readPlain (inFlow : Bool) (indent : Int) :
    Nat → List Char → Gap → Cursor → Option (List Char × Bool × Cursor)
  | 0, _, _, _ => none
  | fuel + 1, text, gap, c =>
    if c.atDocumentMark || c.peek? = some '#' then some (text, gap.broken, c)
    else do
      let piece ← plainPiece inFlow c.rest
      let (text, gap) := if piece.isEmpty then (text, gap) else (text ++ gap.folded ++ piece, {})
      let c := c.skip piece.length
      if c.rest.isEmpty || !atGapOrEnd c.rest then some (text, gap.broken, c)
      else
        let (gap, c) ← Gap.read indent (c.rest.length + 1) gap c
        if !inFlow && (c.column : Int) < indent then some (text, gap.broken, c)
        else readPlain inFlow indent fuel text gap c

/-- The value of a hexadecimal digit. -/
def hexValue? (c : Char) : Option Nat :=
  if c.isDigit then some (c.toNat - '0'.toNat)
  else if 'a' ≤ c && c ≤ 'f' then some (c.toNat - 'a'.toNat + 10)
  else if 'A' ≤ c && c ≤ 'F' then some (c.toNat - 'A'.toNat + 10)
  else none

/-- The character that `n` hexadecimal digits at the front of a text number. -/
def hexChar? (n : Nat) (cs : List Char) : Option Char := do
  let digits := cs.take n
  guard (digits.length = n)
  let value ← digits.foldlM (fun v c ↦ (hexValue? c).map (v * 16 + ·)) 0
  guard (value ≤ 0x10FFFF ∧ ¬(0xD800 ≤ value ∧ value ≤ 0xDFFF))
  some (Char.ofNat value)

/-- The character of an escape at the front of a text, and the length of the escape. -/
def escape? : List Char → Option (Char × Nat)
  | '0' :: _ => some ('\x00', 1)
  | 'a' :: _ => some ('\x07', 1)
  | 'b' :: _ => some ('\x08', 1)
  | 't' :: _ => some ('\t', 1)
  | '\t' :: _ => some ('\t', 1)
  | 'n' :: _ => some ('\n', 1)
  | 'v' :: _ => some ('\x0b', 1)
  | 'f' :: _ => some ('\x0c', 1)
  | 'r' :: _ => some ('\r', 1)
  | 'e' :: _ => some ('\x1b', 1)
  | ' ' :: _ => some (' ', 1)
  | '"' :: _ => some ('"', 1)
  | '/' :: _ => some ('/', 1)
  | '\\' :: _ => some ('\\', 1)
  | 'N' :: _ => some ('\u0085', 1)
  | '_' :: _ => some ('\u00A0', 1)
  | 'L' :: _ => some ('\u2028', 1)
  | 'P' :: _ => some ('\u2029', 1)
  | 'x' :: cs => (hexChar? 2 cs).map (·, 3)
  | 'u' :: cs => (hexChar? 4 cs).map (·, 5)
  | 'U' :: cs => (hexChar? 8 cs).map (·, 9)
  | _ => none

/-- Read a piece of a quoted scalar up to white space or the closing quote. The flag tells whether
the piece ended in an escaped line break. -/
def readQuotedPiece (single : Bool) :
    Nat → List Char → Cursor → Option (List Char × Bool × Cursor)
  | 0, _, _ => none
  | fuel + 1, text, c =>
    match c.rest with
    | [] => some (text, false, c)
    | x :: xs =>
      if isSpaceOrTab x || isLineBreak x then some (text, false, c)
      else if single && x == '\'' then
        if xs.head? = some '\'' then readQuotedPiece single fuel (text ++ ['\'']) (c.skip 2)
        else some (text, false, c)
      else if !single && x == '"' then some (text, false, c)
      else if !single && x == '\\' then
        match xs with
        | [] => none
        | y :: _ =>
          if isLineBreak y then some (text, true, (c.skip 1).skipBreak)
          else do
            let (char, length) ← escape? xs
            readQuotedPiece single fuel (text ++ [char]) (c.skip (1 + length))
      else readQuotedPiece single fuel (text ++ [x]) (c.skip 1)

/-- Read the rest of a quoted scalar behind its opening quote. -/
def readQuoted (single : Bool) : Nat → List Char → Cursor → Option (List Char × Cursor)
  | 0, _, _ => none
  | fuel + 1, text, c =>
    if c.atDocumentMark || c.rest.isEmpty then none
    else do
      let (text, escaped, c) ← readQuotedPiece single (c.rest.length + 1) text c
      match c.rest with
      | [] => none
      | x :: _ =>
        if x == (if single then '\'' else '"') then some (text, c.skip 1)
        else
          let (gap, c) ← Gap.read (-1) (c.rest.length + 1) { broken := escaped } c
          readQuoted single fuel (text ++ gap.folded) c

/-- What becomes of the line breaks at the end of a block. -/
inductive Chomping where
  | strip
  | clip
  | keep
  deriving DecidableEq

/-- The indicators of a block: what becomes of its end, and its indentation if that is given. -/
def blockHeader (c : Cursor) : Option (Chomping × Nat × Cursor) :=
  let chomp (x : Char) : Option Chomping :=
    if x == '+' then some .keep else if x == '-' then some .strip else none
  let digit (x : Char) : Option Nat := if x.isDigit then some (x.toNat - '0'.toNat) else none
  match c.rest with
  | [] => some (.clip, 0, c)
  | x :: xs =>
    match chomp x, digit x with
    | some how, _ =>
      match xs.head?.bind digit with
      | some 0 => none
      | some n => some (how, n, c.skip 2)
      | none => some (how, 0, c.skip 1)
    | none, some 0 => none
    | none, some n =>
      match xs.head?.bind chomp with
      | some how => some (how, n, c.skip 2)
      | none => some (.clip, n, c.skip 1)
    | none, none => some (.clip, 0, c)

/-- Read the indentation and the empty lines before a line of a block. While the indentation is not
known (`0`) the deepest column seen is kept. -/
def readBlockBreaks (indent : Nat) :
    Nat → (deepest : Nat) → (breaks : List Char) → Cursor → Option (Nat × List Char × Cursor)
  | 0, _, _, _ => none
  | fuel + 1, deepest, breaks, c =>
    let spaces := (c.rest.takeWhile (· == ' ')).length
    let c := c.skip (if indent = 0 then spaces else min spaces (indent - c.column))
    let deepest := max deepest c.column
    if (indent = 0 || c.column < indent) && c.peek? = some '\t' then none
    else match c.rest with
      | x :: _ =>
        if isLineBreak x then
          readBlockBreaks indent fuel deepest (breaks ++ c.breakText) c.skipBreak
        else some (deepest, breaks, c)
      | [] => some (deepest, breaks, c)

/-- A block under construction. -/
structure Block where
  text : List Char := []
  lastBreak : List Char := []
  /-- Whether the last line began with white space. -/
  lastIndented : Bool := false
  /-- The breaks of the empty lines since. -/
  breaks : List Char := []

/-- Read the lines of a block that are indented by `indent`. -/
def readBlockLines (literal : Bool) (indent : Nat) :
    Nat → Block → Cursor → Option (Block × Cursor)
  | 0, _, _ => none
  | fuel + 1, b, c =>
    if c.column ≠ indent || c.rest.isEmpty then some (b, c)
    else do
      let indented := c.peek?.any isSpaceOrTab
      let joined :=
        if !literal && b.lastBreak = ['\n'] && !b.lastIndented && !indented then
          if b.breaks.isEmpty then [' '] else []
        else b.lastBreak
      let (line, c) := c.takeWhile fun x ↦ !isLineBreak x
      let lastBreak := if c.rest.isEmpty then [] else c.breakText
      let c := if c.rest.isEmpty then c else c.skipBreak
      let (_, breaks, next) ← readBlockBreaks indent (c.rest.length + 1) 0 [] c
      readBlockLines literal indent fuel
        ⟨b.text ++ joined ++ b.breaks ++ line, lastBreak, indented, breaks⟩ next

/-- Read a block behind its indicator; `outer` is the indentation around it. -/
def readBlock (literal : Bool) (outer : Int) (c : Cursor) : Option (List Char × Cursor) := do
  let (chomping, increment, c) ← blockHeader c
  let c := c.skipWhile isSpaceOrTab
  let c := if c.peek? = some '#' then c.skipLine else c
  guard (atBreakOrEnd c.rest)
  let c := if c.rest.isEmpty then c else c.skipBreak
  let given : Nat :=
    if increment = 0 then 0
    else if 0 ≤ outer then (outer + increment).toNat else increment
  let (deepest, breaks, c) ← readBlockBreaks given (c.rest.length + 1) 0 [] c
  let indent := if given = 0 then max (max deepest (outer + 1).toNat) 1 else given
  let (b, c) ← readBlockLines literal indent (c.rest.length + 1) { breaks } c
  let last := if chomping = .strip then [] else b.lastBreak
  let tail := if chomping = .keep then b.breaks else []
  some (b.text ++ last ++ tail, c)

end PromptDoc.Yaml
