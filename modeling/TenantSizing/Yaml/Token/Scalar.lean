import TenantSizing.Yaml.Token.Property

namespace TenantSizing.Yaml

/-- The run of a plain scalar that has no blank. A colon ends it before a separator; inside flow
collections their signs end it too. -/
def plainRun (flow : Bool) : List Char → List Char
  | [] => []
  | c :: rest =>
    let following := rest.headD endMark
    if isSeparator c then []
    else if c == ':' && (isSeparator following ||
        (flow && [',', '[', ']', '\x7b', '\x7d'].contains following)) then []
    else if flow && [',', '?', '[', ']', '\x7b', '\x7d'].contains c then []
    else c :: plainRun flow rest

/-- Passes blank lines between two lines of a plain scalar, and gives their breaks; none if a
document's boundary comes first. `fuel` bounds the number of lines. -/
def plainBreaks : Nat → Cursor → Option (List Char) × Cursor
  | 0, c => (some [], c)
  | fuel + 1, c =>
    let c := c.skipWhile (· == ' ')
    if isBreak c.peek then
      let (lineBreak, c) := c.lineBreak
      if c.atBoundary then (none, c)
      else
        let (later, c) := plainBreaks fuel c
        (later.map (lineBreak ++ ·), c)
    else (some [], c)

/-- What stands between two runs of a plain scalar: blanks as they are, or folded line breaks. No
character at all means that the scalar is over. -/
structure PlainGap where
  text : List Char
  cursor : Cursor
  newLine : Bool

def foldBreak (lineBreak breaks : List Char) : List Char :=
  if lineBreak != ['\n'] then lineBreak ++ breaks
  else if breaks.isEmpty then [' ']
  else breaks

def plainGap (c : Cursor) : PlainGap :=
  let (blanks, c) := c.takeWhile (· == ' ')
  if isBreak c.peek then
    let (lineBreak, c) := c.lineBreak
    if c.atBoundary then { text := [], cursor := c, newLine := true }
    else
      match plainBreaks (c.left + 1) c with
      | (none, c) => { text := [], cursor := c, newLine := true }
      | (some breaks, c) => { text := foldBreak lineBreak breaks, cursor := c, newLine := true }
  else { text := blanks, cursor := c, newLine := false }

/-- A plain scalar with its last character first, where it ends, and whether a simple key may
follow. -/
structure PlainScalar where
  reversed : List Char
  cursor : Cursor
  keysAllowed : Bool

/-- Reads runs and the gaps between them; `gap` has been read already. -/
def plainRuns (flow : Bool) (indent : Nat) : Nat → List Char → PlainScalar → PlainScalar
  | 0, _, scalar => scalar
  | fuel + 1, gap, scalar =>
    let c := scalar.cursor
    let run := plainRun flow c.rest
    if c.peek == '#' || run.isEmpty then scalar
    else
      let after := plainGap (c.skip run.length)
      let scalar : PlainScalar :=
        { reversed := run.reverse ++ (gap.reverse ++ scalar.reversed), cursor := after.cursor
          keysAllowed := after.newLine }
      if after.text.isEmpty || after.cursor.peek == '#' ||
          (!flow && after.cursor.column < indent) then scalar
      else plainRuns flow indent fuel after.text scalar

/-- Reads a plain scalar. Outside flow collections its lines are indented by `indent` or more. -/
def readPlain (flow : Bool) (indent : Nat) (c : Cursor) : PlainScalar :=
  plainRuns flow indent (c.left + 1) [] { reversed := [], cursor := c, keysAllowed := false }

def quotedBreaks : Nat → Cursor → Read (List Char × Cursor)
  | 0, c => pure ([], c)
  | fuel + 1, c => do
    demand (!c.atBoundary)
    let c := c.skipWhile fun ch => ch == ' ' || ch == '\t'
    if isBreak c.peek then
      let (lineBreak, c) := c.lineBreak
      let (later, c) ← quotedBreaks fuel c
      pure (lineBreak ++ later, c)
    else pure ([], c)

/-- Blanks inside a quoted scalar, or folded line breaks. -/
def quotedGap (c : Cursor) : Read (List Char × Cursor) := do
  let (blanks, c) := c.takeWhile fun ch => ch == ' ' || ch == '\t'
  if c.peek == endMark then malformed
  else if isBreak c.peek then
    let (lineBreak, c) := c.lineBreak
    let (breaks, c) ← quotedBreaks (c.left + 1) c
    pure (foldBreak lineBreak breaks, c)
  else pure (blanks, c)

def escaped? : Char → Option Char
  | '0' => some '\x00'
  | 'a' => some '\x07'
  | 'b' => some '\x08'
  | 't' => some '\t'
  | '\t' => some '\t'
  | 'n' => some '\n'
  | 'v' => some '\x0b'
  | 'f' => some '\x0c'
  | 'r' => some '\r'
  | 'e' => some '\x1b'
  | ' ' => some ' '
  | '\x22' => some '\x22'
  | '\x5c' => some '\x5c'
  | '/' => some '/'
  | 'N' => some (Char.ofNat 0x85)
  | '_' => some (Char.ofNat 0xa0)
  | 'L' => some (Char.ofNat 0x2028)
  | 'P' => some (Char.ofNat 0x2029)
  | _ => none

def escapeWidth? : Char → Option Nat
  | 'x' => some 2
  | 'u' => some 4
  | 'U' => some 8
  | _ => none

/-- The character of a number. A number of no character reads as the replacement character, if it
is at least in the range of characters. -/
def charOfCode (code : Nat) : Read Char :=
  if code < 0x110000 then
    pure (if 0xd800 ≤ code ∧ code < 0xe000 then Char.ofNat 0xfffd else Char.ofNat code)
  else if code < 0x80000000 then .error .noSuchValue
  else .error .numberTooLarge

/-- Reads an escape; the cursor is behind its backslash. -/
def readEscape (c : Cursor) : Read (List Char × Cursor) := do
  match escaped? c.peek, escapeWidth? c.peek with
  | some ch, _ => pure ([ch], c.next)
  | none, some width =>
    let digits := c.next.rest.take width
    demand (digits.length == width && digits.all isHexDigit)
    let ch ← charOfCode (digits.foldl (fun n d => 16 * n + hexValue d) 0)
    pure ([ch], c.next.skip width)
  | none, none =>
    demand (isBreak c.peek)
    let c := c.lineBreak.2
    quotedBreaks (c.left + 1) c

/-- Reads the rest of a quoted scalar, up to and with its closing quote. `fuel` bounds the number
of pieces it is read in. -/
def quotedPieces (double : Bool) : Nat → Cursor → Read (List Char × Cursor)
  | 0, _ => malformed
  | fuel + 1, c => do
    let (plain, c) := c.takeWhile fun ch =>
      !(isSeparator ch || ch == '\x27' || ch == '\x22' || ch == '\x5c')
    let quote := if double then '\x22' else '\x27'
    let ch := c.peek
    if !double && ch == '\x27' && c.ahead 1 == '\x27' then
      let (later, c) ← quotedPieces double fuel (c.skip 2)
      pure (plain ++ '\x27' :: later, c)
    else if ch == quote then pure (plain, c.next)
    else if ch == '\x27' || ch == '\x22' || (!double && ch == '\x5c') then
      let (later, c) ← quotedPieces double fuel c.next
      pure (plain ++ ch :: later, c)
    else if ch == '\x5c' then
      let (text, c) ← readEscape c.next
      let (later, c) ← quotedPieces double fuel c
      pure (plain ++ text ++ later, c)
    else
      let (gap, c) ← quotedGap c
      let (later, c) ← quotedPieces double fuel c
      pure (plain ++ gap ++ later, c)

def readQuoted (double : Bool) (c : Cursor) : Read (List Char × Cursor) :=
  quotedPieces double (c.left + 1) c.next

/-- What becomes of the line breaks at the end of a block scalar. -/
inductive Chomping where
  | strip
  | clip
  | keep
  deriving DecidableEq, Repr

def chomping? : Char → Option Chomping
  | '+' => some .keep
  | '-' => some .strip
  | _ => none

/-- An indentation of a block scalar is one digit and not zero. -/
def readIncrement (c : Cursor) : Read (Option Nat × Cursor) :=
  if c.peek.isDigit then
    if c.peek == '0' then malformed else pure (some (hexValue c.peek), c.next)
  else pure (none, c)

def readIndicators (c : Cursor) : Read (Chomping × Option Nat × Cursor) := do
  let (chomping, increment, c) ←
    match chomping? c.peek with
    | some chomping =>
      let (increment, c) ← readIncrement c.next
      pure (chomping, increment, c)
    | none =>
      let (increment, c) ← readIncrement c
      match increment, chomping? c.peek with
      | some n, some chomping => pure (chomping, some n, c.next)
      | _, _ => pure (.clip, increment, c)
  demand (isGap c.peek)
  pure (chomping, increment, c)

/-- Passes the blank lines in front of a block scalar: their breaks, and the widest indentation
among them and the line behind. -/
def leadingBreaks : Nat → Nat → Cursor → List Char × Nat × Cursor
  | 0, widest, c => ([], widest, c)
  | fuel + 1, widest, c =>
    if c.peek == ' ' then leadingBreaks fuel (max widest c.next.column) c.next
    else if isBreak c.peek then
      let (lineBreak, c) := c.lineBreak
      let (later, widest, c) := leadingBreaks fuel widest c
      (lineBreak ++ later, widest, c)
    else ([], widest, c)

def innerBreaks (indent : Nat) : Nat → Cursor → List Char × Cursor
  | 0, c => ([], c)
  | fuel + 1, c =>
    let c := c.skipSpaces (indent - c.column)
    if isBreak c.peek then
      let (lineBreak, c) := c.lineBreak
      let (later, c) := innerBreaks indent fuel c
      (lineBreak ++ later, c)
    else ([], c)

/-- Reads the lines of a block scalar, each with the breaks in front of it; `reversed` is the text
so far with its last character first. In a folded scalar a single break between two lines that
begin with no blank is a space, and vanishes if blank lines follow it. -/
def blockLines (folded : Bool) (indent : Nat) (chomping : Chomping) :
    Nat → List Char → List Char → Cursor → List Char × Cursor
  | 0, reversed, _, c => (reversed.reverse, c)
  | fuel + 1, reversed, breaks, c =>
    if c.column == indent && c.peek != endMark then
      let startsBlank := c.peek == ' ' || c.peek == '\t'
      let (line, c) := c.takeWhile fun ch => !isBreakOrEnd ch
      let reversed := line.reverse ++ (breaks.reverse ++ reversed)
      let (lineBreak, c) := c.lineBreak
      let (breaks, c) := innerBreaks indent (c.left + 1) c
      if c.column == indent && c.peek != endMark then
        let nextBlank := c.peek == ' ' || c.peek == '\t'
        if folded && lineBreak == ['\n'] && !startsBlank && !nextBlank then
          blockLines folded indent chomping fuel
            (if breaks.isEmpty then ' ' :: reversed else reversed) breaks c
        else blockLines folded indent chomping fuel (lineBreak.reverse ++ reversed) breaks c
      else
        let reversed := if chomping = .strip then reversed else lineBreak.reverse ++ reversed
        ((if chomping = .keep then breaks.reverse ++ reversed else reversed).reverse, c)
    else ((if chomping = .keep then breaks.reverse ++ reversed else reversed).reverse, c)

def readBlock (folded : Bool) (parent : Int) (c : Cursor) : Read (List Char × Cursor) := do
  let (chomping, increment, c) ← readIndicators c.next
  let c ← endLine c
  let least := max (parent + 1).toNat 1
  let fuel := c.left + 1
  match increment with
  | none =>
    let (breaks, widest, c) := leadingBreaks fuel 0 c
    pure (blockLines folded (max least widest) chomping fuel [] breaks c)
  | some n =>
    let indent := least + n - 1
    let (breaks, c) := innerBreaks indent fuel c
    pure (blockLines folded indent chomping fuel [] breaks c)

end TenantSizing.Yaml
