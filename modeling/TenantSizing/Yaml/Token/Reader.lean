import TenantSizing.Yaml.Token.Scalar

namespace TenantSizing.Yaml

/-- A token that turns out to be a key if a colon follows it on its line. -/
structure SimpleKey where
  /-- The position of its first token. -/
  token : Nat
  /-- Nothing but a key can stand here. -/
  required : Bool
  index : Nat
  line : Nat
  column : Nat

structure Reader where
  cursor : Cursor
  /-- How many flow collections are open. -/
  depth : Nat := 0
  /-- The indentation of the block that is open, -1 outside all blocks. -/
  indent : Int := -1
  /-- The indentations of the blocks around it. -/
  outer : List Int := []
  /-- A simple key may begin here. -/
  keysAllowed : Bool := true
  /-- At most one possible key for each depth. -/
  keys : List (Nat × SimpleKey) := []
  /-- The tokens so far, the last one first. -/
  tokens : List Token := []
  count : Nat := 0

namespace Reader

def push (r : Reader) (token : Token) : Reader :=
  { r with tokens := token :: r.tokens, count := r.count + 1 }

def insertAt (r : Reader) (position : Nat) (token : Token) : Reader :=
  { r with tokens := r.tokens.insertIdx (r.count - position) token, count := r.count + 1 }

/-- Passes spaces, comments and line breaks; a line break lets a key begin outside flow
collections. -/
def skipGap : Nat → Reader → Reader
  | 0, r => r
  | fuel + 1, r =>
    let c := r.cursor.skipWhile (· == ' ')
    let c := if c.peek == '#' then c.skipWhile fun ch => !isBreakOrEnd ch else c
    if isBreak c.peek then
      skipGap fuel
        { r with cursor := c.lineBreak.2, keysAllowed := r.keysAllowed || r.depth == 0 }
    else { r with cursor := c }

/-- A byte order mark may open the document. -/
def toNextToken (r : Reader) : Reader :=
  let c := r.cursor
  let c := if c.index == 0 && c.peek.toNat == 0xfeff then c.next else c
  skipGap (c.left + 1) { r with cursor := c }

/-- Forgets a possible key. A required one must not be forgotten. -/
def forget (r : Reader) (stale : Nat × SimpleKey → Bool) : Read Reader := do
  demand (!r.keys.any fun entry => stale entry && entry.2.required)
  pure { r with keys := r.keys.filter fun entry => !stale entry }

/-- How many characters a simple key may have. -/
def maxKeyLength : Nat := 1024

/-- A possible key ends with its line, and where it gets too long. -/
def forgetStale (r : Reader) : Read Reader :=
  r.forget fun entry =>
    entry.2.line != r.cursor.line || maxKeyLength < r.cursor.index - entry.2.index

def forgetHere (r : Reader) : Read Reader :=
  r.forget fun entry => entry.1 == r.depth

def mayBeKey (r : Reader) : Read Reader := do
  if r.keysAllowed then
    let c := r.cursor
    let r ← r.forgetHere
    let key : SimpleKey :=
      { token := r.count, required := r.depth == 0 && r.indent == c.column
        index := c.index, line := c.line, column := c.column }
    pure { r with keys := (r.depth, key) :: r.keys }
  else pure r

/-- How many blocks are indented further than a column, and the indentations without them. -/
def closeBlocks (column : Int) (indent : Int) : List Int → Nat × Int × List Int
  | [] => (0, indent, [])
  | next :: outer =>
    if column < indent then
      let (closed, indent, outer) := closeBlocks column next outer
      (closed + 1, indent, outer)
    else (0, indent, next :: outer)

def unwind (r : Reader) (column : Int) : Reader :=
  if r.depth = 0 then
    let (closed, indent, outer) := closeBlocks column r.indent r.outer
    { r with
      indent, outer, tokens := List.replicate closed .blockEnd ++ r.tokens
      count := r.count + closed }
  else r

/-- Opens a block at a column if that is further in than the open one. -/
def openBlock (r : Reader) (column : Nat) (position : Nat) (token : Token) : Reader :=
  if r.indent < column then
    { r.insertAt position token with indent := column, outer := r.indent :: r.outer }
  else r

def take (r : Reader) (width : Nat) (token : Token) : Reader :=
  { r.push token with cursor := r.cursor.skip width }

def leaveBlocks (r : Reader) : Read Reader := do
  let r ← (r.unwind (-1)).forgetHere
  pure { r with keysAllowed := false }

/-- Opens a flow collection. So deep inside others, the outermost one that is too deep cannot turn
out to be a key any more, and nothing behind it matters. -/
def openFlow (r : Reader) (token : Token) : Read Reader := do
  if maxDepth + maxKeyLength < r.depth then throw .tooDeep
  let r ← r.mayBeKey
  pure { r.take 1 token with depth := r.depth + 1, keysAllowed := true }

def closeFlow (r : Reader) (token : Token) : Read Reader := do
  let r ← r.forgetHere
  demand (r.depth != 0)
  pure { r.take 1 token with depth := r.depth - 1, keysAllowed := false }

def flowEntry (r : Reader) : Read Reader := do
  let r ← r.forgetHere
  pure { r.take 1 .flowEntry with keysAllowed := true }

def blockEntry (r : Reader) : Read Reader := do
  demand (r.depth != 0 || r.keysAllowed)
  let r :=
    if r.depth = 0 then r.openBlock r.cursor.column r.count .blockSequenceStart else r
  let r ← r.forgetHere
  pure { r.take 1 .blockEntry with keysAllowed := true }

def explicitKey (r : Reader) : Read Reader := do
  demand (r.depth != 0 || r.keysAllowed)
  let r :=
    if r.depth = 0 then r.openBlock r.cursor.column r.count .blockMappingStart else r
  let r ← r.forgetHere
  pure { r.take 1 .key with keysAllowed := r.depth == 0 }

/-- A colon makes a key of the possible key in front of it; without one it follows an explicit
key. -/
def valueSign (r : Reader) : Read Reader := do
  match r.keys.lookup r.depth with
  | some key =>
    let r := { r with keys := r.keys.filter fun entry => entry.1 != r.depth }
    let r := r.insertAt key.token .key
    let r := if r.depth = 0 then r.openBlock key.column key.token .blockMappingStart else r
    pure { r.take 1 .value with keysAllowed := false }
  | none =>
    demand (r.depth != 0 || r.keysAllowed)
    let r :=
      if r.depth = 0 then r.openBlock r.cursor.column r.count .blockMappingStart else r
    let r ← r.forgetHere
    pure { r.take 1 .value with keysAllowed := r.depth == 0 }

/-- Emits what a reader of names, tags or quoted texts gives; it may be a simple key. -/
def property (r : Reader) (read : Cursor → Read (Token × Cursor)) : Read Reader := do
  let r ← r.mayBeKey
  let (token, cursor) ← read r.cursor
  pure { r.push token with cursor, keysAllowed := false }

def quoted (r : Reader) (double : Bool) : Read Reader :=
  r.property fun c => do
    let (text, c) ← readQuoted double c
    pure (.scalar (String.ofList text) false, c)

def plain (r : Reader) : Read Reader := do
  let r ← r.mayBeKey
  let scalar := readPlain (r.depth != 0) (r.indent + 1).toNat r.cursor
  pure { r.push (.scalar (String.ofList scalar.reversed.reverse) true) with
    cursor := scalar.cursor, keysAllowed := scalar.keysAllowed }

def block (r : Reader) (folded : Bool) : Read Reader := do
  let r ← { r with keysAllowed := true }.forgetHere
  let (text, cursor) ← readBlock folded r.indent r.cursor
  pure { r.push (.scalar (String.ofList text) false) with cursor }

def boundary (r : Reader) (token : Token) : Read Reader := do
  pure ((← r.leaveBlocks).take 3 token)

def directive (r : Reader) : Read Reader := do
  let r ← r.leaveBlocks
  let (directive, cursor) ← readDirective r.cursor
  pure { r.push (.directive directive) with cursor }

/-- A plain scalar begins with a character that is no indicator, or with a hyphen, a question mark
or a colon that is no indicator for what follows it. -/
def startsPlain (r : Reader) : Bool :=
  let c := r.cursor.peek
  let indicators := "-?:,[]\x7b\x7d#&*!|>\x27\x22%@\x60".toList
  !(isSeparator c || indicators.contains c) ||
    (!isSeparator (r.cursor.ahead 1) && (c == '-' || (r.depth == 0 && (c == '?' || c == ':'))))

/-- Emits the next token, with the tokens that its place implies; none at the end of the text. -/
def step (r : Reader) : Read (Option Reader) := do
  let r ← r.toNextToken.forgetStale
  let c := r.cursor
  let r := r.unwind c.column
  let alone := isSeparator (c.ahead 1)
  match c.peek with
  | '\x00' =>
    let _ ← r.leaveBlocks
    pure none
  | ch =>
    if ch == '%' && c.column == 0 then some <$> r.directive
    else if ch == '-' && c.column == 0 && c.atBoundary then some <$> r.boundary .documentStart
    else if ch == '.' && c.column == 0 && c.atBoundary then some <$> r.boundary .documentEnd
    else if ch == '[' then some <$> r.openFlow .flowSequenceStart
    else if ch == '\x7b' then some <$> r.openFlow .flowMappingStart
    else if ch == ']' then some <$> r.closeFlow .flowSequenceEnd
    else if ch == '\x7d' then some <$> r.closeFlow .flowMappingEnd
    else if ch == ',' then some <$> r.flowEntry
    else if ch == '-' && alone then some <$> r.blockEntry
    else if ch == '?' && (r.depth != 0 || alone) then some <$> r.explicitKey
    else if ch == ':' && (r.depth != 0 || alone) then some <$> r.valueSign
    else if ch == '*' then
      some <$> r.property fun c => do
        let (name, c) ← readName c
        pure (.alias name, c)
    else if ch == '&' then
      some <$> r.property fun c => do
        let (name, c) ← readName c
        pure (.anchor name, c)
    else if ch == '!' then some <$> r.property readTag
    else if ch == '|' && r.depth == 0 then some <$> r.block false
    else if ch == '>' && r.depth == 0 then some <$> r.block true
    else if ch == '\x27' then some <$> r.quoted false
    else if ch == '\x22' then some <$> r.quoted true
    else if r.startsPlain then some <$> r.plain
    else malformed

/-- The tokens that no colon to come can change: those in front of every possible key. -/
def settled (r : Reader) : List Token :=
  match r.forgetStale with
  | .ok r =>
    let settled := (r.keys.map fun entry => entry.2.token).foldl min r.count
    r.tokens.drop (r.count - settled)
  | .error _ => r.tokens

/-- Emits all tokens, the last one first. Each step passes a character, so the length of the text
bounds their number. A fault stands behind the tokens that are settled when it is met. -/
def run : Nat → Reader → List Token
  | 0, r => .fault .malformed :: r.tokens
  | fuel + 1, r =>
    match r.step with
    | .error fault => .fault fault :: r.settled
    | .ok none => .streamEnd :: (r.toNextToken.unwind (-1)).tokens
    | .ok (some r) => run fuel r

end Reader

/-- The tokens of a text. The last one is the end, or the fault that stopped the reading. -/
def Token.ofText (text : String) : List Token :=
  if text.toList.all isAllowed then
    (Reader.run (text.length + 1) { cursor := .start text.toList }).reverse
  else [.fault .malformed]

end TenantSizing.Yaml
