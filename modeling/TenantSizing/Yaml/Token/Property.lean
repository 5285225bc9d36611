import TenantSizing.Yaml.Cursor
import TenantSizing.Yaml.Token

namespace TenantSizing.Yaml

abbrev Read := Except Fault

def malformed {α : Type} : Read α :=
  .error .malformed

def demand (condition : Bool) : Read Unit :=
  if condition then .ok () else malformed

def readName (c : Cursor) : Read (String × Cursor) := do
  let (name, c) := c.next.takeWhile isNameChar
  demand (!name.isEmpty)
  demand (isSeparator c.peek || ['?', ':', ',', ']', '\x7d', '%', '@', '\x60'].contains c.peek)
  pure (String.ofList name, c)

/-- The handle of a tag: one exclamation mark, or a name between two. -/
def readHandle (c : Cursor) : Read (String × Cursor) := do
  demand (c.peek == '!')
  if c.ahead 1 == ' ' then pure ("!", c.next)
  else
    let (name, c) := c.next.takeWhile isNameChar
    demand (c.peek == '!')
    pure (String.ofList ('!' :: name ++ ['!']), c.next)

def isUriChar (c : Char) : Bool :=
  isNameChar c || ";/?:@&=+$,.!~*\x27()[]".toList.contains c

def readEscapedBytes : List Char → Read (List UInt8 × Nat)
  | '%' :: a :: b :: rest => do
    demand (isHexDigit a && isHexDigit b)
    let (bytes, length) ← readEscapedBytes rest
    pure ((16 * hexValue a + hexValue b).toUInt8 :: bytes, length + 3)
  | '%' :: _ => malformed
  | _ => pure ([], 0)

/-- Reads pieces of a tag's address; `fuel` bounds their number. -/
def readUriPieces : Nat → Cursor → Read (List Char × Cursor)
  | 0, c => pure ([], c)
  | fuel + 1, c => do
    let (plain, c) := c.takeWhile isUriChar
    if c.peek == '%' then
      let (bytes, length) ← readEscapedBytes c.rest
      match String.fromUTF8? ⟨bytes.toArray⟩ with
      | none => malformed
      | some text =>
        let (later, c) ← readUriPieces fuel (c.skip length)
        pure (plain ++ text.toList ++ later, c)
    else pure (plain, c)

def readUri (c : Cursor) : Read (String × Cursor) := do
  let (uri, after) ← readUriPieces (c.left + 1) c
  demand (c.index < after.index)
  pure (String.ofList uri, after)

/-- A tag is written out between angle brackets, or is a handle with a suffix, or is a lone
exclamation mark. -/
def readTag (c : Cursor) : Read (Token × Cursor) := do
  let second := c.ahead 1
  if second == '<' then
    let (uri, c) ← readUri (c.skip 2)
    demand (c.peek == '>')
    demand (isGap c.next.peek)
    pure (.tag none uri, c.next)
  else if isSeparator second then
    demand (isGap second)
    pure (.tag none "!", c.next)
  else
    let word := c.next.rest.takeWhile fun ch => !isGap ch
    let (handle, c) ← if word.contains '!' then readHandle c else pure ("!", c.next)
    let (uri, c) ← readUri c
    demand (isGap c.peek)
    pure (.tag (some handle) uri, c)

def endLine (c : Cursor) : Read Cursor := do
  let c := c.skipWhile (· == ' ')
  let c := if c.peek == '#' then c.skipWhile fun ch => !isBreakOrEnd ch else c
  demand (isBreakOrEnd c.peek)
  pure c.lineBreak.2

def readNumber (c : Cursor) : Read (Nat × Cursor) := do
  let (digits, c) := c.takeWhile Char.isDigit
  demand (!digits.isEmpty)
  if maxDigits < digits.length then throw .noSuchValue
  pure (digits.foldl (fun n d => 10 * n + (d.toNat - '0'.toNat)) 0, c)

def readVersion (c : Cursor) : Read (Directive × Cursor) := do
  let (major, c) ← readNumber (c.skipWhile (· == ' '))
  demand (c.peek == '.')
  let (_, c) ← readNumber c.next
  demand (isGap c.peek)
  pure (.version major, c)

def readTagDirective (c : Cursor) : Read (Directive × Cursor) := do
  let (handle, c) ← readHandle (c.skipWhile (· == ' '))
  demand (c.peek == ' ')
  let (uri, c) ← readUri (c.skipWhile (· == ' '))
  demand (isGap c.peek)
  pure (.tag handle uri, c)

/-- Reads the line of a directive. Directives of unknown names are passed over. -/
def readDirective (c : Cursor) : Read (Directive × Cursor) := do
  let (name, c) := c.next.takeWhile isNameChar
  demand (!name.isEmpty)
  demand (isGap c.peek)
  let (directive, c) ←
    if name = "YAML".toList then readVersion c
    else if name = "TAG".toList then readTagDirective c
    else pure (Directive.other, c.skipWhile fun ch => !isBreakOrEnd ch)
  pure (directive, ← endLine c)

end TenantSizing.Yaml
