namespace TenantSizing.Yaml

/-- Stands for the end of the text. No document holds it, since it cannot be shown. -/
def endMark : Char := '\x00'

/-- The characters a document may consist of. -/
def isAllowed (c : Char) : Bool :=
  let n := c.toNat
  n == 0x09 || n == 0x0a || n == 0x0d || (0x20 ≤ n && n ≤ 0x7e) || n == 0x85 ||
    (0xa0 ≤ n && n ≤ 0xd7ff) || (0xe000 ≤ n && n ≤ 0xfffd) || 0x10000 ≤ n

def isBreak (c : Char) : Bool :=
  c == '\n' || c == '\r' || c.toNat == 0x85 || c.toNat == 0x2028 || c.toNat == 0x2029

def isBreakOrEnd (c : Char) : Bool :=
  isBreak c || c == endMark

def isGap (c : Char) : Bool :=
  c == ' ' || isBreakOrEnd c

def isSeparator (c : Char) : Bool :=
  c == '\t' || isGap c

def isNameChar (c : Char) : Bool :=
  c.isAlphanum || c == '-' || c == '_'

def isHexDigit (c : Char) : Bool :=
  c.isDigit || ('a' ≤ c && c ≤ 'f') || ('A' ≤ c && c ≤ 'F')

def hexValue (c : Char) : Nat :=
  if c.isDigit then c.toNat - '0'.toNat
  else if 'a' ≤ c then c.toNat - 'a'.toNat + 10
  else c.toNat - 'A'.toNat + 10

structure Cursor where
  rest : List Char
  /-- The length of `rest`. -/
  left : Nat
  index : Nat
  line : Nat
  column : Nat

namespace Cursor

def start (text : List Char) : Cursor :=
  { rest := text, left := text.length, index := 0, line := 0, column := 0 }

def ahead (c : Cursor) (n : Nat) : Char :=
  c.rest.getD n endMark

def peek (c : Cursor) : Char :=
  c.ahead 0

/-- Passes one character. A carriage return before a line feed does not end the line by itself, and
a byte order mark has no width. -/
def next (c : Cursor) : Cursor :=
  match c.rest with
  | [] => c
  | ch :: rest =>
    if isBreak ch && !(ch == '\r' && rest.head? == some '\n') then
      { rest, left := c.left - 1, index := c.index + 1, line := c.line + 1, column := 0 }
    else
      { rest, left := c.left - 1, index := c.index + 1, line := c.line
        column := if ch.toNat == 0xfeff then c.column else c.column + 1 }

def skip (c : Cursor) : Nat → Cursor
  | 0 => c
  | n + 1 => c.next.skip n

def takeWhile (c : Cursor) (p : Char → Bool) : List Char × Cursor :=
  let taken := c.rest.takeWhile p
  (taken, c.skip taken.length)

def skipWhile (c : Cursor) (p : Char → Bool) : Cursor :=
  (c.takeWhile p).2

def skipSpaces (c : Cursor) (n : Nat) : Cursor :=
  c.skip ((c.rest.take n).takeWhile (· == ' ')).length

/-- Passes a line break, if there is one. Every break reads as a line feed but for the line and the
paragraph separator. -/
def lineBreak (c : Cursor) : List Char × Cursor :=
  match c.rest with
  | '\r' :: '\n' :: _ => (['\n'], c.skip 2)
  | ch :: _ =>
    if ch.toNat == 0x2028 || ch.toNat == 0x2029 then ([ch], c.next)
    else if isBreak ch then (['\n'], c.next)
    else ([], c)
  | [] => ([], c)

/-- Three hyphens or three points stand here alone. In the first column they are a document's
boundary. -/
def atBoundary (c : Cursor) : Bool :=
  match c.rest with
  | '-' :: '-' :: '-' :: rest => isSeparator (rest.headD endMark)
  | '.' :: '.' :: '.' :: rest => isSeparator (rest.headD endMark)
  | _ => false

end Cursor

end TenantSizing.Yaml
