import TenantSizing.Text.Blank
import TenantSizing.Text.Digit
import TenantSizing.Text.Lowercase
import TenantSizing.Yaml.Tag
import TenantSizing.Yaml.Token
import TenantSizing.Yaml.Value

namespace TenantSizing.Yaml

namespace Atom

def boolOf (text : String) : Except Fault Atom :=
  let word := Text.lower text
  if ["yes", "true", "on"].contains word then .ok (.scalar (.bool true))
  else if ["no", "false", "off"].contains word then .ok (.scalar (.bool false))
  else .error .wrongShape

def digitIn? (base : Nat) (c : Char) : Option Nat :=
  let value :=
    if c.isDigit then some (c.toNat - '0'.toNat)
    else if 'a' ≤ c && c ≤ 'z' then some (c.toNat - 'a'.toNat + 10)
    else if 'A' ≤ c && c ≤ 'Z' then some (c.toNat - 'A'.toNat + 10)
    else none
  value.filter (· < base)

/-- A base other than ten may be named by a zero and its letter in front of the digits. -/
def dropBase (base : Nat) (digits : List Char) : List Char :=
  match digits with
  | '0' :: letter :: rest =>
    let letters :=
      if base = 2 then ['b', 'B'] else if base = 8 then ['o', 'O'] else if base = 16 then ['x', 'X']
      else []
    if letters.contains letter then rest else digits
  | _ => digits

/-- Reads a whole number with a sign; white space around it is ignored. -/
def intIn? (base : Nat) (text : List Char) : Option Int :=
  let cs := (Text.trim text).map Text.asciiDigit
  let digits := dropBase base (dropSign cs)
  if digits.isEmpty || (base = 10 && maxDigits < digits.length) then none
  else
    match digits.mapM (digitIn? base) with
    | none => none
    | some values =>
      let n := values.foldl (fun n d => base * n + d) 0
      some (if cs.head? = some '-' then -(n : Int) else n)

def inSixties (places : List Int) : Int :=
  places.foldl (fun n place => 60 * n + place) 0

/-- Reads a whole number; the first characters tell its base. -/
def intOf (text : String) : Except Fault Atom :=
  let cs := text.toList.filter (· ≠ '_')
  match cs with
  | [] => .error .emptyNumber
  | first :: _ =>
    let digits := dropSign cs
    let magnitude : Except Fault (Option Int) :=
      match digits with
      | [] => .error .emptyNumber
      | ['0'] => .ok (some 0)
      | '0' :: 'b' :: rest => .ok (intIn? 2 rest)
      | '0' :: 'x' :: rest => .ok (intIn? 16 rest)
      | '0' :: _ => .ok (intIn? 8 digits)
      | _ => .ok (((splitAt ':' digits).mapM (intIn? 10)).map inSixties)
    match magnitude with
    | .error fault => .error fault
    | .ok none => .error .noSuchValue
    | .ok (some n) => .ok (.scalar (.int (if first = '-' then -n else n)))

def floatIn? (text : List Char) : Option Binary64 :=
  Binary64.read? (String.ofList ((Text.trim text).map Text.asciiDigit))

/-- The sum of the places, each weighing sixty times the one behind it. A weight is rounded before
it counts, and a weight beyond all numbers cannot count. -/
def floatInSixties (places : List Binary64) : Except Fault Binary64 :=
  let count : Binary64 × Nat → Binary64 → Except Fault (Binary64 × Nat) :=
    fun (sum, weight) place =>
      match Binary64.nearest false weight 1 with
      | .infinite _ => .error .numberTooLarge
      | rounded => .ok (sum.add (place.mul rounded), 60 * weight)
  (places.reverse.foldlM count (Binary64.zero false, 1)).map Prod.fst

def floatOf (text : String) : Except Fault Atom :=
  let cs := (Text.lower (String.ofList (text.toList.filter (· ≠ '_')))).toList
  match cs with
  | [] => .error .emptyNumber
  | first :: _ =>
    let digits := dropSign cs
    let signed (x : Binary64) : Atom :=
      .scalar (.float (if first = '-' then x.negate else x))
    if digits = ".inf".toList then .ok (signed (.infinite false))
    else if digits = ".nan".toList then .ok .noNumber
    else if digits.contains ':' then
      match (splitAt ':' digits).mapM floatIn? with
      | some places => signed <$> floatInSixties places
      | none => .error .noSuchValue
    else
      match floatIn? digits with
      | some x => .ok (signed x)
      | none => .error .noSuchValue

/-- The first six digits of a fraction of a second, as microseconds. -/
def microsOf (fraction : List Char) : Nat :=
  let digits := fraction.take 6
  number (digits ++ List.replicate (6 - digits.length) '0')

/-- Reads a date or a moment, which has to exist. A line feed may end it. -/
def timestampOf (text : String) : Except Fault Atom :=
  let cs := text.toList
  let stripped := if cs.getLast? == some '\n' then cs.dropLast else cs
  match readTimestamp? stripped with
  | none => .error .wrongShape
  | some t =>
    let day : Day := { year := t.year, month := number t.month, day := number t.day }
    match t.time with
    | none => if day.isValid then .ok (.date day) else .error .noSuchValue
    | some (hour, minute, second, fraction) =>
      let clock : Clock :=
        { hour, minute, second, micros := microsOf fraction, offset := t.zone }
      if day.isValid && clock.isValid then .ok (.moment day clock)
      else .error .noSuchValue

def sixBits? (c : Char) : Option Nat :=
  if 'A' ≤ c && c ≤ 'Z' then some (c.toNat - 'A'.toNat)
  else if 'a' ≤ c && c ≤ 'z' then some (c.toNat - 'a'.toNat + 26)
  else if c.isDigit then some (c.toNat - '0'.toNat + 52)
  else if c == '+' then some 62
  else if c == '/' then some 63
  else none

/-- Reads letters in groups of four; other characters are passed over, and padding ends the text
once it completes a group. `place` counts the letters of the open group and `pads` its padding. -/
def base64 (place pads : Nat) : List Char → Option (List Nat)
  | [] => if place = 0 then some [] else none
  | c :: rest =>
    match sixBits? c with
    | some bits => (base64 ((place + 1) % 4) 0 rest).map (bits :: ·)
    | none =>
      if c == '=' && 2 ≤ place then
        if 4 ≤ place + pads + 1 then some [] else base64 place (pads + 1) rest
      else base64 place pads rest

/-- Puts groups of four times six bits together to bytes. Bits left over are dropped. -/
def packed : List Nat → List UInt8
  | a :: b :: c :: d :: rest =>
    (4 * a + b / 16).toUInt8 :: (16 * b + c / 4).toUInt8 :: (64 * c + d).toUInt8 :: packed rest
  | [a, b, c] => [(4 * a + b / 16).toUInt8, (16 * b + c / 4).toUInt8]
  | [a, b] => [(4 * a + b / 16).toUInt8]
  | _ => []

def binaryOf (text : String) : Except Fault Atom :=
  if text.toList.all fun c => c.toNat < 0x80 then
    match base64 0 0 text.toList with
    | some letters => .ok (.bytes (packed letters))
    | none => .error .malformed
  else .error .malformed

/-- The value of a text under a tag. The tags of collections and unknown tags have none. -/
def ofText (tag : Tag) (text : String) : Except Fault Atom :=
  match tag with
  | .null => .ok (.scalar .null)
  | .bool => boolOf text
  | .int => intOf text
  | .float => floatOf text
  | .binary => binaryOf text
  | .timestamp => timestampOf text
  | .str => .ok (.scalar (.text text))
  | _ => .error .malformed

end Atom

end TenantSizing.Yaml
