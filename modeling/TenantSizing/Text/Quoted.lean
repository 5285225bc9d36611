import TenantSizing.Text.Printable

namespace TenantSizing.Text

/-- A number in hexadecimal, with zeros in front up to `width` digits. -/
def hex (width n : Nat) : List Char :=
  let digits := Nat.toDigits 16 n
  List.replicate (width - digits.length) '0' ++ digits

/-- The quote in use, the backslash and the characters that cannot be shown are escaped. -/
def quoteChar (quote c : Char) : List Char :=
  if c = quote ∨ c = '\x5c' then ['\x5c', c]
  else if c = '\n' then ['\x5c', 'n']
  else if c = '\r' then ['\x5c', 'r']
  else if c = '\t' then ['\x5c', 't']
  else if isPrintable c then [c]
  else if c.toNat < 0x100 then '\x5c' :: 'x' :: hex 2 c.toNat
  else if c.toNat < 0x10000 then '\x5c' :: 'u' :: hex 4 c.toNat
  else '\x5c' :: 'U' :: hex 8 c.toNat

/-- A text with single quotes inside and no double ones stands in double quotes, any other text in
single ones. -/
def quoted (text : String) : String :=
  let cs := text.toList
  let quote := if cs.contains '\x27' && !cs.contains '\x22' then '\x22' else '\x27'
  String.ofList (quote :: cs.flatMap (quoteChar quote) ++ [quote])

end TenantSizing.Text
