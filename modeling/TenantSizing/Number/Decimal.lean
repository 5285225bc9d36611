namespace TenantSizing

/-- The numeral ± `coefficient` · 10 ^ `exponent`. The sign of zero is kept. -/
structure Decimal where
  negative : Bool
  coefficient : Nat
  exponent : Int
  deriving DecidableEq, Repr

namespace Decimal

def ofDigits (digits : List Char) : Nat :=
  digits.foldl (fun n d => 10 * n + (d.toNat - '0'.toNat)) 0

def width (n : Nat) : Nat :=
  (Nat.toDigits 10 n).length

/-- The exponent of the leading digit. -/
def adjusted (d : Decimal) : Int :=
  d.exponent + width d.coefficient - 1

/-- Splits off a sign; no sign means a positive number. -/
def takeSign : List Char → Bool × List Char
  | '-' :: rest => (true, rest)
  | '+' :: rest => (false, rest)
  | rest => (false, rest)

/-- Reads the power of ten that ends a numeral. Nothing at all is the power zero. -/
def readPower? : List Char → Option Int
  | [] => some 0
  | c :: rest =>
    if c = 'e' ∨ c = 'E' then
      let (negative, digits) := takeSign rest
      if digits.isEmpty || !digits.all Char.isDigit then none
      else if negative then some (-(ofDigits digits : Int))
      else some (ofDigits digits)
    else none

def takeFraction : List Char → List Char × List Char
  | '.' :: rest => (rest.takeWhile Char.isDigit, rest.dropWhile Char.isDigit)
  | rest => ([], rest)

/-- Reads a whole text as one numeral; it needs a digit before the power of ten. -/
def read? (text : List Char) : Option Decimal :=
  let (negative, body) := takeSign text
  let whole := body.takeWhile Char.isDigit
  let (fraction, power) := takeFraction (body.dropWhile Char.isDigit)
  if whole.isEmpty && fraction.isEmpty then none
  else (readPower? power).map fun e =>
    { negative, coefficient := ofDigits (whole ++ fraction), exponent := e - fraction.length }

end Decimal

end TenantSizing
