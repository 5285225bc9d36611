import TenantSizing.Number.Decimal
import TenantSizing.Number.Power
import TenantSizing.Number.Rounding
import TenantSizing.Text.Blank
import TenantSizing.Text.Digit

namespace TenantSizing

/-- The number `coefficient` · 10 ^ `exponent`. No factor of ten is left in the coefficient, so
equal numbers are equal quantities. -/
structure Quantity where
  coefficient : Int
  exponent : Int
  normal : coefficient = 0 ∧ exponent = 0 ∨ coefficient % 10 ≠ 0
  deriving DecidableEq, Repr

namespace Quantity

def zero : Quantity := ⟨0, 0, .inl ⟨rfl, rfl⟩⟩

def ofScaled (c e : Int) : Quantity :=
  if zero : c = 0 then .zero
  else if tens : c % 10 = 0 then ofScaled (c / 10) (e + 1)
  else ⟨c, e, .inr tens⟩
termination_by c.natAbs
decreasing_by omega

def ofInt (n : Int) : Quantity :=
  ofScaled n 0

def ofDecimal (d : Decimal) : Quantity :=
  ofScaled (if d.negative then -d.coefficient else d.coefficient) d.exponent

/-- Tells whether `m` · 10 ^ `e` is less than `n` · 10 ^ `f`. Where the leading digits differ in
position no power of ten is computed. -/
def magnitudeLt (m : Nat) (e : Int) (n : Nat) (f : Int) : Bool :=
  if m = 0 then n ≠ 0
  else if n = 0 then false
  else
    let a := e + Decimal.width m
    let b := f + Decimal.width n
    if a = b then m * tenTo (e - f).toNat < n * tenTo (f - e).toNat else a < b

def lt (p q : Quantity) : Bool :=
  match decide (p.coefficient < 0), decide (q.coefficient < 0) with
  | true, true =>
    magnitudeLt q.coefficient.natAbs q.exponent p.coefficient.natAbs p.exponent
  | true, false => true
  | false, true => false
  | false, false =>
    magnitudeLt p.coefficient.natAbs p.exponent q.coefficient.natAbs q.exponent

def toText (q : Quantity) : String :=
  toString q.coefficient ++ "e" ++ toString q.exponent

/-- A suffix multiplies by a power of 1000 or, with an `i` behind it, of 1024. -/
structure Suffix where
  letter : Char
  binary : Bool
  deriving DecidableEq, Repr

def Suffix.power? : Char → Option Int
  | 'n' => some (-3)
  | 'u' => some (-2)
  | 'm' => some (-1)
  | 'k' => some 1
  | 'K' => some 1
  | 'M' => some 2
  | 'G' => some 3
  | 'T' => some 4
  | 'P' => some 5
  | 'E' => some 6
  | _ => none

/-- The multiplier of a suffix as coefficient and power of ten. There is no binary multiplier
below 1024, nor one for the small `k`. -/
def Suffix.multiplier? (s : Suffix) : Option (Nat × Int) :=
  match Suffix.power? s.letter with
  | none => none
  | some power =>
    if s.binary then
      if power < 0 ∨ s.letter = 'k' then none else some (twoTo (10 * power.toNat), 0)
    else some (1, 3 * power)

/-- Splits a text into its number and its suffix. A final `i` belongs to a suffix only behind a
suffix letter. -/
def splitSuffix (text : List Char) : List Char × Option Suffix :=
  match text.reverse with
  | 'i' :: letter :: rest =>
    if (Suffix.power? letter).isSome then (rest.reverse, some ⟨letter, true⟩) else (text, none)
  | letter :: rest =>
    if (Suffix.power? letter).isSome then (rest.reverse, some ⟨letter, false⟩) else (text, none)
  | [] => (text, none)

/-- The largest exponent of a leading digit that a numeral may have. -/
def maxAdjusted : Int := 999999999999999999

/-- The least exponent of a last digit that a numeral may have. -/
def minExponent : Int := -1999999999999999997

/-- Reads the number of a quantity. White space around it and all underscores are ignored, and the
digits may be of any script. -/
def readNumber? (text : List Char) : Option Decimal :=
  let digits := ((Text.trim text).filter (· ≠ '_')).map Text.asciiDigit
  match Decimal.read? digits with
  | none => none
  | some d => if d.adjusted ≤ maxAdjusted ∧ minExponent ≤ d.exponent then some d else none

/-- How many digits a product keeps. -/
def precision : Nat := 28

/-- The exponents that the leading digit of a product may have. -/
def productLimit : Int := 999999

/-- Rounds `c` · 10 ^ `e` to 28 digits, and below 10 ^ -999999 to the last digit at 10 ^ -1000026.
A product beyond the limit is no quantity. -/
def roundProduct? (negative : Bool) (c : Nat) (e : Int) : Option Quantity :=
  if c = 0 then some .zero
  else
    let lead := e + Decimal.width c - 1
    if productLimit < lead then none
    else
      let last :=
        if lead < -productLimit then -productLimit - precision + 1
        else lead - precision + 1
      let (c, e) :=
        if last ≤ e then (c, e)
        else if lead + 1 < last then (0, last)
        else (roundHalfEven c (tenTo (last - e).toNat), last)
      if c ≠ 0 ∧ productLimit < e + Decimal.width c - 1 then none
      else some (ofScaled (if negative then -c else c) e)

/-- Reads a text as a quantity: white space around it is ignored, a suffix multiplies. -/
def read? (text : String) : Option Quantity :=
  let (number, suffix) := splitSuffix (Text.trim text.toList)
  match readNumber? number, suffix with
  | none, _ => none
  | some d, none => some (ofDecimal d)
  | some d, some s =>
    match s.multiplier? with
    | none => none
    | some (factor, power) => roundProduct? d.negative (d.coefficient * factor) (d.exponent + power)

end Quantity

end TenantSizing
