import TenantSizing.Number.Decimal
import TenantSizing.Number.Power
import TenantSizing.Number.Rounding

namespace TenantSizing

/-- A binary floating-point number of 64 bits. A finite one is ± `mantissa` · 2 ^ `exponent` in
lowest terms, so two of one sign are equal only if they are the same. -/
inductive Binary64 where
  | finite (negative : Bool) (mantissa : Nat) (exponent : Int)
      (lowest : mantissa % 2 = 1 ∨ mantissa = 0 ∧ exponent = 0)
  | infinite (negative : Bool)
  | nan
  deriving DecidableEq, Repr

namespace Binary64

/-- Moves the factors of two of `m` into the exponent. -/
def halve (m : Nat) (e : Int) : Nat × Int :=
  if h : m ≠ 0 ∧ m % 2 = 0 then halve (m / 2) (e + 1) else (m, e)
termination_by m
decreasing_by omega

theorem odd_halve {m : Nat} (h : m ≠ 0) (e : Int) : (halve m e).1 % 2 = 1 := by
  induction m, e using halve.induct with
  | case1 m e even ih =>
    rw [halve, dif_pos even]
    exact ih (by omega)
  | case2 m e odd =>
    rw [halve, dif_neg odd]
    omega

def zero (negative : Bool) : Binary64 :=
  .finite negative 0 0 (.inr ⟨rfl, rfl⟩)

def ofScaled (negative : Bool) (m : Nat) (e : Int) : Binary64 :=
  if h : m = 0 then .zero negative
  else .finite negative (halve m e).1 (halve m e).2 (.inl (odd_halve h e))

/-- The largest `e` with 2 ^ `e` ≤ `num / den`, for positive `num` and `den`. -/
def floorLog2 (num den : Nat) : Int :=
  let guess : Int := (num.log2 : Int) - den.log2
  let reached :=
    if 0 ≤ guess then den * twoTo guess.toNat ≤ num else den ≤ num * twoTo (-guess).toNat
  if reached then guess else guess - 1

/-- The exponent of the last bit kept of a number whose leading bit has exponent `e`. -/
def lastBit (e : Int) : Int :=
  max (e - 52) (-1074)

/-- The number nearest to ± `num / den`; a tie goes to the even mantissa, and what rounds to
2 ^ 1024 or more is infinite. -/
def nearest (negative : Bool) (num den : Nat) : Binary64 :=
  if num = 0 then .zero negative
  else
    let q := lastBit (floorLog2 num den)
    let m :=
      if 0 ≤ q then roundHalfEven num (den * twoTo q.toNat)
      else roundHalfEven (num * twoTo (-q).toNat) den
    if 1024 ≤ (m.log2 : Int) + q then .infinite negative else ofScaled negative m q

/-- The number nearest to a numeral. Numerals beyond 10 ^ 310 or below 10 ^ -330 need no
arithmetic, so a huge power of ten costs nothing. -/
def ofDecimal (d : Decimal) : Binary64 :=
  if d.coefficient = 0 then .zero d.negative
  else if 310 < d.adjusted then .infinite d.negative
  else if d.adjusted < -330 then .zero d.negative
  else if 0 ≤ d.exponent then nearest d.negative (d.coefficient * tenTo d.exponent.toNat) 1
  else nearest d.negative d.coefficient (tenTo (-d.exponent).toNat)

/-- Reads a numeral, an infinity or `nan`; the words are in lower case. -/
def read? (text : String) : Option Binary64 :=
  let (negative, body) := Decimal.takeSign text.toList
  if body = "inf".toList ∨ body = "infinity".toList then some (.infinite negative)
  else if body = "nan".toList then some .nan
  else (Decimal.read? text.toList).map ofDecimal

/-- The numbers that read as ± `m` · 2 ^ `q` lie between `low / den` and `high / den`, where
`value / den` is the number itself. The ends belong to them iff `m` is even. -/
structure Span where
  low : Nat
  value : Nat
  high : Nat
  den : Nat
  closed : Bool

/-- The gap below a power of two is half as wide as the gap above it. -/
def span (mantissa : Nat) (exponent : Int) : Span :=
  let q := lastBit ((mantissa.log2 : Int) + exponent)
  let m := mantissa * twoTo (exponent - q).toNat
  let below := if m = twoTo 52 ∧ -1074 < q then 1 else 2
  let scale := twoTo (q - 2).toNat
  { low := (4 * m - below) * scale, value := 4 * m * scale, high := (4 * m + 2) * scale,
    den := twoTo (2 - q).toNat, closed := m % 2 = 0 }

def Span.holds (s : Span) (num den : Nat) : Bool :=
  if s.closed then s.low * den ≤ num * s.den && num * s.den ≤ s.high * den
  else s.low * den < num * s.den && num * s.den < s.high * den

/-- The neighbour of the number on the grid of the multiples of 10 ^ `e` that reads back; of two
such the nearer, and of two equally near ones the even. -/
def Span.onGrid? (s : Span) (e : Int) : Option Nat :=
  let up := tenTo e.toNat
  let down := tenTo (-e).toNat
  let low := s.value * down / (s.den * up)
  match s.holds (low * up) down, s.holds ((low + 1) * up) down with
  | true, true => some (roundHalfEven (s.value * down) (s.den * up))
  | true, false => some low
  | false, true => some (low + 1)
  | false, false => none

/-- Tries ever finer grids, beginning with the one of `e`. Seventeen digits always suffice. -/
def Span.shortest (s : Span) (e : Int) : Nat → Nat × Int
  | 0 => (s.value / s.den, 0)
  | steps + 1 =>
    match s.onGrid? e with
    | some coefficient => (coefficient, e)
    | none => s.shortest (e - 1) steps

/-- The exponent of the leading decimal digit of `num / den`. -/
def floorLog10 (num den : Nat) : Int :=
  if den ≤ num then Decimal.width (num / den) - 1
  else
    let up : Int := Decimal.width (den / num)
    if den ≤ num * tenTo (up - 1).toNat then 1 - up else -up

def dropZeros (m : Nat) (e : Int) : Nat × Int :=
  if h : m ≠ 0 ∧ m % 10 = 0 then dropZeros (m / 10) (e + 1) else (m, e)
termination_by m
decreasing_by omega

/-- The shortest decimal coefficient and exponent that read back as
± `mantissa` · 2 ^ `exponent`. -/
def shortestDigits (mantissa : Nat) (exponent : Int) : Nat × Int :=
  if mantissa = 0 then (0, 0)
  else
    let s := span mantissa exponent
    let (c, e) := s.shortest (floorLog10 s.value s.den) 20
    dropZeros c e

def toDecimal? : Binary64 → Option Decimal
  | .finite negative mantissa exponent _ =>
    let (coefficient, e) := shortestDigits mantissa exponent
    some { negative, coefficient, exponent := e }
  | _ => none

/-- Positional notation is used while the leading digit has an exponent from -4 to 15, and then a
whole number keeps a `.0`; otherwise the exponent is written with a sign and two digits or more. -/
def layout (coefficient : Nat) (exponent : Int) : String :=
  let digits := Nat.toDigits 10 coefficient
  let point : Int := digits.length + exponent
  if -4 < point ∧ point ≤ 16 then
    if point ≤ 0 then "0." ++ String.ofList (List.replicate (-point).toNat '0' ++ digits)
    else if 0 ≤ exponent then
      String.ofList (digits ++ List.replicate exponent.toNat '0') ++ ".0"
    else
      String.ofList (digits.take point.toNat) ++ "." ++ String.ofList (digits.drop point.toNat)
  else
    let lead := String.ofList (digits.take 1)
    let rest := String.ofList (digits.drop 1)
    let power := point - 1
    let width := Nat.toDigits 10 power.natAbs
    let padded := List.replicate (2 - width.length) '0' ++ width
    lead ++ (if rest.isEmpty then "" else "." ++ rest) ++ "e" ++ (if power < 0 then "-" else "+")
      ++ String.ofList padded

def toText : Binary64 → String
  | .finite negative mantissa exponent _ =>
    let (c, e) := shortestDigits mantissa exponent
    (if negative then "-" else "") ++ (if mantissa = 0 then "0.0" else layout c e)
  | .infinite negative => if negative then "-inf" else "inf"
  | .nan => "nan"

/-- Equality of values: the two zeros are equal, and `nan` equals nothing. -/
def same : Binary64 → Binary64 → Bool
  | .finite s m e _, .finite t n f _ => m = n ∧ e = f ∧ (s = t ∨ m = 0)
  | .infinite s, .infinite t => s = t
  | _, _ => false

def sameInt : Binary64 → Int → Bool
  | .finite negative mantissa exponent _, n =>
    let magnitude : Nat := mantissa * twoTo exponent.toNat
    0 ≤ exponent ∧ (if negative then -(magnitude : Int) else magnitude) = n
  | _, _ => false

def isZero : Binary64 → Bool
  | .finite _ 0 _ _ => true
  | _ => false

/-- The sum, rounded to nearest; used for numbers of base sixty. -/
def add : Binary64 → Binary64 → Binary64
  | .finite s m e _, .finite t n f _ =>
    let low := min e f
    let signed (negative : Bool) (mantissa : Nat) (exponent : Int) : Int :=
      let magnitude : Nat := mantissa * twoTo (exponent - low).toNat
      if negative then -(magnitude : Int) else magnitude
    let sum := signed s m e + signed t n f
    if 0 ≤ low then nearest (sum < 0) (sum.natAbs * twoTo low.toNat) 1
    else nearest (sum < 0) sum.natAbs (twoTo (-low).toNat)
  | .nan, _ => .nan
  | _, .nan => .nan
  | .infinite s, .infinite t => if s = t then .infinite s else .nan
  | .infinite s, _ => .infinite s
  | _, .infinite t => .infinite t

def isNegative : Binary64 → Bool
  | .finite negative _ _ _ => negative
  | .infinite negative => negative
  | .nan => false

def mul : Binary64 → Binary64 → Binary64
  | .finite s m e _, .finite t n f _ =>
    let exponent := e + f
    if 0 ≤ exponent then nearest (s != t) (m * n * twoTo exponent.toNat) 1
    else nearest (s != t) (m * n) (twoTo (-exponent).toNat)
  | .nan, _ => .nan
  | _, .nan => .nan
  | x, y => if x.isZero || y.isZero then .nan else .infinite (x.isNegative != y.isNegative)

def negate : Binary64 → Binary64
  | .finite negative mantissa exponent lowest => .finite (!negative) mantissa exponent lowest
  | .infinite negative => .infinite (!negative)
  | .nan => .nan

end Binary64

end TenantSizing
