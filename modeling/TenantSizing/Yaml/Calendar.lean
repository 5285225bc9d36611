namespace TenantSizing.Yaml

structure Day where
  year : Nat
  month : Nat
  day : Nat
  deriving DecidableEq, Repr

namespace Day

def isLeap (year : Nat) : Bool :=
  year % 4 == 0 && (year % 100 != 0 || year % 400 == 0)

def daysIn (year month : Nat) : Nat :=
  if month = 2 then (if isLeap year then 29 else 28)
  else if [4, 6, 9, 11].contains month then 30
  else 31

def isValid (d : Day) : Bool :=
  1 ≤ d.year && d.year ≤ 9999 && 1 ≤ d.month && d.month ≤ 12 && 1 ≤ d.day &&
    d.day ≤ daysIn d.year d.month

def ordinal (d : Day) : Nat :=
  let years := d.year - 1
  let before := 365 * years + years / 4 - years / 100 + years / 400
  let months := List.range (d.month - 1)
  months.foldl (fun days month => days + daysIn d.year (month + 1)) before + d.day

end Day

/-- A time of day to the microsecond, with its offset from universal time in minutes. -/
structure Clock where
  hour : Nat
  minute : Nat
  second : Nat
  micros : Nat
  offset : Option Int
  deriving DecidableEq, Repr

namespace Clock

def isValid (c : Clock) : Bool :=
  c.hour < 24 && c.minute < 60 && c.second < 60 && c.offset.all fun o => o.natAbs < 24 * 60

/-- The microseconds of universal time that have gone by. -/
def instant (c : Clock) (d : Day) (offset : Int) : Int :=
  let minutes : Int := (24 * d.ordinal + c.hour) * 60 + c.minute - offset
  (minutes * 60 + c.second) * 1000000 + c.micros

/-- Moments without an offset are told apart by the clock, and are never one with an offset. -/
def sameMoment (a : Day) (s : Clock) (b : Day) (t : Clock) : Bool :=
  match s.offset, t.offset with
  | none, none => a = b ∧ s = t
  | some o, some p => s.instant a o = t.instant b p
  | _, _ => false

end Clock

end TenantSizing.Yaml
