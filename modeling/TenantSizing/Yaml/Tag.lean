import TenantSizing.Yaml.Cursor

namespace TenantSizing.Yaml

inductive Tag where
  | null
  | bool
  | int
  | float
  | binary
  | timestamp
  | omap
  | pairs
  | set
  | str
  | seq
  | map
  /-- The key `<<`, which merges other maps into its own. -/
  | merge
  /-- The key `=`, which holds the value of a map that stands for a scalar. -/
  | value
  | other (name : String)
  deriving DecidableEq, Repr

namespace Tag

def ofName (name : String) : Tag :=
  let known := [("null", Tag.null), ("bool", .bool), ("int", .int), ("float", .float),
    ("binary", .binary), ("timestamp", .timestamp), ("omap", .omap), ("pairs", .pairs),
    ("set", .set), ("str", .str), ("seq", .seq), ("map", .map), ("merge", .merge),
    ("value", .value)]
  match known.find? fun entry => "tag:yaml.org,2002:" ++ entry.1 == name with
  | some entry => entry.2
  | none => .other name

end Tag

def isDigitOr_ (c : Char) : Bool :=
  c.isDigit || c == '_'

def isCount (cs : List Char) : Bool :=
  match cs with
  | c :: rest => c.isDigit && rest.all isDigitOr_
  | [] => false

def dropSign : List Char → List Char
  | '-' :: rest => rest
  | '+' :: rest => rest
  | rest => rest

def isSixtieth : List Char → Bool
  | [c] => c.isDigit
  | [c, d] => '0' ≤ c && c ≤ '5' && d.isDigit
  | _ => false

def splitAt (separator : Char) : List Char → List (List Char)
  | [] => [[]]
  | c :: rest =>
    if c == separator then [] :: splitAt separator rest
    else
      match splitAt separator rest with
      | first :: others => (c :: first) :: others
      | [] => [[c]]

def isBoolWord (cs : List Char) : Bool :=
  ["yes", "Yes", "YES", "no", "No", "NO", "true", "True", "TRUE", "false", "False", "FALSE", "on",
    "On", "ON", "off", "Off", "OFF"].any fun word => word.toList == cs

def isNullWord (cs : List Char) : Bool :=
  ["~", "null", "Null", "NULL", ""].any fun word => word.toList == cs

/-- A power of ten needs its sign. -/
def isPower : List Char → Bool
  | [] => true
  | c :: sign :: digits =>
    (c == 'e' || c == 'E') && (sign == '-' || sign == '+') && !digits.isEmpty &&
      digits.all Char.isDigit
  | _ => false

def isFraction (cs : List Char) : Bool :=
  isPower (cs.dropWhile isDigitOr_)

/-- A number with a point, which may have a power of ten or a whole part in base sixty, or an
infinity or no number at all. A number without a whole part has no sign. -/
def isFloatForm (cs : List Char) : Bool :=
  let unsigned := dropSign cs
  let whole := unsigned.takeWhile (· != '.')
  let infinity := [".inf", ".Inf", ".INF"].any fun word => word.toList == unsigned
  let noNumber := [".nan", ".NaN", ".NAN"].any fun word => word.toList == cs
  match unsigned.dropWhile (· != '.') with
  | [] => false
  | _ :: fraction =>
    infinity || noNumber ||
    (if whole.isEmpty then
      cs.head? == some '.' && (fraction.headD endMark).isDigit && isFraction fraction
    else
      match splitAt ':' whole with
      | [count] => isCount count && isFraction fraction
      | count :: sixtieths =>
        isCount count && sixtieths.all isSixtieth && fraction.all isDigitOr_
      | [] => false)

/-- A whole number in base two, eight, ten, sixteen or sixty. -/
def isIntForm (cs : List Char) : Bool :=
  match dropSign cs with
  | ['0'] => true
  | '0' :: 'b' :: digits => !digits.isEmpty && digits.all fun c => c == '0' || c == '1' || c == '_'
  | '0' :: 'x' :: digits => !digits.isEmpty && digits.all fun c => isHexDigit c || c == '_'
  | '0' :: digits => digits.all fun c => ('0' ≤ c && c ≤ '7') || c == '_'
  | c :: rest =>
    match splitAt ':' (c :: rest) with
    | count :: sixtieths => isCount count && sixtieths.all isSixtieth
    | [] => false
  | [] => false

structure Timestamp where
  year : Nat
  month : List Char
  day : List Char
  time : Option (Nat × Nat × Nat × List Char)
  /-- The offset from universal time in minutes. -/
  zone : Option Int

def digitRun (most : Nat) (cs : List Char) : List Char × List Char :=
  let run := (cs.take most).takeWhile Char.isDigit
  (run, cs.drop run.length)

def number (digits : List Char) : Nat :=
  digits.foldl (fun n d => 10 * n + (d.toNat - '0'.toNat)) 0

def isTimeBlank (c : Char) : Bool :=
  c == ' ' || c == '\t'

/-- Reads a time zone; nothing at all is no zone. -/
def readZone? (cs : List Char) : Option (Option Int) :=
  match cs with
  | [] => some none
  | _ =>
    match cs.dropWhile isTimeBlank with
    | ['Z'] => some (some 0)
    | sign :: rest =>
      if sign == '-' || sign == '+' then
        let (hours, rest) := digitRun 2 rest
        let minutes? := match rest with
          | [] => some 0
          | [':', a, b] => if a.isDigit && b.isDigit then some (number [a, b]) else none
          | _ => none
        match minutes? with
        | some minutes =>
          if hours.isEmpty then none
          else
            let offset : Int := 60 * number hours + minutes
            some (some (if sign == '-' then -offset else offset))
        | none => none
      else none
    | [] => none

def readTime? (cs : List Char) : Option ((Nat × Nat × Nat × List Char) × Option Int) := do
  let (hour, rest) := digitRun 2 cs
  if hour.isEmpty then none
  match rest with
  | ':' :: a :: b :: ':' :: c :: d :: rest =>
    if [a, b, c, d].all Char.isDigit then
      let (fraction, rest) := match rest with
        | '.' :: rest => (rest.takeWhile Char.isDigit, rest.dropWhile Char.isDigit)
        | rest => ([], rest)
      let zone ← readZone? rest
      pure ((number hour, number [a, b], number [c, d], fraction), zone)
    else none
  | _ => none

/-- Reads a date, or a date and a time with a `T` or blanks between them. -/
def readTimestamp? (cs : List Char) : Option Timestamp :=
  let (year, rest) := digitRun 4 cs
  match rest with
  | '-' :: rest =>
    let (month, rest) := digitRun 2 rest
    match rest with
    | '-' :: rest =>
      let (day, rest) := digitRun 2 rest
      if year.length != 4 || month.isEmpty || day.isEmpty then none
      else
        let behind := match rest with
          | 'T' :: time => some time
          | 't' :: time => some time
          | c :: _ => if isTimeBlank c then some (rest.dropWhile isTimeBlank) else none
          | [] => none
        match rest, behind with
        | [], _ => some { year := number year, month, day, time := none, zone := none }
        | _, some time =>
          (readTime? time).map fun (time, zone) =>
            { year := number year, month, day, time := some time, zone }
        | _, none => none
    | _ => none
  | _ => none

/-- A date alone needs two digits for month and day. -/
def isTimestampForm (cs : List Char) : Bool :=
  match readTimestamp? cs with
  | some t => t.time.isSome || (t.month.length == 2 && t.day.length == 2)
  | none => false

/-- The tag of a form. The signs of tags, anchors and aliases have one that stands for no value. -/
def formTag? (cs : List Char) : Option Tag :=
  if isBoolWord cs then some .bool
  else if isFloatForm cs then some .float
  else if isIntForm cs then some .int
  else if cs == ['<', '<'] then some .merge
  else if isNullWord cs then some .null
  else if isTimestampForm cs then some .timestamp
  else if cs == ['='] then some .value
  else if [['!'], ['&'], ['*']].contains cs then some (.other "tag:yaml.org,2002:yaml")
  else none

/-- The tag of a plain scalar. A form may be followed by one line feed. -/
def plainTag (text : String) : Tag :=
  let cs := text.toList
  let stripped := if cs.length != 1 && cs.getLast? == some '\n' then cs.dropLast else cs
  match formTag? cs with
  | some tag => tag
  | none => (formTag? stripped).getD .str

end TenantSizing.Yaml
