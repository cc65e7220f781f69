import Micro6502.Text.Hex

namespace Micro6502

structure Date where
  year : Nat
  month : Nat
  day : Nat
  deriving DecidableEq, Repr

/-- The offset from universal time is in minutes, and is none where a time names no zone. -/
structure TimeOfDay where
  hour : Nat
  minute : Nat
  second : Nat
  microsecond : Nat
  offset? : Option Int
  deriving DecidableEq, Repr

structure Moment where
  date : Date
  time? : Option TimeOfDay
  deriving DecidableEq, Repr

inductive NoMoment where
  | year (n : Nat)
  | month
  | day
  | hour
  | minute
  | second
  /-- The zone is a day or more away. -/
  | offset (minutes : Int)
  deriving DecidableEq, Repr

namespace Moment

/-- A count of seconds as whole days, which may be negative, and seconds of a day. -/
def durationText (seconds : Int) : String :=
  let days := seconds / 86400
  let rest := seconds % 86400
  let parts := (if days = 0 then [] else [s!"days={days}"]) ++
    (if rest = 0 then [] else [s!"seconds={rest}"])
  let listed := if parts.isEmpty then "0" else ", ".intercalate parts
  s!"datetime.timedelta({listed})"

end Moment

def NoMoment.message : NoMoment → String
  | year n => s!"year {n} is out of range"
  | month => "month must be in 1..12"
  | day => "day is out of range for month"
  | hour => "hour must be in 0..23"
  | minute => "minute must be in 0..59"
  | second => "second must be in 0..59"
  | offset minutes =>
    "offset must be a timedelta strictly between -timedelta(hours=24) and timedelta(hours=24), " ++
      s!"not {Moment.durationText (60 * minutes)}."

namespace Date

def isLeap (year : Nat) : Bool :=
  year % 4 == 0 && (year % 100 != 0 || year % 400 == 0)

def daysIn (year : Nat) : Nat → Nat
  | 2 => if isLeap year then 29 else 28
  | 4 | 6 | 9 | 11 => 30
  | _ => 31

def check (d : Date) : Except NoMoment Unit := do
  if d.year = 0 then throw (.year d.year)
  if d.month = 0 ∨ 12 < d.month then throw .month
  if d.day = 0 ∨ daysIn d.year d.month < d.day then throw .day

/-- The days of all years and months before this day, counted from the first day of year 1. -/
def ordinal (d : Date) : Int :=
  let y := d.year - 1
  let months := ((List.range d.month).drop 1).map (daysIn d.year)
  let before : Nat := months.foldl (· + ·) 0
  y * 365 + y / 4 - y / 100 + y / 400 + before + d.day

def places (width n : Nat) : String :=
  let digits := toString n
  "".pushn '0' (width - digits.length) ++ digits

def text (d : Date) : String := s!"{places 4 d.year}-{places 2 d.month}-{places 2 d.day}"

end Date

namespace TimeOfDay

def check (t : TimeOfDay) : Except NoMoment Unit := do
  if 23 < t.hour then throw .hour
  if 59 < t.minute then throw .minute
  if 59 < t.second then throw .second

def offsetText (minutes : Int) : String :=
  let n := minutes.natAbs
  (if minutes < 0 then "-" else "+") ++ s!"{Date.places 2 (n / 60)}:{Date.places 2 (n % 60)}"

def text (t : TimeOfDay) : String :=
  s!"{Date.places 2 t.hour}:{Date.places 2 t.minute}:{Date.places 2 t.second}" ++
    (if t.microsecond = 0 then "" else "." ++ Date.places 6 t.microsecond) ++
    (t.offset?.map offsetText).getD ""

/-- The arguments that name the time; zeros at the end are left out from the seconds on. -/
def parts (t : TimeOfDay) : List String :=
  [toString t.hour, toString t.minute] ++
    (if t.second = 0 ∧ t.microsecond = 0 then [] else [toString t.second]) ++
    (if t.microsecond = 0 then [] else [toString t.microsecond]) ++
    match t.offset? with
    | none => []
    | some 0 => ["tzinfo=datetime.timezone.utc"]
    | some minutes => [s!"tzinfo=datetime.timezone({Moment.durationText (60 * minutes)})"]

/-- Microseconds since midnight, by universal time where the zone is known. -/
def instant (t : TimeOfDay) : Int :=
  (((t.hour * 60 + t.minute : Nat) - t.offset?.getD 0) * 60 + t.second) * 1000000 + t.microsecond

end TimeOfDay

namespace Moment

/-- A moment that exists; a zone that is too far away is told first. -/
def ofParts (date : Date) (time? : Option TimeOfDay) : Except NoMoment Moment := do
  if let some minutes := time?.bind (·.offset?) then
    if 24 * 60 ≤ minutes.natAbs then throw (.offset minutes)
  date.check
  if let some t := time? then t.check
  return ⟨date, time?⟩

def text (m : Moment) : String :=
  match m.time? with
  | none => m.date.text
  | some t => s!"{m.date.text} {t.text}"

def inner (m : Moment) : String :=
  let parts := [toString m.date.year, toString m.date.month, toString m.date.day]
  let listed := ", ".intercalate (parts ++ (m.time?.map TimeOfDay.parts).getD [])
  if m.time?.isSome then s!"datetime.datetime({listed})" else s!"datetime.date({listed})"

/-- Whether two moments are the same: both dates, or both times with the zone known in both or in
neither, at the same instant. -/
def same (a b : Moment) : Bool :=
  match a.time?, b.time? with
  | none, none => a.date == b.date
  | some t, some u =>
    t.offset?.isSome == u.offset?.isSome &&
      a.date.ordinal * 86400000000 + t.instant == b.date.ordinal * 86400000000 + u.instant
  | _, _ => false

def spanDigits (most : Nat) (cs : List Char) : List Char × List Char :=
  let digits := (cs.take most).takeWhile Char.isDigit
  (digits, cs.drop digits.length)

def number? (least most : Nat) (cs : List Char) : Option (Nat × List Char) :=
  let (digits, rest) := spanDigits most cs
  if digits.length < least then none
  else some (digits.foldl (fun n c => n * 10 + (c.toNat - '0'.toNat)) 0, rest)

def isGap (c : Char) : Bool := c == ' ' || c == '\t'

def past? (c : Char) : List Char → Option (List Char)
  | d :: rest => if c = d then some rest else none
  | [] => none

/-- A zone at the end of a text: `Z`, or hours and perhaps minutes behind a sign. -/
def zone? (cs : List Char) : Option (Option Int) :=
  if cs.isEmpty then some none
  else
    match cs.dropWhile isGap with
    | ['Z'] => some (some 0)
    | sign :: rest => do
      if sign ≠ '-' ∧ sign ≠ '+' then none
      let (hours, rest) ← number? 1 2 rest
      let minutes ←
        if rest.isEmpty then some 0
        else do
          let (minutes, rest) ← number? 2 2 (← past? ':' rest)
          if rest.isEmpty then some minutes else none
      let offset : Int := hours * 60 + minutes
      some (some (if sign = '-' then -offset else offset))
    | [] => none

def timeOfDay? (cs : List Char) : Option TimeOfDay := do
  let (hour, rest) ← number? 1 2 cs
  let (minute, rest) ← number? 2 2 (← past? ':' rest)
  let (second, rest) ← number? 2 2 (← past? ':' rest)
  let (fraction, rest) := match rest with
    | '.' :: rest => (rest.takeWhile Char.isDigit, rest.dropWhile Char.isDigit)
    | rest => ([], rest)
  let (microsecond, _) ← number? 6 6 (fraction ++ List.replicate 6 '0')
  let offset? ← zone? rest
  some { hour, minute, second, microsecond, offset? }

def parts? (cs : List Char) : Option (Date × Option TimeOfDay) := do
  let (year, rest) ← number? 4 4 cs
  let (month, rest) ← number? 1 2 (← past? '-' rest)
  let (day, rest) ← number? 1 2 (← past? '-' rest)
  let date : Date := { year, month, day }
  match rest with
  | [] => some (date, none)
  | c :: more =>
    if c = 'T' ∨ c = 't' then (timeOfDay? more).map fun t => (date, some t)
    else if isGap c then (timeOfDay? (more.dropWhile isGap)).map fun t => (date, some t)
    else none

/-- Whether a text is written as a moment; a date alone has all its zeros. -/
def isWritten (cs : List Char) : Bool :=
  match parts? cs with
  | some (_, none) => cs.length == 10
  | some (_, some _) => true
  | none => false

end Moment

end Micro6502
