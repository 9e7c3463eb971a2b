/-! Dates and times of day as they stand in data files. -/

namespace Colloquy

/-- A time of day, with the offset from universal time in minutes if one is given. -/
structure Clock where
  hour : Nat
  minute : Nat
  second : Nat
  microsecond : Nat
  offset : Option Int
deriving DecidableEq

/-- A day, with or without a time of day. -/
structure Stamp where
  year : Nat
  month : Nat
  day : Nat
  clock : Option Clock
deriving DecidableEq

namespace Stamp

def padded (width n : Nat) : String :=
  let written := (toString n).toList
  String.ofList (List.replicate (width - written.length) '0' ++ written)

def offsetText (minutes : Int) : String :=
  let n := minutes.natAbs
  (if minutes < 0 then "-" else "+") ++ padded 2 (n / 60) ++ ":" ++ padded 2 (n % 60)

/-- The plain text: date, time of day with its fraction if it has one, offset. -/
def text (s : Stamp) : String :=
  let date := padded 4 s.year ++ "-" ++ padded 2 s.month ++ "-" ++ padded 2 s.day
  match s.clock with
  | none => date
  | some c =>
    date ++ " " ++ padded 2 c.hour ++ ":" ++ padded 2 c.minute ++ ":" ++ padded 2 c.second ++
      (if c.microsecond = 0 then "" else "." ++ padded 6 c.microsecond) ++
      match c.offset with
      | none => ""
      | some m => offsetText m

/-- The zone of an offset as it is shown in full. A negative offset is shown as days and seconds. -/
def zoneText (minutes : Int) : String :=
  if minutes = 0 then "datetime.timezone.utc"
  else
    let span := if minutes < 0 then s!"days=-1, seconds={86400 + minutes * 60}" else s!"seconds={minutes * 60}"
    "datetime.timezone(datetime.timedelta(" ++ span ++ "))"

/-- The text that shows what the value is made of. Seconds and their fraction are left out when they
are zero. -/
def shown (s : Stamp) : String :=
  match s.clock with
  | none => s!"datetime.date({s.year}, {s.month}, {s.day})"
  | some c =>
    let parts := [s.year, s.month, s.day, c.hour, c.minute] ++
      if c.microsecond ≠ 0 then [c.second, c.microsecond]
      else if c.second ≠ 0 then [c.second] else []
    let zone := match c.offset with
      | none => ""
      | some m => ", tzinfo=" ++ zoneText m
    "datetime.datetime(" ++ ", ".intercalate (parts.map toString) ++ zone ++ ")"

/-- The number of days before a year, counted from the first day of the first year. -/
def daysBeforeYear (year : Nat) : Nat :=
  let y := year - 1
  365 * y + y / 4 - y / 100 + y / 400

def isLeap (year : Nat) : Bool := year % 4 == 0 && (year % 100 != 0 || year % 400 == 0)

def daysIn (year month : Nat) : Nat :=
  if month = 2 then if isLeap year then 29 else 28
  else if month = 4 ∨ month = 6 ∨ month = 9 ∨ month = 11 then 30
  else 31

/-- The number of days before a day, counted from the first day of the first year. -/
def daysBefore (s : Stamp) : Nat :=
  let months := (List.range (s.month - 1)).foldl (fun days m => days + daysIn s.year (m + 1)) 0
  daysBeforeYear s.year + months + s.day - 1

/-- Whether two times are equal: with an offset, if they stand for the same moment; without one, if
they are written alike. -/
def same (s t : Stamp) : Bool :=
  match s.clock, t.clock with
  | some c, some d =>
    match c.offset, d.offset with
    | some m, some n => moment s c m == moment t d n && c.second == d.second && c.microsecond == d.microsecond
    | _, _ => s == t
  | _, _ => s == t
where
  /-- The minutes up to a time, in universal time. -/
  moment (s : Stamp) (c : Clock) (offset : Int) : Int :=
    1440 * (s.daysBefore : Int) + 60 * c.hour + c.minute - offset

end Stamp
end Colloquy
