import Colloquy.Data.Json
import Colloquy.Failure
import Colloquy.Log.Record

/-! Records as text: coloured for the terminal, plain for files, and as JSON. -/

namespace Colloquy.Log

/-- A moment as the kinds of lines write it: with its offset from universal time, with the date, and
as a time of day alone. -/
structure Moment where
  universal : String
  dated : String
  clock : String

def timeText (c : Clock) : String := ":".intercalate ([c.hour, c.minute, c.second].map (Stamp.padded 2))

def dayText (s : Stamp) : String := Stamp.text { s with clock := none }

/-- The moment with a day and a time in universal time, and a day and a time at this place. -/
def Moment.at (universal : Stamp) (universalTime : Clock) (here : Stamp) (hereTime : Clock) : Moment where
  universal := dayText universal ++ "T" ++ timeText universalTime ++ "." ++
    Stamp.padded 6 universalTime.microsecond ++ "+00:00"
  dated := dayText here ++ " " ++ timeText hereTime ++ "," ++
    Stamp.padded 3 (hereTime.microsecond / 1000)
  clock := timeText hereTime

/-- A record that is to be written: when, in which conversation, and what was raised, if anything. -/
structure Line where
  record : Record
  moment : Moment
  session : String
  raised : Option String

def noSession : String := "-"

/-- The second at which a year begins, counted from the start of 1970. -/
def firstSecond (year : Int) : Int :=
  let past := year - 1
  (365 * past + past / 4 - past / 100 + past / 400 - 719162) * 86400

/-- The time of day, in universal time, at a number of seconds since the start of 1970. The number has
to fit into 64 bits, that of its year after 1900 into 32, and both the time and the one a day before
it have to lie in years of one to four digits. -/
def clockAt (seconds : Int) : Except Breakdown Clock :=
  if seconds < -Nat.pow 2 63 ∨ Nat.pow 2 63 ≤ seconds then .error .tooLarge
  else if seconds < firstSecond (1900 - Nat.pow 2 31) ∨ firstSecond (1900 + Nat.pow 2 31) ≤ seconds then
    .error .beyondCalendar
  else if seconds - 86400 < firstSecond 1 ∨ firstSecond 10000 ≤ seconds then .error .badValue
  else
    let second := (seconds % 86400).toNat
    .ok ⟨second / 3600, second / 60 % 60, second % 60, 0, none⟩

def Level.colour : Level → String
  | .debug => "\x1b[36m"
  | .info => "\x1b[32m"
  | .warning => "\x1b[33m"
  | .error => "\x1b[31m"
  | .critical => "\x1b[35m"
  | .other _ => ""

def plainColour : String := "\x1b[0m"

namespace TraceValue

def shown : TraceValue → String
  | .data value => value.shown
  | .reassembly r => r.shown

def json : TraceValue → String
  | .data value => value.json
  | .reassembly r => Text.json r.shown

end TraceValue

namespace Line

def trace (l : Line) : List (Data × TraceValue) := l.record.trace.getD []

/-- A coloured line. The values stand after the message, what was raised on lines of its own. -/
def coloured (l : Line) : String :=
  let r := l.record
  let values := l.trace.map fun entry => " " ++ entry.1.plain ++ "=" ++ entry.2.shown
  s!"{r.level.colour}[{r.level.name}]{plainColour} {l.moment.clock} {l.session} {r.source} | {r.message}" ++
    String.join values ++ l.raised.elim "" ("\n" ++ ·)

def widened (width : Nat) (text : String) : String :=
  text ++ String.ofList (List.replicate (width - text.length) ' ')

/-- A plain line. The values are left out. -/
def plain (l : Line) : String :=
  let r := l.record
  " | ".intercalate [l.moment.dated, widened 8 r.level.name, l.session, r.source, r.message] ++
    l.raised.elim "" ("\n" ++ ·)

def json (l : Line) : String :=
  let r := l.record
  let values := l.trace.map fun entry => (entry.1.jsonKey, entry.2.json)
  Data.jsonObject ([
    ("timestamp", Text.json l.moment.universal),
    ("level", Text.json r.level.name),
    ("logger", Text.json r.source),
    ("session", Text.json l.session),
    ("message", Text.json r.message)] ++
    (if values.isEmpty then [] else [("trace", Data.jsonObject values)]) ++
    l.raised.elim [] fun text => [("exception", Text.json text)])

end Line
end Colloquy.Log
