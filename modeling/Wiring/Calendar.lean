import Wiring.Number.Shortest

/-! Days of the proleptic calendar and moments with an optional zone. -/
namespace Wiring

structure Date where
  year : Nat
  month : Nat
  day : Nat
deriving DecidableEq, Repr

/-- A moment on the clock of its zone. The zone is in seconds east, absent when none is given. -/
structure Moment where
  date : Date
  hour : Nat
  minute : Nat
  second : Nat
  micro : Nat
  zone : Option Int
deriving DecidableEq, Repr

inductive CalendarFault where
  | year (n : Nat)
  | month
  | day
  | hour
  | minute
  | second
  | zone (seconds : Int)
deriving DecidableEq, Repr

/-- A span of time in days and seconds, of which only the days can be negative. -/
def zoneSpan (seconds : Int) : String :=
  let days := seconds.fdiv 86400
  let rest := seconds.fmod 86400
  let parts := (if days = 0 then [] else ["days=" ++ toString days]) ++
    (if rest = 0 then [] else ["seconds=" ++ toString rest])
  "datetime.timedelta(" ++ (if parts = [] then "0" else ", ".intercalate parts) ++ ")"

def CalendarFault.text : CalendarFault → String
  | .year n => "year " ++ toString n ++ " is out of range"
  | .month => "month must be in 1..12"
  | .day => "day is out of range for month"
  | .hour => "hour must be in 0..23"
  | .minute => "minute must be in 0..59"
  | .second => "second must be in 0..59"
  | .zone s => "offset must be a timedelta strictly between -timedelta(hours=24) and " ++
      "timedelta(hours=24), not " ++ zoneSpan s

namespace Date

def isLeap (y : Nat) : Bool := y % 4 = 0 && (y % 100 ≠ 0 || y % 400 = 0)

def daysIn (y m : Nat) : Nat :=
  match m with
  | 2 => if isLeap y then 29 else 28
  | 4 | 6 | 9 | 11 => 30
  | _ => 31

def make (year month day : Nat) : Except CalendarFault Date :=
  if year = 0 then .error (.year year)
  else if month < 1 ∨ 12 < month then .error .month
  else if day < 1 ∨ daysIn year month < day then .error .day
  else .ok ⟨year, month, day⟩

def ordinal (d : Date) : Nat :=
  let y := d.year - 1
  y * 365 + y / 4 - y / 100 + y / 400 +
    (List.range (d.month - 1)).foldl (fun n m => n + daysIn d.year (m + 1)) 0 + d.day - 1

def text (d : Date) : String :=
  Shortest.padLeft 4 (Shortest.digitsText d.year) ++ "-" ++
    Shortest.padLeft 2 (Shortest.digitsText d.month) ++ "-" ++
    Shortest.padLeft 2 (Shortest.digitsText d.day)

end Date

namespace Moment

def make (year month day hour minute second micro : Nat) (zone : Option Int) :
    Except CalendarFault Moment := do
  let date ← Date.make year month day
  if 23 < hour then throw .hour
  if 59 < minute then throw .minute
  if 59 < second then throw .second
  pure ⟨date, hour, minute, second, micro, zone⟩

def clock (t : Moment) : Int :=
  (((t.date.ordinal * 24 + t.hour) * 60 + t.minute) * 60 + t.second : Nat) * 1000000 + (t.micro : Int)

/-- The same moment: equal clocks without zones, or equal clocks once both zones are taken off. -/
def same (t u : Moment) : Bool :=
  match t.zone, u.zone with
  | none, none => t.clock = u.clock
  | some a, some b => t.clock - a * 1000000 = u.clock - b * 1000000
  | _, _ => false

def zoneText (seconds : Int) : String :=
  let n := seconds.natAbs
  let two (k : Nat) := Shortest.padLeft 2 (Shortest.digitsText k)
  (if seconds < 0 then "-" else "+") ++ two (n / 3600) ++ ":" ++ two (n / 60 % 60) ++
    (if n % 60 = 0 then "" else ":" ++ two (n % 60))

def text (t : Moment) : String :=
  let two (k : Nat) := Shortest.padLeft 2 (Shortest.digitsText k)
  t.date.text ++ "T" ++ two t.hour ++ ":" ++ two t.minute ++ ":" ++ two t.second ++
    (if t.micro = 0 then "" else "." ++ Shortest.padLeft 6 (Shortest.digitsText t.micro)) ++
    (match t.zone with | none => "" | some z => zoneText z)

end Moment
end Wiring
