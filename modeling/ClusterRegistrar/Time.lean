import ClusterRegistrar.Text.Numeral

/-! Dates and times of the proleptic Gregorian calendar, years 1 to 9999, with an optional offset
from UTC, and their ISO 8601 text. -/
namespace ClusterRegistrar

structure Date where
  year : Nat
  month : Nat
  day : Nat
deriving DecidableEq, Repr

namespace Date

def isLeap (year : Nat) : Bool := year % 4 = 0 && (year % 100 ≠ 0 || year % 400 = 0)

def daysInMonth (year month : Nat) : Nat :=
  match month with
  | 2 => if isLeap year then 29 else 28
  | 4 | 6 | 9 | 11 => 30
  | _ => 31

def valid (d : Date) : Bool :=
  1 ≤ d.year && d.year ≤ 9999 && 1 ≤ d.month && d.month ≤ 12 &&
    1 ≤ d.day && d.day ≤ daysInMonth d.year d.month

def ordinal (d : Date) : Nat :=
  let y := d.year - 1
  let months := (List.range (d.month - 1)).foldl (fun n m => n + daysInMonth d.year (m + 1)) 0
  365 * y + y / 4 - y / 100 + y / 400 + months + (d.day - 1)

def iso (d : Date) : List Char :=
  Numeral.decimalPadded 4 d.year ++ '-' :: Numeral.decimalPadded 2 d.month ++
    '-' :: Numeral.decimalPadded 2 d.day

end Date

/-- A time of day on a date; the offset from UTC, in seconds, is absent for a local time. -/
structure DateTime where
  date : Date
  hour : Nat
  minute : Nat
  second : Nat
  microsecond : Nat
  offset : Option Int
deriving DecidableEq, Repr

namespace DateTime

def valid (t : DateTime) : Bool :=
  t.date.valid && t.hour < 24 && t.minute < 60 && t.second < 60 && t.microsecond < 1000000 &&
    t.offset.all fun o => o.natAbs < 86400

/-- Microseconds since the start of year one, on the local clock. -/
def localMicroseconds (t : DateTime) : Int :=
  let seconds := ((t.date.ordinal * 24 + t.hour) * 60 + t.minute) * 60 + t.second
  (seconds * 1000000 + t.microsecond : Nat)

/-- Two times are the same if both are local and equal, or name the same instant. -/
def same (a b : DateTime) : Bool :=
  match a.offset, b.offset with
  | none, none => a.localMicroseconds = b.localMicroseconds
  | some p, some q => a.localMicroseconds - p * 1000000 = b.localMicroseconds - q * 1000000
  | _, _ => false

/-- `+01:30`, for whole minutes. -/
def offsetChars (seconds : Int) : List Char :=
  let minutes := seconds.natAbs / 60
  (if seconds < 0 then '-' else '+') :: Numeral.decimalPadded 2 (minutes / 60) ++
    ':' :: Numeral.decimalPadded 2 (minutes % 60)

def iso (separator : Char) (t : DateTime) : List Char :=
  t.date.iso ++ separator :: Numeral.decimalPadded 2 t.hour ++
    ':' :: Numeral.decimalPadded 2 t.minute ++ ':' :: Numeral.decimalPadded 2 t.second ++
    (if t.microsecond = 0 then [] else '.' :: Numeral.decimalPadded 6 t.microsecond) ++
    (match t.offset with
     | none => []
     | some o => offsetChars o)

end DateTime
end ClusterRegistrar
