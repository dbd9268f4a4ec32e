import Mathlib.Init

/-!
# Points in time

A `datetime` of the proleptic Gregorian calendar, years 1 to 9999, to the
microsecond. Its UTC offset is optional: without one it is *naive* and names no
point in time. `instant` is the point an aware one names, and two aware datetimes
compare as their instants do, whatever their offsets.
-/

def isLeap (year : Nat) : Bool := year % 4 == 0 && (year % 100 != 0 || year % 400 == 0)

def daysInMonth (year month : Nat) : Nat :=
  if month = 2 then (if isLeap year then 29 else 28)
  else if month = 4 ∨ month = 6 ∨ month = 9 ∨ month = 11 then 30 else 31

structure Date where
  year : Nat
  month : Nat
  day : Nat
  year_valid : 1 ≤ year ∧ year ≤ 9999
  month_valid : 1 ≤ month ∧ month ≤ 12
  day_valid : 1 ≤ day ∧ day ≤ daysInMonth year month
  deriving DecidableEq, Repr

structure ClockTime where
  hour : Nat
  minute : Nat
  second : Nat
  microsecond : Nat
  hour_valid : hour < 24
  minute_valid : minute < 60
  second_valid : second < 60
  microsecond_valid : microsecond < 1000000
  deriving DecidableEq, Repr

def midnight : ClockTime := ⟨0, 0, 0, 0, by decide, by decide, by decide, by decide⟩

/-- A fixed offset from UTC, in microseconds, of less than a day either way. -/
structure UtcOffset where
  microseconds : Int
  valid : -86400000000 < microseconds ∧ microseconds < 86400000000
  deriving DecidableEq, Repr

def UtcOffset.utc : UtcOffset := ⟨0, by decide⟩

structure Datetime where
  date : Date
  time : ClockTime
  offset : Option UtcOffset
  deriving DecidableEq, Repr

/-- Days in the years before `year`. -/
def daysBeforeYear (year : Nat) : Nat :=
  (year - 1) * 365 + (year - 1) / 4 - (year - 1) / 100 + (year - 1) / 400

/-- Days in the months before `month`. -/
def daysBeforeMonth (year month : Nat) : Nat :=
  ((List.range (month - 1)).map fun m => daysInMonth year (m + 1)).foldl (· + ·) 0

/-- The day's number, counted from 1 January of year 1. -/
def Date.ordinal (d : Date) : Nat :=
  daysBeforeYear d.year + daysBeforeMonth d.year d.month + d.day

/-- Microseconds since midnight. -/
def ClockTime.microseconds (t : ClockTime) : Nat :=
  ((t.hour * 60 + t.minute) * 60 + t.second) * 1000000 + t.microsecond

/-- The point in time, in microseconds; a naive datetime is read in UTC. -/
def Datetime.instant (dt : Datetime) : Int :=
  dt.date.ordinal * 86400000000 + dt.time.microseconds
    - (dt.offset.getD UtcOffset.utc).microseconds

/-- A datetime that names a point in time. -/
structure AwareDatetime where
  datetime : Datetime
  aware : datetime.offset.isSome
  deriving DecidableEq, Repr

def AwareDatetime.instant (t : AwareDatetime) : Int := t.datetime.instant

/-- A datetime as a `timestamptz` column takes it; a naive one is taken in UTC. -/
def Datetime.stored (dt : Datetime) : AwareDatetime :=
  ⟨{ dt with offset := some (dt.offset.getD UtcOffset.utc) }, rfl⟩

/-- A time of the database's own, as it is read back: in UTC. -/
structure Timestamp where
  datetime : Datetime
  utc : datetime.offset = some UtcOffset.utc
  deriving DecidableEq, Repr

def Timestamp.instant (t : Timestamp) : Int := t.datetime.instant

def Timestamp.toAware (t : Timestamp) : AwareDatetime :=
  ⟨t.datetime, by rw [t.utc]; rfl⟩
