import Microservices.Lib.Datetime
import Microservices.Lib.Decimal

/-!
# ISO 8601 text of a datetime

`isoformat` writes `YYYY-MM-DDTHH:MM:SS[.ffffff][+HH:MM[:SS[.ffffff]]]`.
`fromisoformat` reads that and most of what the standard has beside it: the basic
format, week dates, times cut short, a comma for the point, `Z`, and any character
between date and time. It follows the C implementation of CPython 3.12, which looks
one character past the end of what it scans.
-/

section

open Decimal

/-! ## Writing -/

def Date.isoformat (d : Date) : List Char :=
  padded 4 d.year ++ '-' :: (padded 2 d.month ++ '-' :: padded 2 d.day)

def fractionText (microsecond : Nat) : List Char :=
  if microsecond = 0 then [] else '.' :: padded 6 microsecond

def ClockTime.isoformat (t : ClockTime) : List Char :=
  padded 2 t.hour ++ ':' :: (padded 2 t.minute ++ ':' :: (padded 2 t.second
    ++ fractionText t.microsecond))

/-- Hours and minutes, and the rest if there is any. -/
def durationText (microseconds : Nat) : List Char :=
  padded 2 (microseconds / 3600000000) ++ ':' :: (padded 2 (microseconds / 60000000 % 60)
    ++ (if microseconds % 60000000 = 0 then []
        else ':' :: (padded 2 (microseconds / 1000000 % 60)
          ++ fractionText (microseconds % 1000000))))

def UtcOffset.isoformat (o : UtcOffset) : List Char :=
  (if o.microseconds < 0 then '-' else '+') :: durationText o.microseconds.natAbs

def Datetime.isoformat (dt : Datetime) : String :=
  String.ofList (dt.date.isoformat ++ 'T' :: (dt.time.isoformat
    ++ dt.offset.elim [] UtcOffset.isoformat))

/-! ## Reading a date -/

def Date.ofYmd? (year month day : Nat) : Option Date :=
  if h : (1 ≤ year ∧ year ≤ 9999) ∧ (1 ≤ month ∧ month ≤ 12)
      ∧ 1 ≤ day ∧ day ≤ daysInMonth year month then
    some ⟨year, month, day, h.1, h.2.1, h.2.2⟩
  else none

/-- The day `n` days after 31 December of the year before `year`, looked for month by month. -/
def Date.ofDayOfYear? (year n : Nat) : Option Date :=
  let month := (List.range 12).countP (fun m => daysBeforeMonth year (m + 1) < n)
  Date.ofYmd? year month (n - daysBeforeMonth year month)

/-- The Monday of a year's first ISO week, as a day number. -/
def isoWeek1Monday (year : Nat) : Nat :=
  let first := daysBeforeYear year + 1
  let weekday := (first + 6) % 7
  if 3 < weekday then first - weekday + 7 else first - weekday

/-- A year has 53 ISO weeks if it starts on a Thursday, or is leap and starts on a Wednesday. -/
def hasWeek53 (year : Nat) : Bool :=
  (daysBeforeYear year + 1) % 7 == 4 || ((daysBeforeYear year + 1) % 7 == 3 && isLeap year)

def Date.ofIsoWeek? (year week day : Nat) : Option Date :=
  if (1 ≤ year ∧ year ≤ 9999) ∧ 0 < week ∧ (week < 53 ∨ (week = 53 ∧ hasWeek53 year)) ∧ 0 < day ∧ day < 8 then
    let n := isoWeek1Monday year + ((week - 1) * 7 + (day - 1))
    -- the day may fall into the year before or the year after
    if n ≤ daysBeforeYear year then Date.ofDayOfYear? (year - 1) (n - daysBeforeYear (year - 1))
    else if daysBeforeYear (year + 1) < n then
      Date.ofDayOfYear? (year + 1) (n - daysBeforeYear (year + 1))
    else Date.ofDayOfYear? year (n - daysBeforeYear year)
  else none

/-- A hyphen, if the date so far has one, and none otherwise. -/
def dash? (hasSep : Bool) : List Char → Option (List Char)
  | '-' :: cs => if hasSep then some cs else none
  | cs => if hasSep then none else some cs

def Date.fromisoformat (cs : List Char) : Option Date := do
  let (year, cs) ← field? 4 0 cs
  let hasSep := cs.head? = some '-'
  match if hasSep then cs.tail else cs with
  | 'W' :: cs =>
      let (week, cs) ← field? 2 0 cs
      if cs.isEmpty then Date.ofIsoWeek? year week 1
      else
        let cs ← dash? hasSep cs
        let (day, cs) ← field? 1 0 cs
        if cs.isEmpty then Date.ofIsoWeek? year week day else none
  | cs =>
      let (month, cs) ← field? 2 0 cs
      let cs ← dash? hasSep cs
      let (day, cs) ← field? 2 0 cs
      if cs.isEmpty then Date.ofYmd? year month day else none

/-! ## Reading a time -/

/-- What the C implementation reads behind the end of a text. -/
def nul : Char := Char.ofNat 0

/-- Hours, minutes, seconds and microseconds, not yet checked for range. -/
structure ClockFields where
  hour : Nat
  minute : Nat
  second : Nat
  microsecond : Nat
  deriving DecidableEq, Repr

/-- What stands after two digits: the end, perhaps with something left over, or more. -/
inductive FieldEnd where
  | done (left : Bool)
  | more (isFraction : Bool) (cs : List Char)

/-- A single character is taken for what follows the end, and never looked at. -/
def fieldEnd? (hasSep : Bool) (next : Char) : List Char → Option FieldEnd
  | [] => some (.done (next != nul))
  | [c] => some (.done (c != nul))
  | c :: cs =>
      if hasSep ∧ c = ':' then some (.more false cs)
      else if c = '.' ∨ c = ',' then some (.more true cs)
      else if hasSep then none
      else some (.more false (c :: cs))

/-- At most `n` fields, and what stands after the last. `next` is the character after `cs`. Behind
a third field even a separator begins a fraction. -/
def clockNumbers? (hasSep : Bool) (next : Char) : Nat → List Char → Option (List Nat × FieldEnd)
  | 0, cs => some ([], .more true cs)
  | n + 1, cs => do
      let (number, cs) ← field? 2 0 cs
      match ← fieldEnd? hasSep next cs with
      | .more false cs =>
          let (numbers, fieldEnd) ← clockNumbers? hasSep next n cs
          some (number :: numbers, fieldEnd)
      | fieldEnd => some ([number], fieldEnd)

/-- The digits of a fraction, of which the first six count, and whether something is left over. -/
def fraction? (next : Char) (cs : List Char) : Option (Nat × Bool) := do
  let toParse := min cs.length 6
  let (n, rest) ← field? toParse 0 cs
  some (n * 10 ^ (6 - toParse), (rest.dropWhile Char.isDigit).headD next != nul)

/-- `HH[:?MM[:?SS[{.,}f+]]]`, and whether something is left over. -/
def clockFields? (next : Char) (cs : List Char) : Option (ClockFields × Bool) := do
  let (numbers, fieldEnd) ← clockNumbers? (cs[2]? = some ':') next 3 cs
  let fields := ClockFields.mk (numbers.getD 0 0) (numbers.getD 1 0) (numbers.getD 2 0)
  match fieldEnd with
  | .done left => some (fields 0, left)
  | .more _ cs =>
      let (microsecond, left) ← fraction? next cs
      some (fields microsecond, left)

def ClockFields.toClockTime? (f : ClockFields) : Option ClockTime :=
  if h : f.hour < 24 ∧ f.minute < 60 ∧ f.second < 60 ∧ f.microsecond < 1000000 then
    some ⟨f.hour, f.minute, f.second, f.microsecond, h.1, h.2.1, h.2.2.1, h.2.2.2⟩
  else none

def ClockFields.seconds (f : ClockFields) : Nat := (f.hour * 60 + f.minute) * 60 + f.second

def UtcOffset.ofMicroseconds? (us : Int) : Option UtcOffset :=
  if h : -86400000000 < us ∧ us < 86400000000 then some ⟨us, h⟩ else none

/-- The offset of a zone. Without a second it is UTC, whatever its microseconds. -/
def ClockFields.toOffset? (f : ClockFields) (sign : Int) : Option UtcOffset :=
  if f.seconds = 0 then some UtcOffset.utc
  else UtcOffset.ofMicroseconds? (sign * (f.seconds * 1000000 + f.microsecond : Nat))

/-- A zone after its mark. -/
def UtcOffset.fromisoformat (mark : Char) (cs : List Char) : Option UtcOffset :=
  if mark = 'Z' then (if cs.headD nul = nul then some UtcOffset.utc else none)
  else do
    let (f, left) ← clockFields? nul cs
    if left then none else f.toOffset? (if mark = '-' then -1 else 1)

def isZoneMark (c : Char) : Bool := c == '+' || c == '-' || c == 'Z'

/-- What is left over of the time is an error only if no zone follows. -/
def timeAndZone? (cs : List Char) : Option (ClockTime × Option UtcOffset) :=
  let clock := cs.takeWhile fun c => !isZoneMark c
  match cs.dropWhile fun c => !isZoneMark c with
  | [] => do
      let (f, left) ← clockFields? nul clock
      if left then none else (f.toClockTime?).map fun time => (time, none)
  | mark :: zone => do
      let (f, _) ← clockFields? mark clock
      let offset ← UtcOffset.fromisoformat mark zone
      (f.toClockTime?).map fun time => (time, some offset)

/-- Where the date ends. -/
def separatorIndex? (cs : List Char) : Option Nat :=
  if cs.length = 7 then some 7
  else if cs[4]? = some '-' then
    if cs[5]? = some 'W' then
      if cs[8]? = some '-' then
        if cs.length = 9 then none
        -- after `YYYY-Www-` a digit too many means that the hyphen at 8 stands before a time
        else if (cs[10]?).any Char.isDigit then some 8
        else some 10
      else some 8
    else some 10
  else if cs[4]? = some 'W' then
    let idx := 7 + ((cs.drop 7).takeWhile Char.isDigit).length
    if idx < 9 then some idx else if idx % 2 = 0 then some 7 else some 8
  else some 8

/-- `datetime.fromisoformat(s)`; `none` is `ValueError`. -/
def Datetime.fromisoformat (s : String) : Option Datetime := do
  let cs := s.toList
  if cs.length < 7 then none
  else
    let i ← separatorIndex? cs
    let date ← Date.fromisoformat (cs.take i)
    match cs.drop i with
    | [] => some ⟨date, midnight, none⟩
    | _ :: time => do
        let (time, offset) ← timeAndZone? time
        some ⟨date, time, offset⟩

/-! ## Reading what was written -/

theorem Date.ofYmd?_self (d : Date) : Date.ofYmd? d.year d.month d.day = some d :=
  dif_pos ⟨d.year_valid, d.month_valid, d.day_valid⟩

theorem daysInMonth_le (year month : Nat) : daysInMonth year month ≤ 31 := by
  unfold daysInMonth
  repeat' split
  all_goals omega

theorem Date.fromisoformat_isoformat (d : Date) : Date.fromisoformat d.isoformat = some d := by
  have hy : d.year < 10 ^ 4 := Nat.lt_of_le_of_lt d.year_valid.2 (by decide)
  have hm : d.month < 10 ^ 2 := Nat.lt_of_le_of_lt d.month_valid.2 (by decide)
  have hd : d.day < 10 ^ 2 :=
    Nat.lt_of_le_of_lt (Nat.le_trans d.day_valid.2 (daysInMonth_le _ _)) (by decide)
  -- the month is no `W`, which would begin a week date
  have hW : ∀ cs, padded 2 d.month ++ '-' :: padded 2 d.day ≠ 'W' :: cs := by
    intro cs h
    have hmem : 'W' ∈ padded 2 d.month := by
      cases hp : padded 2 d.month with
      | nil => exact absurd (length_padded 2 d.month) (by rw [hp]; decide)
      | cons c rest =>
          rw [hp] at h
          rw [(List.cons_eq_cons.mp h).1]
          exact List.mem_cons_self
    exact absurd (isDigit_of_mem_padded hmem) (by decide)
  have hday : field? 2 0 (padded 2 d.day) = some (d.day, []) := by
    have := field?_padded_zero hd []
    rwa [List.append_nil] at this
  unfold Date.fromisoformat Date.isoformat
  simp only [Option.bind_eq_bind, field?_padded_zero hy, Option.bind_some, List.head?_cons,
    decide_true, if_true, List.tail_cons]
  rw [field?_padded_zero hm]
  simp only [Option.bind_some, dash?, if_true, hday, List.isEmpty_nil]
  exact Date.ofYmd?_self d

/-! ### Times and offsets -/

theorem fraction?_padded (next : Char) {us : Nat} (h : us < 1000000) :
    fraction? next (padded 6 us) = some (us, next != nul) := by
  have hfield := field?_padded_zero (show us < 10 ^ 6 from h) []
  rw [List.append_nil] at hfield
  unfold fraction?
  simp [length_padded, hfield]

theorem fieldEnd?_colon (next : Char) {rest : List Char} (hrest : rest ≠ []) :
    fieldEnd? true next (':' :: rest) = some (.more false rest) := by
  cases rest with
  | nil => exact absurd rfl hrest
  | cons c cs => rw [fieldEnd?, if_pos ⟨rfl, rfl⟩]; exact hrest

theorem fieldEnd?_point (hasSep : Bool) (next : Char) {rest : List Char} (hrest : rest ≠ []) :
    fieldEnd? hasSep next ('.' :: rest) = some (.more true rest) := by
  cases rest with
  | nil => exact absurd rfl hrest
  | cons c cs =>
      rw [fieldEnd?, if_neg (fun h => absurd h.2 (by decide)), if_pos (Or.inl rfl)]
      exact hrest

/-- A field and its colon are read off, -/
theorem clockNumbers?_colon (next : Char) (n : Nat) {number : Nat} (h : number < 100)
    {rest : List Char} (hrest : rest ≠ []) :
    clockNumbers? true next (n + 1) (padded 2 number ++ ':' :: rest)
      = (clockNumbers? true next n rest).map fun r => (number :: r.1, r.2) := by
  rw [clockNumbers?, field?_padded_zero (show number < 10 ^ 2 from h)]
  simp only [Option.bind_eq_bind, Option.bind_some, fieldEnd?_colon next hrest]
  cases clockNumbers? true next n rest <;> rfl

/-- and so is the last one, -/
theorem clockNumbers?_last (hasSep : Bool) (next : Char) (n : Nat) {number : Nat}
    (h : number < 100) :
    clockNumbers? hasSep next (n + 1) (padded 2 number)
      = some ([number], .done (next != nul)) := by
  have hfield := field?_padded_zero (show number < 10 ^ 2 from h) []
  rw [List.append_nil] at hfield
  rw [clockNumbers?, hfield]
  rfl

/-- which a fraction may follow. -/
theorem clockNumbers?_point (hasSep : Bool) (next : Char) (n : Nat) {number : Nat}
    (h : number < 100) {rest : List Char} (hrest : rest ≠ []) :
    clockNumbers? hasSep next (n + 1) (padded 2 number ++ '.' :: rest)
      = some ([number], .more true rest) := by
  rw [clockNumbers?, field?_padded_zero (show number < 10 ^ 2 from h)]
  simp only [Option.bind_eq_bind, Option.bind_some, fieldEnd?_point hasSep next hrest]

theorem padded_append_ne_nil (width n : Nat) (rest : List Char) :
    padded (width + 1) n ++ rest ≠ [] := by
  intro h
  have hlength := congrArg List.length (List.append_eq_nil_iff.mp h).1
  rw [length_padded] at hlength
  cases hlength

/-- The colon after the hours. -/
theorem getElem?_padded_colon (hour : Nat) (rest : List Char) :
    (padded 2 hour ++ ':' :: rest)[2]? = some ':' := by
  rw [List.getElem?_append_right (Nat.le_of_eq (length_padded 2 hour)), length_padded]
  rfl

/-- Hours and minutes. -/
theorem clockFields?_minutes (next : Char) {hour minute : Nat} (hh : hour < 100)
    (hm : minute < 100) :
    clockFields? next (padded 2 hour ++ ':' :: padded 2 minute)
      = some (⟨hour, minute, 0, 0⟩, next != nul) := by
  have hminute := padded_append_ne_nil 1 minute []
  rw [List.append_nil] at hminute
  unfold clockFields?
  rw [getElem?_padded_colon, decide_eq_true rfl, clockNumbers?_colon next 2 hh hminute,
    clockNumbers?_last true next 1 hm]
  rfl

/-- Hours, minutes and seconds, perhaps with a fraction. -/
theorem clockFields?_full (next : Char) {hour minute second us : Nat} (hh : hour < 100)
    (hm : minute < 100) (hs : second < 100) (hus : us < 1000000) :
    clockFields? next (padded 2 hour ++ ':' :: (padded 2 minute ++ ':' :: (padded 2 second
        ++ fractionText us)))
      = some (⟨hour, minute, second, us⟩, next != nul) := by
  unfold clockFields?
  rw [getElem?_padded_colon, decide_eq_true rfl,
    clockNumbers?_colon next 2 hh (padded_append_ne_nil 1 _ _),
    clockNumbers?_colon next 1 hm (padded_append_ne_nil 1 _ _)]
  unfold fractionText
  by_cases hzero : us = 0
  · rw [if_pos hzero, List.append_nil, clockNumbers?_last true next 0 hs, hzero]
    rfl
  · have hdigits := padded_append_ne_nil 5 us []
    rw [List.append_nil] at hdigits
    rw [if_neg hzero, clockNumbers?_point true next 0 hs hdigits]
    simp only [Option.map_some, Option.bind_eq_bind, Option.bind_some, fraction?_padded next hus]
    rfl

theorem ClockTime.fields?_isoformat (next : Char) (t : ClockTime) :
    clockFields? next t.isoformat
      = some (⟨t.hour, t.minute, t.second, t.microsecond⟩, next != nul) :=
  clockFields?_full next (Nat.lt_trans t.hour_valid (by decide))
    (Nat.lt_trans t.minute_valid (by decide)) (Nat.lt_trans t.second_valid (by decide))
    t.microsecond_valid

theorem ClockTime.toClockTime?_self (t : ClockTime) :
    ClockFields.toClockTime? ⟨t.hour, t.minute, t.second, t.microsecond⟩ = some t :=
  dif_pos ⟨t.hour_valid, t.minute_valid, t.second_valid, t.microsecond_valid⟩

/-- A duration of less than a hundred hours reads back. -/
theorem clockFields?_durationText {us : Nat} (h : us < 360000000000) :
    ∃ f, clockFields? nul (durationText us) = some (f, false)
      ∧ f.seconds * 1000000 + f.microsecond = us ∧ f.microsecond < 1000000 := by
  have hh : us / 3600000000 < 100 := by omega
  have hm : us / 60000000 % 60 < 100 := by omega
  unfold durationText
  by_cases hrest : us % 60000000 = 0
  · rw [if_pos hrest, List.append_nil]
    refine ⟨_, clockFields?_minutes nul hh hm, ?_, Nat.zero_lt_succ _⟩
    simp only [ClockFields.seconds]
    omega
  · rw [if_neg hrest]
    have hs : us / 1000000 % 60 < 100 := by omega
    have hus : us % 1000000 < 1000000 := by omega
    refine ⟨_, clockFields?_full nul hh hm hs hus, ?_, hus⟩
    simp only [ClockFields.seconds]
    omega

/-- What is read of an offset that has been written: one of less than a second is dropped. -/
def UtcOffset.readBack (o : UtcOffset) : UtcOffset :=
  if o.microseconds.natAbs < 1000000 then UtcOffset.utc else o

def Datetime.readBack (dt : Datetime) : Datetime :=
  { dt with offset := dt.offset.map UtcOffset.readBack }

/-- There is no offset, it is zero, or it is at least a second in size. -/
def Datetime.OffsetKept (dt : Datetime) : Prop :=
  ∀ o ∈ dt.offset, o.microseconds = 0 ∨ 1000000 ≤ o.microseconds.natAbs

theorem UtcOffset.readBack_eq_iff (o : UtcOffset) :
    o.readBack = o ↔ o.microseconds = 0 ∨ 1000000 ≤ o.microseconds.natAbs := by
  unfold readBack
  by_cases h : o.microseconds.natAbs < 1000000
  · rw [if_pos h]
    constructor
    · intro hutc
      exact Or.inl (congrArg UtcOffset.microseconds hutc).symm
    · rintro (hzero | hle)
      · obtain ⟨us, hvalid⟩ := o
        cases hzero
        rfl
      · exact absurd h (Nat.not_lt.mpr hle)
  · rw [if_neg h]
    exact iff_of_true rfl (Or.inr (Nat.not_lt.mp h))

theorem Datetime.readBack_eq_iff (dt : Datetime) : dt.readBack = dt ↔ dt.OffsetKept := by
  obtain ⟨date, time, offset⟩ := dt
  cases offset with
  | none => exact iff_of_true rfl fun o ho => by cases ho
  | some o =>
      constructor
      · intro h o' ho'
        cases Option.mem_some.mp ho'
        exact o.readBack_eq_iff.mp (Option.some.inj (congrArg Datetime.offset h))
      · intro h
        have ho := o.readBack_eq_iff.mpr (h o rfl)
        rw [readBack, Option.map_some, ho]

/-- The database's times are not concerned. -/
theorem Timestamp.readBack_datetime (t : Timestamp) : t.datetime.readBack = t.datetime := by
  refine t.datetime.readBack_eq_iff.mpr fun o ho => ?_
  rw [t.utc, Option.mem_some] at ho
  exact Or.inl (congrArg UtcOffset.microseconds ho).symm

theorem UtcOffset.ofMicroseconds?_self (o : UtcOffset) :
    UtcOffset.ofMicroseconds? o.microseconds = some o := dif_pos o.valid

/-- The sign and the size of an offset give it back. -/
theorem UtcOffset.sign_mul_natAbs (i : Int) :
    (if i < 0 then -1 else 1) * (i.natAbs : Int) = i := by
  by_cases h : i < 0
  · rw [if_pos h]
    omega
  · rw [if_neg h]
    omega

theorem ClockFields.toOffset?_readBack {f : ClockFields} {o : UtcOffset}
    (hf : f.microsecond < 1000000)
    (hsize : f.seconds * 1000000 + f.microsecond = o.microseconds.natAbs) :
    f.toOffset? (if o.microseconds < 0 then -1 else 1) = some o.readBack := by
  unfold toOffset? UtcOffset.readBack
  by_cases hzero : f.seconds = 0
  · rw [if_pos hzero, if_pos (by omega)]
  · have hkept : ¬ o.microseconds.natAbs < 1000000 := by omega
    rw [if_neg hzero, if_neg hkept, hsize, UtcOffset.sign_mul_natAbs, o.ofMicroseconds?_self]

theorem UtcOffset.fromisoformat_isoformat (o : UtcOffset) :
    ∃ mark zone, o.isoformat = mark :: zone ∧ isZoneMark mark = true
      ∧ UtcOffset.fromisoformat mark zone = some o.readBack := by
  have hbound : o.microseconds.natAbs < 360000000000 := by
    have := o.valid
    omega
  obtain ⟨f, hf, hsize, hus⟩ := clockFields?_durationText hbound
  have hread := f.toOffset?_readBack hus hsize
  unfold UtcOffset.isoformat
  by_cases hneg : o.microseconds < 0
  · rw [if_pos hneg] at hread ⊢
    refine ⟨'-', _, rfl, rfl, ?_⟩
    rw [UtcOffset.fromisoformat, if_neg (by decide), hf]
    exact hread
  · rw [if_neg hneg] at hread ⊢
    refine ⟨'+', _, rfl, rfl, ?_⟩
    rw [UtcOffset.fromisoformat, if_neg (by decide), hf]
    exact hread

/-- No character of a clock time marks a zone. -/
theorem ClockTime.no_zoneMark (t : ClockTime) : ∀ c ∈ t.isoformat, isZoneMark c = false := by
  have hdigit : ∀ c : Char, c.isDigit → isZoneMark c = false := by
    intro c hc
    have hne : ∀ m : Char, m.isDigit = false → c ≠ m := by
      rintro m hm rfl
      rw [hc] at hm
      cases hm
    simp [isZoneMark, hne '+' (by decide), hne '-' (by decide), hne 'Z' (by decide)]
  have hpadded : ∀ w n, ∀ c ∈ padded w n, isZoneMark c = false := fun w n c hc =>
    hdigit c (isDigit_of_mem_padded hc)
  have hfraction : ∀ c ∈ fractionText t.microsecond, isZoneMark c = false := by
    unfold fractionText
    split
    · intro c hc; cases hc
    · intro c hc
      rcases List.mem_cons.mp hc with rfl | hc
      · decide
      · exact hpadded 6 _ c hc
  intro c hc
  -- hours, minutes, seconds and the fraction, with two colons between them
  simp only [ClockTime.isoformat, List.mem_append, List.mem_cons] at hc
  rcases hc with hc | rfl | hc | rfl | hc | hc
  · exact hpadded _ _ c hc
  · decide
  · exact hpadded _ _ c hc
  · decide
  · exact hpadded _ _ c hc
  · exact hfraction c hc

theorem timeAndZone?_isoformat (t : ClockTime) (offset : Option UtcOffset) :
    timeAndZone? (t.isoformat ++ offset.elim [] UtcOffset.isoformat)
      = some (t, offset.map UtcOffset.readBack) := by
  have hclock : ∀ c ∈ t.isoformat, (!isZoneMark c) = true := by
    intro c hc
    rw [t.no_zoneMark c hc]
    rfl
  unfold timeAndZone?
  rw [List.takeWhile_append_of_pos hclock, List.dropWhile_append_of_pos hclock]
  cases offset with
  | none =>
      simp only [Option.elim_none, List.takeWhile_nil, List.append_nil, List.dropWhile_nil,
        Option.bind_eq_bind, t.fields?_isoformat, Option.bind_some, t.toClockTime?_self]
      rfl
  | some o =>
      obtain ⟨mark, zone, htext, hmark, hread⟩ := o.fromisoformat_isoformat
      have htake : (mark :: zone).takeWhile (fun c => !isZoneMark c) = [] :=
        List.takeWhile_cons_of_neg (by simp [hmark])
      have hdrop : (mark :: zone).dropWhile (fun c => !isZoneMark c) = mark :: zone :=
        List.dropWhile_cons_of_neg (by simp [hmark])
      simp only [Option.elim_some, htext, htake, hdrop, List.append_nil, Option.bind_eq_bind,
        t.fields?_isoformat, Option.bind_some, t.toClockTime?_self, hread, Option.map_some]

/-! ### The whole text -/

theorem Date.length_isoformat (d : Date) : d.isoformat.length = 10 := by
  simp [Date.isoformat, length_padded]

/-- Ten characters of date, a hyphen after the year, a digit after that. -/
theorem separatorIndex?_isoformat (d : Date) (rest : List Char) :
    separatorIndex? (d.isoformat ++ rest) = some 10 := by
  have h4 : (d.isoformat ++ rest)[4]? = some '-' := by
    simp [Date.isoformat, length_padded]
  have h5 : (d.isoformat ++ rest)[5]? ≠ some 'W' := by
    have hget : (d.isoformat ++ rest)[5]? = (padded 2 d.month)[0]? := by
      simp [Date.isoformat, List.getElem?_append, length_padded]
    rw [hget]
    intro h
    exact absurd (isDigit_of_mem_padded (List.mem_of_getElem? h)) (by decide)
  have hlength : (d.isoformat ++ rest).length ≠ 7 := by
    rw [List.length_append, d.length_isoformat]
    omega
  rw [separatorIndex?, if_neg hlength, if_pos h4, if_neg h5]

/-- **`datetime.fromisoformat(dt.isoformat())` is `dt`**, naive or aware, but for an offset of less
than a second. -/
theorem Datetime.fromisoformat_isoformat (dt : Datetime) :
    Datetime.fromisoformat dt.isoformat = some dt.readBack := by
  have hlength : ¬ (dt.date.isoformat ++ 'T' :: (dt.time.isoformat
      ++ dt.offset.elim [] UtcOffset.isoformat)).length < 7 := by
    rw [List.length_append, dt.date.length_isoformat]
    omega
  have htake : (dt.date.isoformat ++ 'T' :: (dt.time.isoformat
      ++ dt.offset.elim [] UtcOffset.isoformat)).take 10 = dt.date.isoformat := by
    rw [List.take_append_of_le_length (Nat.le_of_eq dt.date.length_isoformat.symm),
      List.take_of_length_le (Nat.le_of_eq dt.date.length_isoformat)]
  have hdrop : (dt.date.isoformat ++ 'T' :: (dt.time.isoformat
      ++ dt.offset.elim [] UtcOffset.isoformat)).drop 10
        = 'T' :: (dt.time.isoformat ++ dt.offset.elim [] UtcOffset.isoformat) := by
    rw [List.drop_append_of_le_length (Nat.le_of_eq dt.date.length_isoformat.symm),
      List.drop_of_length_le (Nat.le_of_eq dt.date.length_isoformat)]
    rfl
  unfold Datetime.fromisoformat Datetime.isoformat
  simp only [String.toList_ofList, hlength, if_false, Option.bind_eq_bind,
    separatorIndex?_isoformat, Option.bind_some, htake, Date.fromisoformat_isoformat, hdrop,
    timeAndZone?_isoformat, Datetime.readBack]

end
