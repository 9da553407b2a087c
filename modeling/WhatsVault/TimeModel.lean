import Mathlib.Algebra.Order.Group.Int
import Mathlib.Algebra.Order.Ring.Nat
import Mathlib.Tactic.Common

/-!
# Local time

Naive local times as seconds since the epoch of the local clock, the zones that give them a meaning,
and the uncertainty interval of an imported minute.  A zone of the tz database is its offset at a
local time, for either fold, and its `fromutc`.
-/

namespace WhatsVault

/-! ## The calendar -/

def isLeap (year : ℕ) : Bool := year % 4 = 0 ∧ (year % 100 ≠ 0 ∨ year % 400 = 0)

/-- `calendar.monthrange(year, month)[1]`. -/
def daysInMonth (year month : ℕ) : ℕ :=
  if month = 2 then (if isLeap year then 29 else 28)
  else if month ∈ [4, 6, 9, 11] then 30 else 31

/-- `date(year, month, day).toordinal()`. -/
def ordinal (year month day : ℕ) : ℕ :=
  let years := year - 1
  years * 365 + years / 4 - years / 100 + years / 400 +
    ((List.range' 1 (month - 1)).map (daysInMonth year)).sum + day

/-- The ordinal of 1970-01-01. -/
def epochOrdinal : ℕ := 719163

example : ordinal 1970 1 1 = epochOrdinal ∧ ordinal 2026 4 13 = epochOrdinal + 20556 := by decide

/-- A date a `datetime` can have. -/
structure Date where
  year : ℕ
  month : ℕ
  day : ℕ
  validYear : 1 ≤ year ∧ year ≤ 9999
  validMonth : 1 ≤ month ∧ month ≤ 12
  validDay : 1 ≤ day ∧ day ≤ daysInMonth year month
  deriving DecidableEq

/-- A naive `datetime`, as the seconds its clock shows since 1970. -/
abbrev LocalSeconds := ℤ

/-- `datetime(year, month, day, hour, minute, second)`; `none` where the clock time makes it
raise. -/
def datetime (date : Date) (hour minute second : ℕ) : Option LocalSeconds :=
  if hour ≤ 23 ∧ minute ≤ 59 ∧ second ≤ 59 then
    some (((ordinal date.year date.month date.day : ℤ) - epochOrdinal) * 86400 +
      hour * 3600 + minute * 60 + second)
  else none

/-! ## Zones -/

/-- A `ZoneInfo`: `utcoffset` of a local time with its `fold`, and the local time of a UTC time, all
in seconds. -/
structure Zone where
  utcoffset : LocalSeconds → Bool → ℤ
  fromutc : ℤ → LocalSeconds

/-- The zone of UTC itself. -/
def Zone.utc : Zone := ⟨fun _ _ => 0, id⟩

inductive DstClass
  | unambiguous
  | fold
  | nonexistent
  deriving DecidableEq, Repr

def DstClass.value : DstClass → String
  | unambiguous => "unambiguous"
  | fold => "fold"
  | nonexistent => "nonexistent"

/-- `classify_local`. -/
def classifyLocal (z : Zone) (t : LocalSeconds) : DstClass :=
  if z.fromutc (t - z.utcoffset t false) ≠ t then .nonexistent
  else if z.utcoffset t false ≠ z.utcoffset t true then .fold
  else .unambiguous

/-- `datetime.timestamp()` in seconds, of a local time with its `fold`. -/
def timestamp (z : Zone) (t : LocalSeconds) (fold : Bool) : ℤ := t - z.utcoffset t fold

/-! ## Intervals -/

/-- `from_local_minute`, as its two bounds; the precision is always a minute. -/
def fromLocalMinute (epochMinuteStartMs : ℤ) : ℤ × ℤ :=
  (epochMinuteStartMs, epochMinuteStartMs + 60000)

lemma fromLocalMinute_lt (ms : ℤ) : (fromLocalMinute ms).1 < (fromLocalMinute ms).2 := by
  unfold fromLocalMinute
  omega

end WhatsVault
