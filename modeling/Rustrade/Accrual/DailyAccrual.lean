import Rustrade.Decimal

/-!
# When a daily charge falls

`DailyAccrual` gives the cutoffs of a daily charge: a local time of day, in a time zone, on every
date or on the business days of a settlement calendar. Instants and local times are counted in
nanoseconds, dates in days, from the midnight that began 1970. Dates have no last one here, and a panic is `none`.
-/

set_option autoImplicit false

namespace Rustrade.Accrual

abbrev dayNanos : ℤ := 86400000000000

abbrev minuteNanos : ℤ := 60000000000

/-- `CUTOFF_SEARCH_DAYS`. -/
abbrev cutoffSearchDays : ℕ := 3660

abbrev NaiveDate := ℤ

abbrev NaiveDateTime := ℤ

structure NaiveTime where
  nanos : ℤ
  nonneg : 0 ≤ nanos
  lt : nanos < dayNanos

def dateNaive (time : NaiveDateTime) : NaiveDate := time / dayNanos

def andTime (date : NaiveDate) (time : NaiveTime) : NaiveDateTime := date * dayNanos + time.nanos

/-- A time zone: what its clock shows at each instant, and the earliest instant at which the clock
    shows a time, if it ever does. -/
structure TimeZone where
  offset : DateTime → ℤ
  earliest : NaiveDateTime → Option DateTime
  shown : ∀ time instant, earliest time = some instant → instant + offset instant = time
  first : ∀ time instant, earliest time = some instant →
    ∀ other, other + offset other = time → instant ≤ other
  skipped : ∀ time, earliest time = none → ∀ instant, instant + offset instant ≠ time

/-- `with_timezone`, as the time the zone's clock shows. -/
def TimeZone.localTime (zone : TimeZone) (instant : DateTime) : NaiveDateTime :=
  instant + zone.offset instant

def TimeZone.localDate (zone : TimeZone) (instant : DateTime) : NaiveDate :=
  dateNaive (zone.localTime instant)

def TimeZone.utc : TimeZone where
  offset _ := 0
  earliest := some
  shown time instant h := by
    cases h
    exact add_zero _
  first time instant h other hother := by
    cases h
    rw [add_zero] at hother
    exact hother.ge
  skipped time h := by cases h

/-- The business days of a market. -/
abbrev SettlementCalendar := NaiveDate → Bool

/-- Monday to Friday. The first of all dates is a Thursday. -/
def weekendsOnly : SettlementCalendar := fun date => decide ((date + 3) % 7 < 5)

inductive AccrualDays where
  | calendar
  | settlement (calendar : SettlementCalendar) (lag : ℕ)

structure DailyAccrual where
  cutoff : NaiveTime
  zone : TimeZone
  days : AccrualDays

def nextDate (date : NaiveDate) : NaiveDate := date + 1

/-- The first business day from `date` on, among as many dates as are searched. -/
def searchBusinessDay (calendar : SettlementCalendar) : ℕ → NaiveDate → Option NaiveDate
  | 0, _ => none
  | left + 1, date =>
    if calendar date then some date else searchBusinessDay calendar left (nextDate date)

def nextBusinessDay (calendar : SettlementCalendar) (date : NaiveDate) : Option NaiveDate :=
  searchBusinessDay calendar cutoffSearchDays (nextDate date)

def addBusinessDays (calendar : SettlementCalendar) (date : NaiveDate) : ℕ → Option NaiveDate
  | 0 => some date
  | days + 1 => addBusinessDays calendar date days >>= nextBusinessDay calendar

/-- `u32::try_from`, and the largest number where it does not fit. -/
def asU32 (days : ℤ) : ℕ := if 0 ≤ days ∧ days < 4294967296 then days.toNat else 4294967295

/-- From the day one date settles to the day the next business day does. -/
def settlementDays (calendar : SettlementCalendar) (lag : ℕ) (date : NaiveDate) : Option ℕ := do
  let settles ← addBusinessDays calendar date lag
  let next ← nextBusinessDay calendar date
  let nextSettles ← addBusinessDays calendar next lag
  return asU32 (nextSettles - settles)

namespace DailyAccrual

def hasCutoff (self : DailyAccrual) (date : NaiveDate) : Bool :=
  match self.days with
  | .calendar => true
  | .settlement calendar _ => calendar date

/-- The first of the minutes from `time` on that the zone's clock shows. -/
def searchLocal (self : DailyAccrual) : ℕ → NaiveDateTime → Option DateTime
  | 0, _ => none
  | left + 1, time =>
    match self.zone.earliest time with
    | some instant => some instant
    | none => self.searchLocal left (time + minuteNanos)

/-- The minutes of a day are tried, and the one after them. -/
def cutoffOn (self : DailyAccrual) (date : NaiveDate) : Option DateTime :=
  self.searchLocal (24 * 60 + 1) (andTime date self.cutoff)

def searchBoundary (self : DailyAccrual) (after : DateTime) : ℕ → NaiveDate → Option DateTime
  | 0, _ => none
  | left + 1, date =>
    if self.hasCutoff date then do
      let boundary ← self.cutoffOn date
      if after < boundary then some boundary else self.searchBoundary after left (nextDate date)
    else self.searchBoundary after left (nextDate date)

def nextBoundary (self : DailyAccrual) (after : DateTime) : Option DateTime :=
  self.searchBoundary after cutoffSearchDays (self.zone.localDate after)

/-- The days a charge covers, counted from the date the clock shows at it. -/
def daysAt (self : DailyAccrual) (boundary : DateTime) : Option ℕ :=
  match self.days with
  | .calendar => some 1
  | .settlement calendar lag => settlementDays calendar lag (self.zone.localDate boundary)

end DailyAccrual

end Rustrade.Accrual
