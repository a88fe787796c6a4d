import Mathlib.Algebra.BigOperators.Intervals
import Mathlib.Data.Int.ConditionallyCompleteOrder
import Mathlib.Order.Bounds.Basic
import Mathlib.Tactic.Linarith
import Rustrade.Accrual.DailyAccrual

/-!
# Cutoffs that tile time

Boundaries one after another visit the cutoffs in the order of their dates, and the days they charge
add up to those from the first settlement to the last, exactly where the zone's clock and the
calendar are regular around the cutoffs.
-/

set_option autoImplicit false

namespace Rustrade.Accrual

/-! ## Business days -/

section

variable {calendar : SettlementCalendar} {date d e s s' : ℤ} {n : ℕ}

/-- The first business day after another date. -/
structure FirstAfter (calendar : SettlementCalendar) (d e : ℤ) : Prop where
  lt : d < e
  business : calendar e = true
  first : ∀ x, d < x → x < e → calendar x = false

/-- A calendar with a business day in every span of as many dates as are searched. -/
def Settles (calendar : SettlementCalendar) : Prop :=
  ∀ date : ℤ, ∃ k : ℕ, k < cutoffSearchDays ∧ calendar (date + k) = true

theorem searchBusinessDay_eq_some_iff :
    searchBusinessDay calendar n date = some e ↔
      date ≤ e ∧ e < date + n ∧ calendar e = true ∧ ∀ x, date ≤ x → x < e → calendar x = false := by
  induction n generalizing date with
  | zero =>
    refine iff_of_false (by simp [searchBusinessDay]) ?_
    rintro ⟨hle, hlt, -⟩
    push_cast at hlt
    omega
  | succ n ih =>
    unfold searchBusinessDay
    split
    · rename_i hday
      constructor
      · intro h
        cases h
        exact ⟨le_refl _, by push_cast; omega, hday, fun x hle hlt => absurd hlt (not_lt.2 hle)⟩
      · rintro ⟨hle, -, -, hfirst⟩
        rcases hle.eq_or_lt with rfl | hlt
        · rfl
        · cases (hfirst date (le_refl _) hlt).symm.trans hday
    · rename_i hday
      rw [ih]
      unfold nextDate
      constructor
      · rintro ⟨hle, hlt, he, hfirst⟩
        refine ⟨by omega, by push_cast; omega, he, ?_⟩
        intro x hx hxe
        rcases hx.eq_or_lt with rfl | hx
        · exact Bool.eq_false_iff.2 hday
        · exact hfirst x (by omega) hxe
      · rintro ⟨hle, hlt, he, hfirst⟩
        have hne : date ≠ e := by
          rintro rfl
          exact hday he
        push_cast at hlt
        exact ⟨by omega, by omega, he, fun x hx hxe => hfirst x (by omega) hxe⟩

theorem firstAfter_of_nextBusinessDay (h : nextBusinessDay calendar d = some e) :
    FirstAfter calendar d e ∧ e ≤ d + cutoffSearchDays := by
  unfold nextBusinessDay nextDate at h
  obtain ⟨hle, hlt, he, hfirst⟩ := searchBusinessDay_eq_some_iff.1 h
  exact ⟨⟨by omega, he, fun x hx hxe => hfirst x (by omega) hxe⟩, by omega⟩

theorem exists_nextBusinessDay (h : Settles calendar) (d : ℤ) :
    ∃ e, nextBusinessDay calendar d = some e := by
  have hsearch : ∀ (n : ℕ) (date : ℤ), (∃ k : ℕ, k < n ∧ calendar (date + k) = true) →
      ∃ e, searchBusinessDay calendar n date = some e := by
    intro n
    induction n with
    | zero => exact fun date ⟨k, hk, _⟩ => absurd hk (Nat.not_lt_zero k)
    | succ n ih =>
      rintro date ⟨k, hk, hday⟩
      unfold searchBusinessDay
      split
      · exact ⟨date, rfl⟩
      · rename_i hnot
        cases k with
        | zero =>
          rw [Nat.cast_zero, add_zero] at hday
          exact absurd hday hnot
        | succ k =>
          refine ih (nextDate date) ⟨k, by omega, ?_⟩
          unfold nextDate
          rw [← hday]
          congr 1
          rw [Nat.cast_succ, add_assoc, add_comm (1 : ℤ)]
  exact hsearch cutoffSearchDays (nextDate d) (h (nextDate d))

theorem FirstAfter.unique (h : FirstAfter calendar d e) (h' : FirstAfter calendar d s) : e = s := by
  rcases lt_trichotomy e s with hlt | heq | hlt
  · cases (h'.first e h.lt hlt).symm.trans h.business
  · exact heq
  · cases (h.first s h'.lt hlt).symm.trans h'.business

theorem exists_addBusinessDays (h : Settles calendar) (d : ℤ) (n : ℕ) :
    ∃ s, addBusinessDays calendar d n = some s := by
  induction n with
  | zero => exact ⟨d, rfl⟩
  | succ n ih =>
    obtain ⟨s, hs⟩ := ih
    obtain ⟨e, he⟩ := exists_nextBusinessDay h s
    refine ⟨e, ?_⟩
    rw [addBusinessDays, hs]
    exact he

/-- The next business day settles on the business day next to the one this day settles on. -/
theorem addBusinessDays_next (hnext : nextBusinessDay calendar d = some e)
    (hs : addBusinessDays calendar d n = some s) (hs' : nextBusinessDay calendar s = some s') :
    addBusinessDays calendar e n = some s' := by
  induction n generalizing s s' with
  | zero =>
    cases hs
    exact hnext.symm.trans hs'
  | succ n ih =>
    rw [addBusinessDays] at hs
    obtain ⟨u, hu, hs⟩ := Option.bind_eq_some_iff.1 hs
    rw [addBusinessDays, ih hu hs]
    exact hs'

/-- The settlement days of a date are those between two settlements. -/
theorem settlementDays_spec (h : Settles calendar) (lag : ℕ) (d : ℤ) :
    ∃ s e s', addBusinessDays calendar d lag = some s ∧ nextBusinessDay calendar d = some e ∧
      addBusinessDays calendar e lag = some s' ∧
      ∃ k, settlementDays calendar lag d = some k ∧ (k : ℤ) = s' - s := by
  obtain ⟨s, hs⟩ := exists_addBusinessDays h d lag
  obtain ⟨e, he⟩ := exists_nextBusinessDay h d
  obtain ⟨s', hs'⟩ := exists_nextBusinessDay h s
  have hlast := addBusinessDays_next he hs hs'
  obtain ⟨hafter, hle⟩ := firstAfter_of_nextBusinessDay hs'
  have hlt := hafter.lt
  have hspan : (cutoffSearchDays : ℤ) = 3660 := rfl
  refine ⟨s, e, s', hs, he, hlast, (s' - s).toNat, ?_, by omega⟩
  unfold settlementDays
  rw [hs, he]
  show (addBusinessDays calendar e lag >>= fun s' => some (asU32 (s' - s))) = _
  rw [hlast]
  show some (asU32 (s' - s)) = _
  unfold asU32
  rw [if_pos ⟨by omega, by omega⟩]

end

/-! ## Cutoffs -/

namespace DailyAccrual

variable {accrual : DailyAccrual} {n : ℕ} {time : ℤ} {instant after : ℤ} {date d e : ℤ}

theorem searchLocal_eq_some (h : accrual.searchLocal n time = some instant) :
    ∃ k : ℕ, k < n ∧ accrual.zone.localTime instant = time + k * minuteNanos := by
  induction n generalizing time with
  | zero => cases h
  | succ n ih =>
    unfold searchLocal at h
    split at h
    · rename_i found hfound
      cases h
      refine ⟨0, Nat.succ_pos n, ?_⟩
      rw [Nat.cast_zero, zero_mul, add_zero]
      exact accrual.zone.shown time instant hfound
    · obtain ⟨k, hk, hshown⟩ := ih h
      refine ⟨k + 1, Nat.succ_lt_succ hk, ?_⟩
      rw [hshown, Nat.cast_succ, add_mul, one_mul, add_assoc, add_comm minuteNanos]

theorem exists_searchLocal {k : ℕ} (hk : k < n)
    (hshown : accrual.zone.localTime instant = time + k * minuteNanos) :
    ∃ found, accrual.searchLocal n time = some found := by
  induction n generalizing time k with
  | zero => exact absurd hk (Nat.not_lt_zero k)
  | succ n ih =>
    unfold searchLocal
    split
    · exact ⟨_, rfl⟩
    · rename_i hskipped
      cases k with
      | zero =>
        rw [Nat.cast_zero, zero_mul, add_zero] at hshown
        exact absurd hshown (accrual.zone.skipped time hskipped instant)
      | succ k =>
        refine ih (Nat.lt_of_succ_lt_succ hk) (hshown.trans ?_)
        rw [Nat.cast_succ, add_mul, one_mul, add_assoc, add_comm minuteNanos]

/-- A cutoff may be moved to a later date and never to an earlier one. -/
theorem le_localDate (h : accrual.cutoffOn date = some instant) :
    date ≤ accrual.zone.localDate instant := by
  obtain ⟨k, -, hshown⟩ := searchLocal_eq_some h
  have hnanos := accrual.cutoff.nonneg
  unfold TimeZone.localDate dateNaive
  rw [hshown]
  unfold andTime
  apply Int.le_ediv_of_mul_le (by decide)
  have hminutes : (0 : ℤ) ≤ k * minuteNanos := Int.mul_nonneg (Int.natCast_nonneg k) (by decide)
  omega

/-- What the search finds. -/
theorem searchBoundary_found (h : accrual.searchBoundary after n date = some instant) :
    ∃ d, date ≤ d ∧ d < date + n ∧ accrual.hasCutoff d = true ∧ accrual.cutoffOn d = some instant ∧
      after < instant ∧ ∀ e i, date ≤ e → e < d → accrual.hasCutoff e = true →
        accrual.cutoffOn e = some i → i ≤ after := by
  induction n generalizing date with
  | zero => cases h
  | succ n ih =>
    -- The date searched first has no cutoff after the instant, so what the rest finds is the first.
    have hlater : accrual.searchBoundary after n (nextDate date) = some instant →
        (∀ i, accrual.hasCutoff date = true → accrual.cutoffOn date = some i → i ≤ after) →
        ∃ d, date ≤ d ∧ d < date + ((n + 1 : ℕ) : ℤ) ∧ accrual.hasCutoff d = true ∧
          accrual.cutoffOn d = some instant ∧ after < instant ∧ ∀ e i, date ≤ e → e < d →
            accrual.hasCutoff e = true → accrual.cutoffOn e = some i → i ≤ after := by
      intro hrest hpassed
      obtain ⟨d, hle, hlt, hcutoff, hd, hafter, hbefore⟩ := ih hrest
      unfold nextDate at hle hlt hbefore
      refine ⟨d, by omega, by push_cast; omega, hcutoff, hd, hafter, ?_⟩
      intro e i hde hed hcutoff hi
      rcases hde.eq_or_lt with rfl | hde
      · exact hpassed i hcutoff hi
      · exact hbefore e i (by omega) hed hcutoff hi
    unfold searchBoundary at h
    split at h
    · rename_i hcutoff
      obtain ⟨boundary, hboundary, h⟩ := Option.bind_eq_some_iff.1 h
      split at h
      · rename_i hafter
        cases h
        exact ⟨date, le_refl _, by push_cast; omega, hcutoff, hboundary, hafter,
          fun e i hle hlt => absurd hlt (not_lt.2 hle)⟩
      · rename_i hpassed
        refine hlater h ?_
        intro i _ hi
        cases hboundary.symm.trans hi
        exact not_lt.1 hpassed
    · rename_i hnone
      exact hlater h fun i hcutoff => absurd hcutoff hnone

/-- Every date that has a cutoff has an instant for it. -/
def Placed (accrual : DailyAccrual) : Prop :=
  ∀ date, accrual.hasCutoff date = true → ∃ instant, accrual.cutoffOn date = some instant

theorem exists_searchBoundary (hplaced : accrual.Placed) (hle : date ≤ d) (hlt : d < date + n)
    (hcutoff : accrual.hasCutoff d = true) (hd : accrual.cutoffOn d = some instant)
    (hafter : after < instant) : ∃ boundary, accrual.searchBoundary after n date = some boundary := by
  induction n generalizing date with
  | zero =>
    push_cast at hlt
    omega
  | succ n ih =>
    have hlater : date ≠ d →
        ∃ boundary, accrual.searchBoundary after n (nextDate date) = some boundary := by
      intro hne
      unfold nextDate
      push_cast at hlt
      exact ih (by omega) (by omega)
    unfold searchBoundary
    split
    · rename_i hhere
      obtain ⟨boundary, hboundary⟩ := hplaced date hhere
      rw [hboundary]
      show ∃ b, (if after < boundary then some boundary
        else accrual.searchBoundary after n (nextDate date)) = some b
      split
      · exact ⟨boundary, rfl⟩
      · rename_i hpassed
        apply hlater
        rintro rfl
        cases hboundary.symm.trans hd
        exact hpassed hafter
    · rename_i hnone
      apply hlater
      rintro rfl
      exact hnone hcutoff

/-! ## Runs of boundaries -/

/-- The days charged over so many cutoff dates: one for each, or those from the day the first of
    them settles to the day the business day after the last does. -/
def Covers (accrual : DailyAccrual) (first last : ℤ) (dates days : ℕ) : Prop :=
  match accrual.days with
  | .calendar => days = dates
  | .settlement calendar lag => ∃ settles next nextSettles,
    addBusinessDays calendar first lag = some settles ∧
      nextBusinessDay calendar last = some next ∧
      addBusinessDays calendar next lag = some nextSettles ∧ (days : ℤ) = nextSettles - settles

/-- Boundaries one after another from an instant on: they are the cutoffs of ascending dates, each
    later cutoff among them, and what they charge covers those dates. -/
structure Run (accrual : DailyAccrual) (start : DateTime) (dates : ℕ → ℤ) (boundary : ℕ → ℤ)
    (charge : ℕ → ℕ) : Prop where
  first : accrual.nextBoundary start = some (boundary 0)
  next : ∀ n, accrual.nextBoundary (boundary n) = some (boundary (n + 1))
  ascending : StrictMono dates
  cutoff : ∀ n, accrual.hasCutoff (dates n) = true ∧ accrual.cutoffOn (dates n) = some (boundary n)
  visits : ∀ date instant, accrual.hasCutoff date = true → accrual.cutoffOn date = some instant →
    start < instant → ∃ n, dates n = date
  charged : ∀ n, accrual.daysAt (boundary n) = some (charge n)
  covers : ∀ n, accrual.Covers (dates 0) (dates n) (n + 1) (∑ i ∈ Finset.range (n + 1), charge i)

/-- Every cutoff date has its cutoff, the next boundary is the least cutoff after an instant, and
    boundaries one after another visit the cutoffs in turn and charge the days between. -/
structure Tiles (accrual : DailyAccrual) : Prop where
  placed : accrual.Placed
  least : ∀ after : ℤ, ∃ boundary, accrual.nextBoundary after = some boundary ∧
    IsLeast {instant : ℤ | after < instant ∧
      ∃ date, accrual.hasCutoff date = true ∧ accrual.cutoffOn date = some instant} boundary
  run : ∀ start, ∃ dates boundary charge, accrual.Run start dates boundary charge

/-- The zone's clock and the calendar are regular around the cutoffs: a whole minute within the day
    after each is shown, none comes after an instant that the clock dates later, no two dates share
    one, one still to come is near every instant, and one that the clock dates differently covers
    the same days from either date. -/
structure Regular (accrual : DailyAccrual) : Prop where
  shown : ∀ date, accrual.hasCutoff date = true → ∃ (k : ℕ) (instant : DateTime), k ≤ 24 * 60 ∧
    accrual.zone.localTime instant = andTime date accrual.cutoff + k * minuteNanos
  ordered : ∀ date instant, accrual.hasCutoff date = true → accrual.cutoffOn date = some instant →
    ∀ later, date < accrual.zone.localDate later → instant ≤ later
  apart : ∀ d e instant, accrual.hasCutoff d = true → accrual.hasCutoff e = true →
    accrual.cutoffOn d = some instant → accrual.cutoffOn e = some instant → d = e
  near : ∀ after, ∃ date instant, accrual.zone.localDate after ≤ date ∧
    date < accrual.zone.localDate after + cutoffSearchDays ∧ accrual.hasCutoff date = true ∧
    accrual.cutoffOn date = some instant ∧ after < instant
  settles : ∀ calendar lag, accrual.days = .settlement calendar lag → ∀ date instant,
    accrual.hasCutoff date = true → accrual.cutoffOn date = some instant →
    settlementDays calendar lag (accrual.zone.localDate instant) = settlementDays calendar lag date

/-- The calendar, if there is one, settles. -/
def CalendarSettles (accrual : DailyAccrual) : Prop :=
  ∀ calendar lag, accrual.days = .settlement calendar lag → Settles calendar

/-! ## Regular cutoffs tile time -/

theorem Regular.placed (h : accrual.Regular) : accrual.Placed := by
  intro date hcutoff
  obtain ⟨k, instant, hk, hshown⟩ := h.shown date hcutoff
  exact exists_searchLocal (Nat.lt_succ_of_le hk) hshown

/-- The cutoffs of ascending dates ascend. -/
theorem Regular.lt (h : accrual.Regular) {i j : ℤ} (hd : accrual.hasCutoff d = true)
    (he : accrual.hasCutoff e = true) (hi : accrual.cutoffOn d = some i) (hj : accrual.cutoffOn e = some j)
    (hlt : d < e) : i < j := by
  have hle : i ≤ j := h.ordered d i hd hi j (hlt.trans_le (le_localDate hj))
  refine lt_of_le_of_ne hle ?_
  rintro rfl
  exact absurd (h.apart d e i hd he hi hj) (ne_of_lt hlt)

/-- The next boundary is the cutoff of the first date whose cutoff is after the instant. -/
theorem Regular.nextBoundary (h : accrual.Regular) (after : ℤ) :
    ∃ d boundary, accrual.nextBoundary after = some boundary ∧ accrual.hasCutoff d = true ∧
      accrual.cutoffOn d = some boundary ∧ after < boundary ∧
      ∀ e i, accrual.hasCutoff e = true → accrual.cutoffOn e = some i → after < i → d ≤ e := by
  obtain ⟨near, instant, hle, hlt, hnear, hinstant, hafter⟩ := h.near after
  obtain ⟨boundary, hboundary⟩ :=
    exists_searchBoundary h.placed hle hlt hnear hinstant hafter
  obtain ⟨d, hle, hlt, hd, hdb, hafter, hbefore⟩ := searchBoundary_found hboundary
  refine ⟨d, boundary, hboundary, hd, hdb, hafter, ?_⟩
  intro e i he hi hei
  by_contra hnot
  rw [not_le] at hnot
  by_cases hearlier : e < accrual.zone.localDate after
  · exact absurd (h.ordered e i he hi after hearlier) (not_le.2 hei)
  · exact absurd (hbefore e i (not_lt.1 hearlier) hnot he hi) (not_le.2 hei)

theorem Regular.least (h : accrual.Regular) (after : ℤ) :
    ∃ boundary, accrual.nextBoundary after = some boundary ∧
      IsLeast {instant : ℤ | after < instant ∧
        ∃ date, accrual.hasCutoff date = true ∧ accrual.cutoffOn date = some instant} boundary := by
  obtain ⟨d, boundary, hnext, hd, hdb, hafter, hfirst⟩ := h.nextBoundary after
  refine ⟨boundary, hnext, ⟨hafter, d, hd, hdb⟩, ?_⟩
  rintro i ⟨hi, e, he, hei⟩
  rcases (hfirst e i he hei hi).eq_or_lt with rfl | hlt
  · cases hdb.symm.trans hei
    exact le_refl _
  · exact (h.lt hd he hdb hei hlt).le

theorem Regular.charge (h : accrual.Regular) (hcalendar : accrual.CalendarSettles) {boundary : ℤ}
    (hd : accrual.hasCutoff d = true) (hdb : accrual.cutoffOn d = some boundary) :
    ∃ charge, accrual.daysAt boundary = some charge ∧ accrual.Covers d d 1 charge := by
  unfold daysAt Covers
  cases hdays : accrual.days with
  | calendar => exact ⟨1, rfl, rfl⟩
  | settlement calendar lag =>
    obtain ⟨s, e, s', hs, he, hs', k, hk, hcount⟩ :=
      settlementDays_spec (hcalendar calendar lag hdays) lag d
    refine ⟨k, ?_, s, e, s', hs, he, hs', hcount⟩
    dsimp only
    rw [h.settles calendar lag hdays d boundary hd hdb]
    exact hk

/-- Two stretches of charges, the one beginning on the cutoff date after the other's last, cover
    the dates of both. -/
theorem Covers.append {first last next final : ℤ} {m n charge charge' : ℕ}
    (hcovers : accrual.Covers first last m charge)
    (hnext : ∀ calendar lag, accrual.days = .settlement calendar lag →
      nextBusinessDay calendar last = some next)
    (hcovers' : accrual.Covers next final n charge') :
    accrual.Covers first final (m + n) (charge + charge') := by
  unfold Covers at *
  cases hdays : accrual.days with
  | calendar =>
    rw [hdays] at hcovers hcovers'
    dsimp only at *
    omega
  | settlement calendar lag =>
    rw [hdays] at hcovers hcovers'
    obtain ⟨s, e, s', hs, he, hs', hcount⟩ := hcovers
    obtain ⟨t, f, t', ht, hf, ht', hcount'⟩ := hcovers'
    cases he.symm.trans (hnext calendar lag hdays)
    cases hs'.symm.trans ht
    exact ⟨s, f, t', hs, hf, ht', by push_cast; omega⟩

/-- No cutoff date lies between the dates of two boundaries one after the other. -/
theorem Regular.consecutive (h : accrual.Regular) {i j : ℤ} (hd : accrual.hasCutoff d = true)
    (hi : accrual.cutoffOn d = some i) (he : accrual.hasCutoff e = true)
    (hj : accrual.cutoffOn e = some j) (hij : i < j)
    (hfirst : ∀ x k, accrual.hasCutoff x = true → accrual.cutoffOn x = some k → i < k → e ≤ x) :
    d < e ∧ ∀ x, d < x → x < e → accrual.hasCutoff x ≠ true := by
  constructor
  · by_contra hnot
    rcases (not_lt.1 hnot).eq_or_lt with rfl | hlt
    · cases hi.symm.trans hj
      exact lt_irrefl _ hij
    · exact absurd (h.lt he hd hj hi hlt) (not_lt.2 hij.le)
  · intro x hdx hxe hx
    obtain ⟨k, hk⟩ := h.placed x hx
    exact absurd (hfirst x k hx hk (h.lt hd hx hi hk hdx)) (not_le.2 hxe)

theorem nextBusinessDay_of_consecutive (hcalendar : accrual.CalendarSettles)
    (he : accrual.hasCutoff e = true) (hlt : d < e)
    (hbetween : ∀ x, d < x → x < e → accrual.hasCutoff x ≠ true) (calendar : SettlementCalendar)
    (lag : ℕ) (hdays : accrual.days = .settlement calendar lag) :
    nextBusinessDay calendar d = some e := by
  have hbusiness : ∀ x, accrual.hasCutoff x = calendar x := by
    intro x
    unfold hasCutoff
    rw [hdays]
  obtain ⟨found, hfound⟩ := exists_nextBusinessDay (hcalendar calendar lag hdays) d
  rw [hfound, (firstAfter_of_nextBusinessDay hfound).1.unique ⟨hlt, ?_, ?_⟩]
  · rw [← hbusiness]
    exact he
  · intro x hdx hxe
    rw [← hbusiness]
    exact Bool.eq_false_iff.2 (hbetween x hdx hxe)

theorem Regular.run (h : accrual.Regular) (hcalendar : accrual.CalendarSettles) (start : ℤ) :
    ∃ dates boundary charge, accrual.Run start dates boundary charge := by
  -- Each boundary is found from the one before it, together with the date it is the cutoff of.
  choose date bound hnext hcutoff hbound hafter hfirst using h.nextBoundary
  let boundary : ℕ → ℤ := Nat.rec (bound start) fun _ last => bound last
  let dates : ℕ → ℤ := Nat.rec (date start) fun n _ => date (boundary n)
  have hdates : ∀ n, accrual.hasCutoff (dates n) = true ∧
      accrual.cutoffOn (dates n) = some (boundary n) := by
    intro n
    cases n with
    | zero => exact ⟨hcutoff start, hbound start⟩
    | succ n => exact ⟨hcutoff (boundary n), hbound (boundary n)⟩
  have hconsecutive : ∀ n, dates n < dates (n + 1) ∧
      ∀ x, dates n < x → x < dates (n + 1) → accrual.hasCutoff x ≠ true := fun n =>
    h.consecutive (hdates n).1 (hdates n).2 (hdates (n + 1)).1 (hdates (n + 1)).2
      (hafter (boundary n)) (hfirst (boundary n))
  have hmono : StrictMono dates := strictMono_nat_of_lt_succ fun n => (hconsecutive n).1
  choose charge hcharge hcovers using fun n => h.charge hcalendar (hdates n).1 (hdates n).2
  refine ⟨dates, boundary, charge, ⟨hnext start, fun n => hnext (boundary n), hmono, hdates, ?_,
    hcharge, ?_⟩⟩
  · intro x i hx hi hstart
    by_contra hmissed
    push Not at hmissed
    -- A date that is no boundary's is passed by none, however far they go.
    have hbelow : ∀ n, dates n < x := by
      intro n
      induction n with
      | zero => exact lt_of_le_of_ne (hfirst start x i hx hi hstart) (hmissed 0)
      | succ n ih =>
        by_contra hnot
        have hpast : x < dates (n + 1) :=
          lt_of_le_of_ne (not_lt.1 hnot) (hmissed (n + 1)).symm
        exact (hconsecutive n).2 x ih hpast hx
    have hgrow : ∀ n : ℕ, dates 0 + n ≤ dates n := by
      intro n
      induction n with
      | zero => simp
      | succ n ih =>
        have hstep := (hconsecutive n).1
        push_cast
        omega
    have hfar := (hgrow (x - dates 0).toNat).trans_lt (hbelow (x - dates 0).toNat)
    have hstart := hbelow 0
    omega
  · intro n
    induction n with
    | zero =>
      rw [Finset.sum_range_one]
      exact hcovers 0
    | succ n ih =>
      rw [Finset.sum_range_succ]
      exact ih.append (nextBusinessDay_of_consecutive hcalendar (hdates (n + 1)).1
        (hconsecutive n).1 (hconsecutive n).2) (hcovers (n + 1))

/-! ## Cutoffs that tile time are regular -/

theorem Tiles.lt (h : accrual.Tiles) {after boundary : ℤ}
    (hnext : accrual.nextBoundary after = some boundary) : after < boundary := by
  obtain ⟨found, hfound, hleast⟩ := h.least after
  cases hnext.symm.trans hfound
  exact hleast.1.1

theorem Tiles.strictMono (h : accrual.Tiles) {start : ℤ} {dates boundary : ℕ → ℤ}
    {charge : ℕ → ℕ} (hrun : accrual.Run start dates boundary charge) : StrictMono boundary :=
  strictMono_nat_of_lt_succ fun n => h.lt (hrun.next n)

/-- A cutoff is the first boundary after the instant before it. -/
theorem Tiles.run_at (h : accrual.Tiles) {i : ℤ} (hd : accrual.hasCutoff d = true)
    (hi : accrual.cutoffOn d = some i) : ∃ dates boundary charge,
    accrual.Run (i - 1) dates boundary charge ∧ boundary 0 = i ∧ dates 0 = d := by
  obtain ⟨dates, boundary, charge, hrun⟩ := h.run (i - 1)
  obtain ⟨found, hfound, hleast⟩ := h.least (i - 1)
  cases hrun.first.symm.trans hfound
  have hle : boundary 0 ≤ i := hleast.2 ⟨by omega, d, hd, hi⟩
  have hlt := hleast.1.1
  have hzero : boundary 0 = i := by omega
  obtain ⟨n, hn⟩ := hrun.visits d i hd hi (sub_one_lt i)
  have hbn : boundary n = i := by
    have hcutoff := (hrun.cutoff n).2
    rw [hn, hi] at hcutoff
    exact (Option.some.inj hcutoff).symm
  have hfirst : n = 0 := (h.strictMono hrun).injective (hbn.trans hzero.symm)
  refine ⟨dates, boundary, charge, hrun, hzero, ?_⟩
  rw [← hfirst]
  exact hn

theorem Tiles.apart (h : accrual.Tiles) {i : ℤ} (hd : accrual.hasCutoff d = true)
    (he : accrual.hasCutoff e = true) (hi : accrual.cutoffOn d = some i)
    (hi' : accrual.cutoffOn e = some i) : d = e := by
  obtain ⟨dates, boundary, charge, hrun, hzero, hdate⟩ := h.run_at hd hi
  obtain ⟨n, hn⟩ := hrun.visits e i he hi' (sub_one_lt i)
  have hbn : boundary n = i := by
    have hcutoff := (hrun.cutoff n).2
    rw [hn, hi'] at hcutoff
    exact (Option.some.inj hcutoff).symm
  have hfirst : n = 0 := (h.strictMono hrun).injective (hbn.trans hzero.symm)
  rw [← hdate, ← hn, hfirst]

theorem Tiles.ordered (h : accrual.Tiles) {i later : ℤ} (hd : accrual.hasCutoff d = true)
    (hi : accrual.cutoffOn d = some i) (hlater : d < accrual.zone.localDate later) :
    i ≤ later := by
  by_contra hnot
  obtain ⟨dates, boundary, charge, hrun⟩ := h.run later
  obtain ⟨n, hn⟩ := hrun.visits d i hd hi (not_le.1 hnot)
  -- The search starts at the later date, so its first boundary is a later date's cutoff.
  obtain ⟨e, hle, -, he, hei, hafter, -⟩ := searchBoundary_found hrun.first
  obtain ⟨m, hm⟩ := hrun.visits e (boundary 0) he hei hafter
  have hbm : boundary m = boundary 0 := by
    have hcutoff := (hrun.cutoff m).2
    rw [hm, hei] at hcutoff
    exact (Option.some.inj hcutoff).symm
  have hzero : m = 0 := (h.strictMono hrun).injective hbm
  have hascending : dates 0 ≤ dates n := hrun.ascending.monotone (Nat.zero_le n)
  rw [hzero] at hm
  omega

theorem Tiles.settles (h : accrual.Tiles) (hcalendar : accrual.CalendarSettles)
    {calendar : SettlementCalendar} {lag : ℕ} (hdays : accrual.days = .settlement calendar lag)
    {i : ℤ} (hd : accrual.hasCutoff d = true) (hi : accrual.cutoffOn d = some i) :
    settlementDays calendar lag (accrual.zone.localDate i) = settlementDays calendar lag d := by
  obtain ⟨dates, boundary, charge, hrun, hzero, hdate⟩ := h.run_at hd hi
  have hcharged := hrun.charged 0
  have hcovers := hrun.covers 0
  unfold daysAt at hcharged
  unfold Covers at hcovers
  rw [hdays] at hcharged hcovers
  dsimp only at hcharged hcovers
  rw [hzero] at hcharged
  rw [hdate, Finset.sum_range_one] at hcovers
  obtain ⟨s, e, s', hs, he, hs', hcount⟩ := hcovers
  obtain ⟨t, f, t', ht, hf, ht', k, hk, hcount'⟩ :=
    settlementDays_spec (hcalendar calendar lag hdays) lag d
  cases hs.symm.trans ht
  cases he.symm.trans hf
  cases hs'.symm.trans ht'
  have hsame : charge 0 = k := by omega
  rw [hcharged, hk, hsame]

theorem Tiles.regular (h : accrual.Tiles) (hcalendar : accrual.CalendarSettles) :
    accrual.Regular := by
  refine ⟨?_, fun date instant hd hi later => h.ordered hd hi,
    fun d e instant hd he hi hi' => h.apart hd he hi hi', ?_,
    fun calendar lag hdays date instant hd hi => h.settles hcalendar hdays hd hi⟩
  · intro date hcutoff
    obtain ⟨instant, hinstant⟩ := h.placed date hcutoff
    obtain ⟨k, hk, hshown⟩ := searchLocal_eq_some hinstant
    exact ⟨k, instant, Nat.le_of_lt_succ hk, hshown⟩
  · intro after
    obtain ⟨boundary, hnext, -⟩ := h.least after
    obtain ⟨d, hle, hlt, hd, hdb, hafter, -⟩ := searchBoundary_found hnext
    exact ⟨d, boundary, hle, hlt, hd, hdb, hafter⟩

/-- The boundaries of an accrual tile time exactly when its cutoffs are regular. -/
theorem tiles_iff (hcalendar : accrual.CalendarSettles) : accrual.Tiles ↔ accrual.Regular :=
  ⟨fun h => h.regular hcalendar, fun h => ⟨h.placed, h.least, h.run hcalendar⟩⟩

theorem settles_weekendsOnly : Settles weekendsOnly := by
  intro date
  by_cases hweekday : (date + 3) % 7 < 5
  · exact ⟨0, by decide, by simpa [weekendsOnly] using hweekday⟩
  · refine ⟨2, by decide, ?_⟩
    unfold weekendsOnly
    rw [decide_eq_true_eq]
    show (date + 2 + 3 : ℤ) % 7 < 5
    omega

/-- Half past eleven at night on weekdays, settled the same day. -/
def lateNight (zone : TimeZone) : DailyAccrual where
  cutoff := ⟨84600000000000, by decide, by decide⟩
  zone
  days := .settlement weekendsOnly 0

theorem calendarSettles_lateNight (zone : TimeZone) : (lateNight zone).CalendarSettles := by
  intro calendar lag hdays
  cases hdays
  exact settles_weekendsOnly

theorem cutoffOn_utc (date : ℤ) : (lateNight .utc).cutoffOn date =
    some (date * 86400000000000 + 84600000000000 : ℤ) := rfl

theorem eq_of_cutoffOn_utc {date instant : ℤ}
    (h : (lateNight .utc).cutoffOn date = some instant) :
    instant = date * 86400000000000 + 84600000000000 := by
  rw [cutoffOn_utc] at h
  exact (Option.some.inj h).symm

theorem localDate_utc (instant : ℤ) :
    (lateNight .utc).zone.localDate instant = instant / 86400000000000 := by
  show (instant + 0 : ℤ) / 86400000000000 = _
  rw [add_zero]

theorem le_of_date_lt {date instant later : ℤ}
    (hinstant : instant = date * 86400000000000 + 84600000000000)
    (hlater : date < later / 86400000000000) : instant ≤ later := by
  omega

theorem date_eq {d e instant : ℤ} (hd : instant = d * 86400000000000 + 84600000000000)
    (he : instant = e * 86400000000000 + 84600000000000) : d = e := by
  omega

theorem div_eq_date {date instant : ℤ}
    (h : instant = date * 86400000000000 + 84600000000000) :
    instant / 86400000000000 = date := by
  omega

theorem exists_weekday (date : ℤ) : ∃ e, date < e ∧ e ≤ date + 3 ∧ (e + 3) % 7 < 5 := by
  by_cases hnext : (date + 1 + 3) % 7 < 5
  · exact ⟨date + 1, by omega, by omega, hnext⟩
  · by_cases hsecond : (date + 2 + 3) % 7 < 5
    · exact ⟨date + 2, by omega, by omega, hsecond⟩
    · exact ⟨date + 3, by omega, by omega, by omega⟩

/-- The cutoff of a date after the one an instant falls on is after the instant. -/
theorem lt_of_div_lt {date after : ℤ} (h : after / 86400000000000 < date) :
    after < date * 86400000000000 + 84600000000000 := by
  omega

/-- A clock that never moves is regular. -/
theorem regular_utc : (lateNight .utc).Regular := by
  refine ⟨?_, ?_, ?_, ?_, ?_⟩
  · intro date _
    refine ⟨0, andTime date (lateNight .utc).cutoff, by decide, ?_⟩
    show _ + 0 = _ + ((0 : ℕ) : ℤ) * minuteNanos
    simp
  · intro date instant _ hinstant later hlater
    rw [localDate_utc] at hlater
    exact le_of_date_lt (eq_of_cutoffOn_utc hinstant) hlater
  · intro d e instant _ _ hd he
    exact date_eq (eq_of_cutoffOn_utc hd) (eq_of_cutoffOn_utc he)
  · intro after
    obtain ⟨date, hlow, hhigh, hweekday⟩ := exists_weekday (after / 86400000000000)
    have hreach : date < after / 86400000000000 + (3660 : ℕ) := by omega
    refine ⟨date, _, ?_, ?_, ?_, cutoffOn_utc date, lt_of_div_lt hlow⟩
    · rw [localDate_utc]
      exact hlow.le
    · rw [localDate_utc]
      exact hreach
    · show weekendsOnly date = true
      unfold weekendsOnly
      rw [decide_eq_true_eq]
      exact hweekday
  · intro calendar lag _ date instant _ hinstant
    rw [localDate_utc, div_eq_date (eq_of_cutoffOn_utc hinstant)]

theorem tiles_utc : (lateNight .utc).Tiles :=
  (tiles_iff (calendarSettles_lateNight .utc)).2 regular_utc

section

/-- The clock is put forward an hour at eleven on the first Friday night. -/
def gapOffset (instant : ℤ) : ℤ := if instant < 169200000000000 then 0 else 3600000000000

def gapEarliest (time : ℤ) : Option ℤ :=
  if time < 169200000000000 then some time
  else if time < 172800000000000 then none
  else some (time - 3600000000000)

variable {time instant other : ℤ}

theorem gapEarliest_eq_some_iff :
    gapEarliest time = some instant ↔ instant + gapOffset instant = time := by
  unfold gapEarliest gapOffset
  constructor
  · intro h
    split at h
    · rename_i hbefore
      cases h
      rw [if_pos hbefore, add_zero]
    · split at h
      · cases h
      · cases h
        rw [if_neg (by omega)]
        omega
  · intro h
    split at h
    · rw [if_pos (by omega), Option.some.injEq]
      omega
    · rw [if_neg (by omega), if_neg (by omega), Option.some.injEq]
      omega

def fridayGap : TimeZone where
  offset := gapOffset
  earliest := gapEarliest
  shown _ _ h := gapEarliest_eq_some_iff.1 h
  first _ _ h _ hother :=
    (Option.some.inj (h.symm.trans (gapEarliest_eq_some_iff.2 hother))).le
  skipped _ h _ hshown := by
    cases h.symm.trans (gapEarliest_eq_some_iff.2 hshown)

end

/-- Friday's cutoff falls on Saturday, and is charged two days in place of three. -/
theorem fridayGap_not_tiles : ¬ (lateNight fridayGap).Tiles := by
  intro h
  have hcutoff : (lateNight fridayGap).cutoffOn 1 = some 169200000000000 := by decide +kernel
  have hsame := h.settles (calendarSettles_lateNight fridayGap) rfl (by decide) hcutoff
  exact absurd hsame (by decide +kernel)

end DailyAccrual

end Rustrade.Accrual
