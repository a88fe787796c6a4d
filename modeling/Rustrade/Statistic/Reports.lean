import Mathlib.Algebra.Order.Ring.Rat
import Mathlib.Algebra.BigOperators.Ring.Finset
import Mathlib.Tactic.FieldSimp
import Mathlib.Tactic.Ring
import Rustrade.Statistic.Drawdown

/-!
# Tear sheets over a run of balances and reports

`generate` feeds the drawdown of the period still open to the mean and the largest, and so counts
that period once more at every report. The largest is the same however often a period is counted;
the mean is not, unless what the reports added averages to it.
-/

set_option autoImplicit false

namespace Rustrade.Statistic

/-! ## The drawdown of the open period -/

/-- The generator holds the current peak, when it was reached, and its depth. -/
def openGenerator (seed : Timed Decimal) (points : List (Timed Decimal)) : DrawdownGenerator :=
  { peak := some (currentPeak seed points).value
    drawdownMax := openDrawdown seed points
    timePeak := some (currentPeak seed points).time
    timeNow := (points.getLastD seed).time }

/-- The period the values are in, from its peak to the last value. -/
def openPeriod (seed : Timed Decimal) (points : List (Timed Decimal)) : Option Drawdown :=
  if openDrawdown seed points ≠ 0 then
    some ⟨openDrawdown seed points, (currentPeak seed points).time, (points.getLastD seed).time⟩
  else none

variable {seed : Timed Decimal} {points : List (Timed Decimal)}

theorem generate_openGenerator :
    (openGenerator seed points).generate = openPeriod seed points := rfl

theorem init_eq : DrawdownGenerator.init seed = openGenerator seed [] := by
  simp [openGenerator, openDrawdown, depth, marks, marksFrom, currentPeak, Mark.drawdown,
    DrawdownGenerator.init]

theorem currentPeak_pos (hseed : 0 < seed.value) : 0 < (currentPeak seed points).value := by
  have h := (peak_le_currentPeak seed points).1 ⟨seed, seed⟩ (by simp [marks])
  exact lt_of_lt_of_le hseed h

/-- A value above the peak begins a period without a drawdown, -/
theorem openDrawdown_of_lt {point : Timed Decimal}
    (h : (currentPeak seed points).value < point.value) :
    openDrawdown seed (points ++ [point]) = 0 := by
  have hnone : depth (marks seed points) point.value = 0 := by
    unfold depth
    rw [List.filter_eq_nil_iff.mpr]
    · rfl
    · intro other hother
      have hle := (peak_le_currentPeak seed points).1 other hother
      simpa using ne_of_lt (lt_of_le_of_lt hle h)
  rw [openDrawdown, currentPeak_append, marks_append, runningPeak, if_pos h, depth_append,
    if_pos rfl, hnone]
  simp [Mark.drawdown]

/-- and any other value belongs to the period the values are in. -/
theorem openDrawdown_of_le {point : Timed Decimal}
    (h : point.value ≤ (currentPeak seed points).value) :
    openDrawdown seed (points ++ [point]) = max (openDrawdown seed points)
      (((currentPeak seed points).value - point.value) / (currentPeak seed points).value) := by
  rw [openDrawdown, currentPeak_append, marks_append, runningPeak, if_neg (not_lt.mpr h),
    depth_append, if_pos rfl]
  rfl

theorem update_openGenerator (hseed : 0 < seed.value) (point : Timed Decimal) :
    (openGenerator seed points).update point = (openGenerator seed (points ++ [point]),
      if (currentPeak seed points).value < point.value then
        (openPeriod seed points).map fun period => { period with timeEnd := point.time }
      else none) := by
  have hpeak : (currentPeak seed points).value ≠ 0 := ne_of_gt (currentPeak_pos hseed)
  by_cases h : (currentPeak seed points).value < point.value
  · have hzero := openDrawdown_of_lt h
    have hnext : currentPeak seed (points ++ [point]) = point := by
      rw [currentPeak_append, runningPeak, if_pos h]
    by_cases hopen : openDrawdown seed points = 0
    · simp [DrawdownGenerator.update, DrawdownGenerator.generate, openGenerator, openPeriod, h,
        hzero, hnext, hopen]
    · simp [DrawdownGenerator.update, DrawdownGenerator.generate, openGenerator, openPeriod, h,
        hzero, hnext, hopen]
  · have hmax := openDrawdown_of_le (not_lt.mp h)
    have hnext : currentPeak seed (points ++ [point]) = currentPeak seed points := by
      rw [currentPeak_append, runningPeak, if_neg h]
    simp only [DrawdownGenerator.update, openGenerator, h, hpeak, if_false, hmax, hnext,
      List.getLastD_concat]
    by_cases hlt : openDrawdown seed points <
        ((currentPeak seed points).value - point.value) / (currentPeak seed points).value
    · simp only [hlt, if_true, max_eq_right hlt.le]
    · simp only [hlt, if_false, max_eq_left (not_lt.mp hlt)]

/-! ## The periods that have ended -/

/-- The peaks before the current one. -/
def endedPeaks (seed : Timed Decimal) (points : List (Timed Decimal)) : Finset Decimal :=
  (peaks (marks seed points)).erase (currentPeak seed points).value

theorem currentPeak_mem_peaks :
    (currentPeak seed points).value ∈ peaks (marks seed points) := by
  obtain ⟨mark, hmark, heq⟩ := (peak_le_currentPeak seed points).2
  exact mem_peaks.mpr ⟨mark, hmark, by rw [heq]⟩

theorem endedPeaks_of_lt {point : Timed Decimal}
    (h : (currentPeak seed points).value < point.value) :
    endedPeaks seed (points ++ [point]) =
      insert (currentPeak seed points).value (endedPeaks seed points) := by
  have hnew : point.value ∉ peaks (marks seed points) := by
    intro hmem
    obtain ⟨mark, hmark, heq⟩ := mem_peaks.mp hmem
    have hle := (peak_le_currentPeak seed points).1 mark hmark
    rw [heq] at hle
    exact absurd h (not_lt.mpr hle)
  unfold endedPeaks
  rw [marks_append, currentPeak_append, runningPeak, if_pos h, peaks_append,
    Finset.erase_insert hnew, Finset.insert_erase currentPeak_mem_peaks]

theorem endedPeaks_of_le {point : Timed Decimal}
    (h : point.value ≤ (currentPeak seed points).value) :
    endedPeaks seed (points ++ [point]) = endedPeaks seed points := by
  unfold endedPeaks
  rw [marks_append, currentPeak_append, runningPeak, if_neg (not_lt.mpr h), peaks_append,
    Finset.insert_eq_of_mem currentPeak_mem_peaks]

/-- No later value changes the depth of a period that has ended. -/
theorem depth_of_ended (point : Timed Decimal) {peak : Decimal}
    (hended : peak ∈ endedPeaks seed (points ++ [point])) :
    depth (marks seed (points ++ [point])) peak = depth (marks seed points) peak := by
  have hne := Finset.ne_of_mem_erase hended
  rw [currentPeak_append] at hne
  rw [marks_append, depth_append, if_neg (Ne.symm hne)]

theorem sum_endedPeaks_of_le {T : Type} [AddCommMonoid T] (f : Decimal → T) {point : Timed Decimal}
    (h : point.value ≤ (currentPeak seed points).value) :
    ∑ peak ∈ endedPeaks seed (points ++ [point]), f (depth (marks seed (points ++ [point])) peak) =
      ∑ peak ∈ endedPeaks seed points, f (depth (marks seed points) peak) := by
  have hsame : endedPeaks seed (points ++ [point]) = endedPeaks seed points := endedPeaks_of_le h
  rw [hsame]
  apply Finset.sum_congr rfl
  intro peak hpeak
  rw [depth_of_ended point (hsame ▸ hpeak)]

theorem sum_endedPeaks_of_lt {T : Type} [AddCommMonoid T] (f : Decimal → T) {point : Timed Decimal}
    (h : (currentPeak seed points).value < point.value) :
    ∑ peak ∈ endedPeaks seed (points ++ [point]), f (depth (marks seed (points ++ [point])) peak) =
      f (openDrawdown seed points) +
        ∑ peak ∈ endedPeaks seed points, f (depth (marks seed points) peak) := by
  have hgrown : endedPeaks seed (points ++ [point]) =
      insert (currentPeak seed points).value (endedPeaks seed points) := endedPeaks_of_lt h
  have hkept : ∀ peak ∈ insert (currentPeak seed points).value (endedPeaks seed points),
      depth (marks seed (points ++ [point])) peak = depth (marks seed points) peak := by
    intro peak hpeak
    exact depth_of_ended point (hgrown ▸ hpeak)
  have hnew : (currentPeak seed points).value ∉ endedPeaks seed points :=
    Finset.notMem_erase _ _
  rw [hgrown, Finset.sum_congr rfl fun peak hpeak => congrArg f (hkept peak hpeak),
    Finset.sum_insert hnew]
  rfl

/-! ## What is recorded -/

theorem mean_foldl (recorded : List Drawdown) :
    (recorded.foldl MeanDrawdownGenerator.update ⟨0, none⟩).count = recorded.length ∧
    (recorded.foldl MeanDrawdownGenerator.update ⟨0, none⟩).meanDrawdown.map (·.meanDrawdown) =
      if recorded.length = 0 then none
      else some ((recorded.map Drawdown.value).sum / recorded.length) := by
  induction recorded using List.reverseRecOn with
  | nil => simp
  | append_singleton recorded next ih =>
    obtain ⟨hcount, hmean⟩ := ih
    rw [List.foldl_append, List.foldl_cons, List.foldl_nil]
    generalize recorded.foldl MeanDrawdownGenerator.update ⟨0, none⟩ = generator at hcount hmean ⊢
    have hlength : ((recorded.length : ℚ) + 1) ≠ 0 := by positivity
    constructor
    · simp [MeanDrawdownGenerator.update, hcount]
    · cases hsome : generator.meanDrawdown with
      | none =>
        have hempty : recorded.length = 0 := by
          by_contra hne
          simp [hsome, hne] at hmean
        simp [MeanDrawdownGenerator.update, hsome, List.length_eq_zero_iff.mp hempty]
      | some mean =>
        have hne : (recorded.length : ℚ) ≠ 0 := by
          intro hzero
          simp [hsome, Nat.cast_eq_zero.mp hzero] at hmean
        have hvalue : mean.meanDrawdown =
            (recorded.map Drawdown.value).sum / recorded.length := by
          have hnat : recorded.length ≠ 0 := Nat.cast_ne_zero.mp hne
          simpa [hsome, hnat] using hmean
        simp only [MeanDrawdownGenerator.update, hsome, hcount, Option.map_some,
          List.length_append, List.length_singleton, Nat.add_one_ne_zero, if_false, calculateMean,
          hvalue, List.map_append, List.map_cons, List.map_nil, List.sum_append, List.sum_cons,
          List.sum_nil, Option.some.injEq]
        push_cast
        field_simp
        ring

theorem max_foldl {recorded : List Drawdown} (hpos : ∀ drawdown ∈ recorded, 0 < drawdown.value) :
    (recorded = [] ∧ (recorded.foldl MaxDrawdownGenerator.update ⟨none⟩).max = none) ∨
    ∃ largest ∈ recorded,
      (recorded.foldl MaxDrawdownGenerator.update ⟨none⟩).max = some largest ∧
      ∀ drawdown ∈ recorded, drawdown.value ≤ largest.value := by
  induction recorded using List.reverseRecOn with
  | nil => exact Or.inl ⟨rfl, rfl⟩
  | append_singleton recorded next ih =>
    refine Or.inr ?_
    rw [List.foldl_append, List.foldl_cons, List.foldl_nil]
    have hnext : 0 < next.value := hpos next (by simp)
    obtain ⟨rfl, hnone⟩ | ⟨largest, hmem, hlargest, hall⟩ :=
      ih fun drawdown h => hpos drawdown (List.mem_append_left _ h)
    · exact ⟨next, by simp, by simp [MaxDrawdownGenerator.update], by simp⟩
    · have hpositive : 0 < largest.value := hpos largest (List.mem_append_left _ hmem)
      by_cases hlt : largest.value < next.value
      · refine ⟨next, by simp, ?_, ?_⟩
        · simp [MaxDrawdownGenerator.update, hlargest, abs_of_pos, hnext, hpositive, hlt]
        · intro drawdown hdrawdown
          obtain hold | hnew := List.mem_append.mp hdrawdown
          · exact (hall drawdown hold).trans hlt.le
          · rw [List.mem_singleton.mp hnew]
      · refine ⟨largest, List.mem_append_left _ hmem, ?_, ?_⟩
        · simp [MaxDrawdownGenerator.update, hlargest, abs_of_pos, hnext, hpositive, hlt]
        · intro drawdown hdrawdown
          obtain hold | hnew := List.mem_append.mp hdrawdown
          · exact hall drawdown hold
          · rw [List.mem_singleton.mp hnew]
            exact not_lt.mp hlt

/-- The generator's mean and largest are those of `recorded`: the ended periods, and the open
    drawdown at each report. -/
structure Records (generator : TearSheetAssetGenerator) (seed : Timed Decimal)
    (points : List (Timed Decimal)) (reported : List Decimal) (recorded : List Drawdown) :
    Prop where
  drawdown : generator.drawdown = openGenerator seed points
  mean : generator.drawdownMean = recorded.foldl MeanDrawdownGenerator.update ⟨0, none⟩
  max : generator.drawdownMax = recorded.foldl MaxDrawdownGenerator.update ⟨none⟩
  sum : ∀ f : Decimal → ℚ, f 0 = 0 → (recorded.map fun drawdown => f drawdown.value).sum =
    ∑ peak ∈ endedPeaks seed points, f (depth (marks seed points) peak) + (reported.map f).sum
  pos : ∀ drawdown ∈ recorded, 0 < drawdown.value
  marked : ∀ drawdown ∈ recorded, ∃ mark ∈ marks seed points, mark.drawdown = drawdown.value
  ended : ∀ peak ∈ endedPeaks seed points, depth (marks seed points) peak ≠ 0 →
    ∃ drawdown ∈ recorded, drawdown.value = depth (marks seed points) peak

variable (seed points) in
theorem openPeriod_cases :
    (openDrawdown seed points = 0 ∧ openPeriod seed points = none) ∨
    ∃ period, openPeriod seed points = some period ∧ period.value = openDrawdown seed points ∧
      0 < openDrawdown seed points ∧
      ∃ mark ∈ marks seed points, mark.drawdown = openDrawdown seed points := by
  by_cases hzero : openDrawdown seed points = 0
  · exact Or.inl ⟨hzero, by simp [openPeriod, hzero]⟩
  · refine Or.inr ⟨⟨openDrawdown seed points, (currentPeak seed points).time,
      (points.getLastD seed).time⟩, by simp [openPeriod, hzero], rfl,
      lt_of_le_of_ne (depth_nonneg _ _) (Ne.symm hzero), ?_⟩
    exact (depth_eq_zero_or).resolve_left hzero

theorem mem_marks_append {mark : Mark} (point : Timed Decimal) (h : mark ∈ marks seed points) :
    mark ∈ marks seed (points ++ [point]) := by
  rw [marks_append]
  exact List.mem_append_left _ h

variable {generator : TearSheetAssetGenerator} {reported : List Decimal}
  {recorded : List Drawdown}

theorem Records.init (balance : Timed Mock.Balance) (basis : BalanceBasis) :
    Records (.initWithBasis balance basis) ⟨basis.value balance.value, balance.time⟩ [] [] [] := by
  refine ⟨init_eq, rfl, rfl, fun f _ => ?_, by simp, by simp, ?_⟩
  · simp [endedPeaks, peaks, marks, marksFrom, currentPeak]
  · simp [endedPeaks, peaks, marks, marksFrom, currentPeak]

/-- A report records the period still open. -/
theorem Records.generate (h : Records generator seed points reported recorded) :
    Records generator.generate.1 seed points (reported ++ [openDrawdown seed points])
      (recorded ++ (openPeriod seed points).toList) := by
  have hcurrent : generator.drawdown.generate = openPeriod seed points := by
    rw [h.drawdown, generate_openGenerator]
  obtain ⟨hzero, hnone⟩ | ⟨period, hsome, hvalue, hpos, hmark⟩ :=
    openPeriod_cases seed points
  · rw [hnone] at hcurrent ⊢
    simp only [TearSheetAssetGenerator.generate, hcurrent,
      TearSheetAssetGenerator.recordDrawdown, Option.toList_none, List.append_nil]
    refine ⟨h.drawdown, h.mean, h.max, fun f hf => ?_, h.pos, h.marked, h.ended⟩
    rw [h.sum f hf]
    simp [hzero, hf]
  · rw [hsome] at hcurrent ⊢
    simp only [TearSheetAssetGenerator.generate, hcurrent,
      TearSheetAssetGenerator.recordDrawdown, Option.toList_some]
    refine ⟨h.drawdown, ?_, ?_, fun f hf => ?_, ?_, ?_, ?_⟩
    · simp [h.mean, List.foldl_append]
    · simp [h.max, List.foldl_append]
    · rw [List.map_append, List.sum_append, h.sum f hf]
      simp [hvalue, add_assoc]
    · intro drawdown hdrawdown
      obtain hold | hnew := List.mem_append.mp hdrawdown
      · exact h.pos drawdown hold
      · rw [List.mem_singleton.mp hnew, hvalue]
        exact hpos
    · intro drawdown hdrawdown
      obtain hold | hnew := List.mem_append.mp hdrawdown
      · exact h.marked drawdown hold
      · rw [List.mem_singleton.mp hnew, hvalue]
        exact hmark
    · intro peak hpeak hdepth
      obtain ⟨drawdown, hmem, heq⟩ := h.ended peak hpeak hdepth
      exact ⟨drawdown, List.mem_append_left _ hmem, heq⟩

/-- A balance records the period it ends, if it ends one. -/
theorem Records.update (hseed : 0 < seed.value) (balance : Mock.Balance) (time : DateTime)
    (h : Records generator seed points reported recorded) :
    ∃ recorded', Records (generator.updateFromBalanceParts balance time) seed
      (points ++ [⟨generator.basis.value balance, time⟩]) reported recorded' := by
  generalize hpoint : (⟨generator.basis.value balance, time⟩ : Timed Decimal) = point
  have hupdate : generator.drawdown.update ⟨generator.basis.value balance, time⟩ =
      (openGenerator seed (points ++ [point]),
        if (currentPeak seed points).value < point.value then
          (openPeriod seed points).map fun period => { period with timeEnd := point.time }
        else none) := by
    rw [h.drawdown, hpoint]
    exact update_openGenerator hseed point
  by_cases hlt : (currentPeak seed points).value < point.value
  · rw [if_pos hlt] at hupdate
    have hsum := fun f : Decimal → ℚ => sum_endedPeaks_of_lt f hlt
    have hgrown : endedPeaks seed (points ++ [point]) =
        insert (currentPeak seed points).value (endedPeaks seed points) := endedPeaks_of_lt hlt
    have hdepth : ∀ peak ∈ endedPeaks seed (points ++ [point]),
        depth (marks seed (points ++ [point])) peak = depth (marks seed points) peak :=
      fun peak hpeak => depth_of_ended point hpeak
    obtain ⟨hzero, hnone⟩ | ⟨period, hsome, hvalue, hpos, mark, hmark, hdrawdown⟩ :=
      openPeriod_cases seed points
    · refine ⟨recorded, ?_⟩
      rw [hnone, Option.map_none] at hupdate
      simp only [TearSheetAssetGenerator.updateFromBalanceParts, hupdate,
        TearSheetAssetGenerator.recordDrawdown]
      refine ⟨rfl, h.mean, h.max, fun f hf => ?_, h.pos, ?_, ?_⟩
      · rw [h.sum f hf, hsum f, hzero, hf, zero_add]
      · intro drawdown hdrawdown
        obtain ⟨mark, hmark, heq⟩ := h.marked drawdown hdrawdown
        exact ⟨mark, mem_marks_append point hmark, heq⟩
      · intro peak hpeak hne
        rw [hdepth peak hpeak] at hne ⊢
        rw [hgrown] at hpeak
        obtain rfl | hold := Finset.mem_insert.mp hpeak
        · exact absurd hzero hne
        · exact h.ended peak hold hne
    · refine ⟨recorded ++ [{ period with timeEnd := point.time }], ?_⟩
      rw [hsome, Option.map_some] at hupdate
      simp only [TearSheetAssetGenerator.updateFromBalanceParts, hupdate,
        TearSheetAssetGenerator.recordDrawdown]
      refine ⟨rfl, ?_, ?_, fun f hf => ?_, ?_, ?_, ?_⟩
      · simp [h.mean, List.foldl_append]
      · simp [h.max, List.foldl_append]
      · rw [List.map_append, List.sum_append, h.sum f hf, hsum f, ← hvalue]
        simp only [List.map_cons, List.map_nil, List.sum_cons, List.sum_nil]
        ring
      · intro drawdown hmem
        obtain hold | hnew := List.mem_append.mp hmem
        · exact h.pos drawdown hold
        · rw [List.mem_singleton.mp hnew]
          exact lt_of_lt_of_eq hpos hvalue.symm
      · intro drawdown hmem
        obtain hold | hnew := List.mem_append.mp hmem
        · obtain ⟨other, hother, heq⟩ := h.marked drawdown hold
          exact ⟨other, mem_marks_append point hother, heq⟩
        · rw [List.mem_singleton.mp hnew]
          exact ⟨mark, mem_marks_append point hmark, hdrawdown.trans hvalue.symm⟩
      · intro peak hpeak hne
        rw [hdepth peak hpeak] at hne ⊢
        rw [hgrown] at hpeak
        obtain rfl | hold := Finset.mem_insert.mp hpeak
        · exact ⟨{ period with timeEnd := point.time }, by simp, hvalue⟩
        · obtain ⟨drawdown, hmem, heq⟩ := h.ended peak hold hne
          exact ⟨drawdown, List.mem_append_left _ hmem, heq⟩
  · rw [if_neg hlt] at hupdate
    have hle := not_lt.mp hlt
    have hsame : endedPeaks seed (points ++ [point]) = endedPeaks seed points :=
      endedPeaks_of_le hle
    refine ⟨recorded, ?_⟩
    simp only [TearSheetAssetGenerator.updateFromBalanceParts, hupdate,
      TearSheetAssetGenerator.recordDrawdown]
    refine ⟨rfl, h.mean, h.max, fun f hf => ?_, h.pos, ?_, ?_⟩
    · rw [h.sum f hf, sum_endedPeaks_of_le f hle]
    · intro drawdown hdrawdown
      obtain ⟨mark, hmark, heq⟩ := h.marked drawdown hdrawdown
      exact ⟨mark, mem_marks_append point hmark, heq⟩
    · intro peak hpeak hne
      rw [depth_of_ended point hpeak] at hne ⊢
      exact h.ended peak (hsame ▸ hpeak) hne

/-! ## Runs -/

/-- A balance the asset is updated with, or a tear sheet asked for. -/
inductive Event where
  | balance (balance : Mock.Balance) (timeExchange : DateTime)
  | report

def TearSheetAssetGenerator.step (generator : TearSheetAssetGenerator) :
    Event → TearSheetAssetGenerator
  | .balance balance timeExchange => generator.updateFromBalanceParts balance timeExchange
  | .report => generator.generate.1

def TearSheetAssetGenerator.run (generator : TearSheetAssetGenerator) (events : List Event) :
    TearSheetAssetGenerator :=
  events.foldl TearSheetAssetGenerator.step generator

/-- The basis values of a run's balances. -/
def valuesOf (basis : BalanceBasis) (events : List Event) : List (Timed Decimal) :=
  events.filterMap fun event =>
    match event with
    | .balance balance timeExchange => some ⟨basis.value balance, timeExchange⟩
    | .report => none

/-- The drawdown open at each report of a run that goes on from `points`. -/
def openAtReports (basis : BalanceBasis) (seed : Timed Decimal) (points : List (Timed Decimal)) :
    List Event → List Decimal
  | [] => []
  | .balance balance timeExchange :: events =>
    openAtReports basis seed (points ++ [⟨basis.value balance, timeExchange⟩]) events
  | .report :: events => openDrawdown seed points :: openAtReports basis seed points events

theorem basis_recordDrawdown (generator : TearSheetAssetGenerator) (drawdown : Option Drawdown) :
    (generator.recordDrawdown drawdown).basis = generator.basis := by
  cases drawdown <;> rfl

theorem Records.run (hseed : 0 < seed.value) (events : List Event)
    (h : Records generator seed points reported recorded) :
    ∃ recorded', Records (generator.run events) seed (points ++ valuesOf generator.basis events)
      (reported ++ openAtReports generator.basis seed points events) recorded' := by
  induction events generalizing generator points reported recorded with
  | nil => exact ⟨recorded, by simpa [TearSheetAssetGenerator.run, valuesOf, openAtReports] using h⟩
  | cons event events ih =>
    cases event with
    | balance balance timeExchange =>
      obtain ⟨recorded, hnext⟩ := h.update hseed balance timeExchange
      have hbasis : (generator.updateFromBalanceParts balance timeExchange).basis =
          generator.basis := basis_recordDrawdown _ _
      obtain ⟨recorded, hall⟩ := ih hnext
      rw [hbasis] at hall
      refine ⟨recorded, ?_⟩
      show Records ((generator.updateFromBalanceParts balance timeExchange).run events) _ _ _ _
      simpa [valuesOf, openAtReports] using hall
    | report =>
      have hbasis : generator.generate.1.basis = generator.basis := basis_recordDrawdown _ _
      obtain ⟨recorded, hall⟩ := ih h.generate
      rw [hbasis] at hall
      refine ⟨recorded, ?_⟩
      show Records (generator.generate.1.run events) _ _ _ _
      simpa [valuesOf, openAtReports] using hall

/-! ## The last report -/

/-- A tear sheet's drawdowns by their definition over the values alone. -/
structure Defined (sheet : TearSheetAsset) (seed : Timed Decimal) (points : List (Timed Decimal)) :
    Prop where
  max : IsGreatest {drawdown | ∃ mark ∈ marks seed points, mark.drawdown = drawdown}
    ((sheet.drawdownMax.map Drawdown.value).getD 0)
  mean : sheet.drawdownMean.map MeanDrawdown.meanDrawdown = periodMean (marks seed points)
  current : sheet.drawdown = openPeriod seed points

/-- What earlier reports added to the mean averages to it, or they added nothing. -/
def AveragesOut (reported : List Decimal) (marks : List Mark) : Prop :=
  reported.filter (· ≠ 0) = [] ∨
    some ((reported.filter (· ≠ 0)).sum / (reported.filter (· ≠ 0)).length) = periodMean marks

variable (seed points) in
theorem sum_peaks (f : Decimal → ℚ) :
    ∑ peak ∈ peaks (marks seed points), f (depth (marks seed points) peak) =
      ∑ peak ∈ endedPeaks seed points, f (depth (marks seed points) peak) +
        f (openDrawdown seed points) :=
  (Finset.sum_erase_add _ _ currentPeak_mem_peaks).symm

theorem sum_indicator (values : List Decimal) :
    (values.map fun value => if value ≠ 0 then (1 : ℚ) else 0).sum =
      (values.filter (· ≠ 0)).length := by
  induction values with
  | nil => rfl
  | cons value values ih =>
    by_cases h : value = 0
    · simp [h] at ih ⊢
      exact ih
    · simp [h, add_comm] at ih ⊢
      exact ih

theorem sum_filter_ne_zero (values : List Decimal) :
    (values.filter (· ≠ 0)).sum = values.sum := by
  induction values with
  | nil => rfl
  | cons value values ih =>
    by_cases h : value = 0
    · simp [h] at ih ⊢
      exact ih
    · simp [h] at ih ⊢
      exact ih

/-- Adding `k` values to `n` leaves their mean if and only if there are none, or they have it. -/
theorem mean_add_eq_iff (n k : ℕ) (sum added : ℚ) (hadded : k = 0 → added = 0) :
    ((if n + k = 0 then none else some ((sum + added) / (n + k : ℕ))) =
        if n = 0 then none else some (sum / n)) ↔
      k = 0 ∨ some (added / k) = if n = 0 then none else some (sum / n) := by
  by_cases hk : k = 0
  · simp [hk, hadded hk]
  · by_cases hn : n = 0
    · simp [hk, hn]
    · have hkq : (k : ℚ) ≠ 0 := Nat.cast_ne_zero.mpr hk
      have hnq : (n : ℚ) ≠ 0 := Nat.cast_ne_zero.mpr hn
      have hsumq : (n : ℚ) + k ≠ 0 := by positivity
      simp only [hn, hk, Nat.add_eq_zero_iff, false_and, if_false, false_or, Option.some.injEq,
        Nat.cast_add]
      rw [div_eq_div_iff hsumq hnq, div_eq_div_iff hkq hnq]
      constructor
      · intro h
        linarith
      · intro h
        linarith

theorem card_periods (marks : List Mark) :
    ((periods marks).card : ℚ) =
      ∑ peak ∈ peaks marks, if depth marks peak ≠ 0 then (1 : ℚ) else 0 := by
  rw [periods, Finset.natCast_card_filter]

theorem sum_periods (marks : List Mark) :
    ∑ peak ∈ periods marks, depth marks peak = ∑ peak ∈ peaks marks, depth marks peak := by
  unfold periods
  exact Finset.sum_filter_ne_zero _

/-- Every period with a drawdown is recorded by the time of a report. -/
theorem Records.recorded_of_depth (h : Records generator seed points reported recorded)
    {peak : Decimal} (hpeak : peak ∈ peaks (marks seed points))
    (hdepth : depth (marks seed points) peak ≠ 0) :
    ∃ drawdown ∈ recorded ++ (openPeriod seed points).toList,
      drawdown.value = depth (marks seed points) peak := by
  by_cases hcurrent : peak = (currentPeak seed points).value
  · subst hcurrent
    obtain ⟨hzero, -⟩ | ⟨period, hsome, hvalue, -⟩ :=
      openPeriod_cases seed points
    · exact absurd hzero hdepth
    · exact ⟨period, by simp [hsome], hvalue⟩
  · obtain ⟨drawdown, hmem, heq⟩ := h.ended peak (Finset.mem_erase.mpr ⟨hcurrent, hpeak⟩) hdepth
    exact ⟨drawdown, List.mem_append_left _ hmem, heq⟩

theorem Records.isGreatest (h : Records generator seed points reported recorded) :
    IsGreatest {drawdown | ∃ mark ∈ marks seed points, mark.drawdown = drawdown}
      ((generator.generate.2.drawdownMax.map Drawdown.value).getD 0) := by
  have hreport := h.generate
  have hmax : generator.generate.2.drawdownMax = generator.generate.1.drawdownMax.max := rfl
  rw [hmax, hreport.max]
  -- A value under its running peak is no more of a drawdown than its period.
  have hbound : ∀ bound : Decimal, 0 ≤ bound →
      (∀ drawdown ∈ recorded ++ (openPeriod seed points).toList, drawdown.value ≤ bound) →
      ∀ mark ∈ marks seed points, mark.drawdown ≤ bound := by
    intro bound hbound hall mark hmark
    apply (drawdown_le_depth hmark).trans
    by_cases hzero : depth (marks seed points) mark.peak.value = 0
    · rw [hzero]
      exact hbound
    · obtain ⟨drawdown, hmem, heq⟩ :=
        h.recorded_of_depth (mem_peaks.mpr ⟨mark, hmark, rfl⟩) hzero
      rw [← heq]
      exact hall drawdown hmem
  obtain ⟨hnil, hnone⟩ | ⟨largest, hmem, hsome, hall⟩ := max_foldl hreport.pos
  · rw [hnone]
    refine ⟨⟨⟨seed, seed⟩, by simp [marks], by simp [Mark.drawdown]⟩, ?_⟩
    rintro drawdown ⟨mark, hmark, rfl⟩
    exact hbound 0 (le_refl 0) (by simp [hnil]) mark hmark
  · rw [hsome]
    refine ⟨hreport.marked largest hmem, ?_⟩
    rintro drawdown ⟨mark, hmark, rfl⟩
    exact hbound largest.value (hreport.pos largest hmem).le hall mark hmark

theorem Records.mean_eq (h : Records generator seed points reported recorded) :
    generator.generate.2.drawdownMean.map MeanDrawdown.meanDrawdown =
      if (periods (marks seed points)).card + (reported.filter (· ≠ 0)).length = 0 then none
      else some ((∑ peak ∈ periods (marks seed points), depth (marks seed points) peak +
          (reported.filter (· ≠ 0)).sum) /
        ((periods (marks seed points)).card + (reported.filter (· ≠ 0)).length : ℕ)) := by
  have hreport := h.generate
  have hmean : generator.generate.2.drawdownMean =
      generator.generate.1.drawdownMean.meanDrawdown := rfl
  have hlength : (recorded ++ (openPeriod seed points).toList).length =
      (periods (marks seed points)).card + (reported.filter (· ≠ 0)).length := by
    have hones : ((recorded ++ (openPeriod seed points).toList).map fun drawdown =>
        if drawdown.value ≠ 0 then (1 : ℚ) else 0) =
        (recorded ++ (openPeriod seed points).toList).map fun _ => 1 :=
      List.map_congr_left fun drawdown hmem => if_pos (ne_of_gt (hreport.pos drawdown hmem))
    have hsum := hreport.sum (fun value => if value ≠ 0 then 1 else 0) (if_neg (by simp))
    have hpeaks := sum_peaks seed points fun value =>
      if value ≠ 0 then (1 : ℚ) else 0
    rw [hones, List.map_const', List.sum_replicate, nsmul_eq_mul, mul_one, List.map_append,
      List.sum_append, sum_indicator] at hsum
    rw [← card_periods] at hpeaks
    have hcast : ((recorded ++ (openPeriod seed points).toList).length : ℚ) =
        (periods (marks seed points)).card + (reported.filter (· ≠ 0)).length := by
      rw [hsum, hpeaks]
      simp only [List.map_cons, List.map_nil, List.sum_cons, List.sum_nil]
      ring
    exact_mod_cast hcast
  have hsum : ((recorded ++ (openPeriod seed points).toList).map Drawdown.value).sum =
      ∑ peak ∈ periods (marks seed points), depth (marks seed points) peak +
        (reported.filter (· ≠ 0)).sum := by
    have hsum := hreport.sum (fun value => value) rfl
    have hpeaks := sum_peaks seed points fun value => value
    rw [sum_filter_ne_zero, sum_periods, hpeaks]
    rw [List.map_id' (reported ++ _), List.sum_append, List.sum_singleton] at hsum
    rw [show (recorded ++ (openPeriod seed points).toList).map Drawdown.value =
      (recorded ++ (openPeriod seed points).toList).map fun drawdown => drawdown.value from rfl,
      hsum]
    ring
  rw [hmean, hreport.mean, (mean_foldl _).2, hlength, hsum]

theorem Records.defined_iff (h : Records generator seed points reported recorded) :
    Defined generator.generate.2 seed points ↔ AveragesOut reported (marks seed points) := by
  have hcurrent : generator.generate.2.drawdown = openPeriod seed points := by
    show generator.drawdown.generate = _
    rw [h.drawdown, generate_openGenerator]
  have hmean := mean_add_eq_iff (periods (marks seed points)).card
    (reported.filter (· ≠ 0)).length
    (∑ peak ∈ periods (marks seed points), depth (marks seed points) peak)
    (reported.filter (· ≠ 0)).sum
    (by
      intro hzero
      rw [List.length_eq_zero_iff.mp hzero]
      rfl)
  rw [List.length_eq_zero_iff] at hmean
  have hiff : Defined generator.generate.2 seed points ↔
      generator.generate.2.drawdownMean.map MeanDrawdown.meanDrawdown =
        periodMean (marks seed points) :=
    ⟨Defined.mean, fun hmean => ⟨h.isGreatest, hmean, hcurrent⟩⟩
  rw [hiff, h.mean_eq]
  exact hmean

/-! ## Reports that find nothing open -/

/-- A report that finds no drawdown open changes nothing. -/
theorem Records.generate_of_quiet (h : Records generator seed points reported recorded)
    (hquiet : openDrawdown seed points = 0) : generator.generate.1 = generator := by
  have hcurrent : generator.drawdown.generate = none := by
    rw [h.drawdown, generate_openGenerator, openPeriod, if_neg (by simp [hquiet])]
  simp [TearSheetAssetGenerator.generate, hcurrent, TearSheetAssetGenerator.recordDrawdown]

def Event.isBalance : Event → Bool
  | .balance _ _ => true
  | .report => false

theorem Records.run_of_quiet (hseed : 0 < seed.value) (events : List Event)
    (h : Records generator seed points reported recorded)
    (hquiet : ∀ drawdown ∈ openAtReports generator.basis seed points events, drawdown = 0) :
    generator.run events = generator.run (events.filter Event.isBalance) := by
  induction events generalizing generator points reported recorded with
  | nil => rfl
  | cons event events ih =>
    cases event with
    | balance balance timeExchange =>
      obtain ⟨recorded, hnext⟩ := h.update hseed balance timeExchange
      have hbasis : (generator.updateFromBalanceParts balance timeExchange).basis =
          generator.basis := basis_recordDrawdown _ _
      show (generator.updateFromBalanceParts balance timeExchange).run events =
        (generator.updateFromBalanceParts balance timeExchange).run
          (events.filter Event.isBalance)
      apply ih hnext
      rw [hbasis]
      exact hquiet
    | report =>
      have hsame := h.generate_of_quiet (hquiet _ List.mem_cons_self)
      show generator.generate.1.run events = generator.run (events.filter Event.isBalance)
      rw [hsame]
      exact ih h fun drawdown hmem => hquiet drawdown (List.mem_cons_of_mem _ hmem)

/-- The last report gives the drawdowns of the balances if and only if the earlier ones averaged
    out, and the whole sheet they alone give if each earlier report found no drawdown open. -/
theorem generate_run_defined_iff (initial : Timed Mock.Balance) (basis : BalanceBasis)
    (hseed : 0 < basis.value initial.value) (events : List Event) :
    (Defined ((TearSheetAssetGenerator.initWithBasis initial basis).run events).generate.2
        ⟨basis.value initial.value, initial.time⟩ (valuesOf basis events) ↔
      AveragesOut (openAtReports basis ⟨basis.value initial.value, initial.time⟩ [] events)
        (marks ⟨basis.value initial.value, initial.time⟩ (valuesOf basis events))) ∧
    ((∀ drawdown ∈ openAtReports basis ⟨basis.value initial.value, initial.time⟩ [] events,
        drawdown = 0) →
      ((TearSheetAssetGenerator.initWithBasis initial basis).run events).generate.2 =
        ((TearSheetAssetGenerator.initWithBasis initial basis).run
          (events.filter Event.isBalance)).generate.2) := by
  have hinit := Records.init initial basis
  constructor
  · obtain ⟨recorded, hall⟩ := hinit.run hseed events
    exact hall.defined_iff
  · intro hquiet
    rw [hinit.run_of_quiet hseed events hquiet]

/-- A decline of a tenth, reported while it is open, a recovery, and a decline of a half. -/
def reportedDecline : List Event :=
  [.balance (.new 90 90) 1, .report, .balance (.new 120 120) 2, .balance (.new 60 60) 3]

theorem generate_run_defined_iff_decline :
    (Defined ((TearSheetAssetGenerator.initWithBasis ⟨.new 100 100, 0⟩ .gross).run
        reportedDecline).generate.2 ⟨100, 0⟩ (valuesOf .gross reportedDecline) ↔
      AveragesOut [1 / 10] (marks ⟨100, 0⟩ (valuesOf .gross reportedDecline))) := by
  have h := (generate_run_defined_iff ⟨.new 100 100, 0⟩ .gross (by decide +kernel)
    reportedDecline).1
  have hopen : openAtReports .gross ⟨100, 0⟩ [] reportedDecline = [1 / 10] := by decide +kernel
  rw [← hopen]
  exact h

/-- The first decline counts twice in the mean. -/
theorem reportedDecline_not_defined :
    (∀ point ∈ valuesOf .gross reportedDecline, 0 < point.value) ∧
    (valuesOf .gross reportedDecline).Pairwise (·.time ≤ ·.time) ∧
    ¬ Defined ((TearSheetAssetGenerator.initWithBasis ⟨.new 100 100, 0⟩ .gross).run
        reportedDecline).generate.2 ⟨100, 0⟩ (valuesOf .gross reportedDecline) := by
  refine ⟨by decide +kernel, by decide +kernel, fun hdefined => ?_⟩
  have hmean : periodMean (marks ⟨100, 0⟩ (valuesOf .gross reportedDecline)) = some (3 / 10) := by
    decide +kernel
  have hsheet : (((TearSheetAssetGenerator.initWithBasis ⟨.new 100 100, 0⟩ .gross).run
      reportedDecline).generate.2.drawdownMean.map MeanDrawdown.meanDrawdown) =
        some (7 / 30) := by
    decide +kernel
  have h := hdefined.mean
  rw [hmean, hsheet] at h
  exact absurd h (by decide +kernel)

end Rustrade.Statistic
