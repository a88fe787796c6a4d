import Mathlib.Algebra.BigOperators.Group.Finset.Basic
import Mathlib.Algebra.Order.BigOperators.Group.Finset
import Mathlib.Algebra.Order.Field.Basic
import Mathlib.Data.Finset.Card
import Mathlib.Order.Bounds.Basic
import Rustrade.Mock.Basic

/-!
# Drawdowns

`DrawdownGenerator` follows a value from peak to peak and gives each decline when the next peak
ends it; the mean and the largest of the declines are kept beside it. Decimals are exact.
-/

set_option autoImplicit false

namespace Rustrade.Statistic

structure Timed (T : Type) where
  value : T
  time : DateTime
  deriving DecidableEq

structure Drawdown where
  value : Decimal
  timeStart : DateTime
  timeEnd : DateTime
  deriving DecidableEq

/-- `duration().num_milliseconds()`. -/
def Drawdown.durationMs (drawdown : Drawdown) : ℤ :=
  (drawdown.timeEnd - drawdown.timeStart).tdiv 1000000

structure DrawdownGenerator where
  peak : Option Decimal
  drawdownMax : Decimal
  timePeak : Option DateTime
  timeNow : DateTime
  deriving DecidableEq

namespace DrawdownGenerator

def init (point : Timed Decimal) : DrawdownGenerator :=
  { peak := some point.value
    drawdownMax := 0
    timePeak := some point.time
    timeNow := point.time }

def generate (generator : DrawdownGenerator) : Option Drawdown :=
  generator.timePeak.bind fun timePeak =>
    if generator.drawdownMax ≠ 0 then
      some ⟨generator.drawdownMax, timePeak, generator.timeNow⟩
    else none

def update (generator : DrawdownGenerator) (point : Timed Decimal) :
    DrawdownGenerator × Option Drawdown :=
  let generator := { generator with timeNow := point.time }
  match generator.peak with
  | none =>
    ({ generator with peak := some point.value, timePeak := some point.time }, none)
  | some peak =>
    if peak < point.value then
      ({ generator with
          peak := some point.value, timePeak := some point.time, drawdownMax := 0 },
        generator.generate)
    else
      -- `checked_div` fails at a peak of zero.
      let current := if peak = 0 then none else some ((peak - point.value) / peak)
      match current with
      | some current =>
        if generator.drawdownMax < current then ({ generator with drawdownMax := current }, none)
        else (generator, none)
      | none => (generator, none)

end DrawdownGenerator

/-- `welford_online::calculate_mean`, of a type's own division. -/
def calculateMean {T : Type} [Add T] [Sub T] (div : T → T → T) (prevMean nextValue count : T) : T :=
  prevMean + div (nextValue - prevMean) count

structure MeanDrawdown where
  meanDrawdown : Decimal
  meanDrawdownMs : ℤ
  deriving DecidableEq

structure MeanDrawdownGenerator where
  count : ℕ
  meanDrawdown : Option MeanDrawdown
  deriving DecidableEq

def MeanDrawdownGenerator.update (generator : MeanDrawdownGenerator) (next : Drawdown) :
    MeanDrawdownGenerator :=
  let count := generator.count + 1
  { count
    meanDrawdown := some <|
      match generator.meanDrawdown with
      | some mean =>
        { meanDrawdown := calculateMean (· / ·) mean.meanDrawdown next.value count
          meanDrawdownMs := calculateMean Int.tdiv mean.meanDrawdownMs next.durationMs count }
      | none => { meanDrawdown := next.value, meanDrawdownMs := next.durationMs } }

structure MaxDrawdownGenerator where
  max : Option Drawdown
  deriving DecidableEq

def MaxDrawdownGenerator.update (generator : MaxDrawdownGenerator) (next : Drawdown) :
    MaxDrawdownGenerator :=
  match generator.max with
  | some current => if |current.value| < |next.value| then ⟨some next⟩ else generator
  | none => ⟨some next⟩

/-! ## The asset's tear sheet -/

inductive BalanceBasis where
  | gross
  | netAsset
  deriving DecidableEq

def BalanceBasis.value (basis : BalanceBasis) (balance : Mock.Balance) : Decimal :=
  match basis with
  | .gross => balance.total
  | .netAsset => balance.netAsset

structure TearSheetAsset where
  balanceEnd : Option Mock.Balance
  drawdown : Option Drawdown
  drawdownMean : Option MeanDrawdown
  drawdownMax : Option Drawdown
  deriving DecidableEq

structure TearSheetAssetGenerator where
  basis : BalanceBasis
  balanceNow : Option Mock.Balance
  drawdown : DrawdownGenerator
  drawdownMean : MeanDrawdownGenerator
  drawdownMax : MaxDrawdownGenerator
  deriving DecidableEq

namespace TearSheetAssetGenerator

def initWithBasis (initial : Timed Mock.Balance) (basis : BalanceBasis) :
    TearSheetAssetGenerator :=
  { basis
    balanceNow := some initial.value
    drawdown := .init ⟨basis.value initial.value, initial.time⟩
    drawdownMean := ⟨0, none⟩
    drawdownMax := ⟨none⟩ }

/-- What `update` and `generate` do with a drawdown they are given. -/
def recordDrawdown (generator : TearSheetAssetGenerator) :
    Option Drawdown → TearSheetAssetGenerator
  | some drawdown =>
    { generator with
      drawdownMean := generator.drawdownMean.update drawdown
      drawdownMax := generator.drawdownMax.update drawdown }
  | none => generator

def updateFromBalanceParts (generator : TearSheetAssetGenerator) (balance : Mock.Balance)
    (timeExchange : DateTime) : TearSheetAssetGenerator :=
  let (drawdown, next) := generator.drawdown.update ⟨generator.basis.value balance, timeExchange⟩
  { generator with balanceNow := some balance, drawdown }.recordDrawdown next

def generate (generator : TearSheetAssetGenerator) : TearSheetAssetGenerator × TearSheetAsset :=
  let current := generator.drawdown.generate
  let generator := generator.recordDrawdown current
  (generator,
    { balanceEnd := generator.balanceNow
      drawdown := current
      drawdownMean := generator.drawdownMean.meanDrawdown
      drawdownMax := generator.drawdownMax.max })

end TearSheetAssetGenerator

/-! ## Drawdowns by definition -/

/-- The higher of a peak and a value after it, the peak where they are equal. -/
def runningPeak (peak point : Timed Decimal) : Timed Decimal :=
  if peak.value < point.value then point else peak

/-- A value and the highest one up to it. -/
structure Mark where
  peak : Timed Decimal
  point : Timed Decimal

def Mark.drawdown (mark : Mark) : Decimal := (mark.peak.value - mark.point.value) / mark.peak.value

/-- The peak the values have reached. -/
def currentPeak (seed : Timed Decimal) (points : List (Timed Decimal)) : Timed Decimal :=
  points.foldl runningPeak seed

def marksFrom (peak : Timed Decimal) : List (Timed Decimal) → List Mark
  | [] => []
  | point :: points =>
    ⟨runningPeak peak point, point⟩ :: marksFrom (runningPeak peak point) points

/-- Every value, the seed's first, with its running peak. -/
def marks (seed : Timed Decimal) (points : List (Timed Decimal)) : List Mark :=
  ⟨seed, seed⟩ :: marksFrom seed points

/-- The largest drawdown from one peak: that of the period from the peak to its recovery. -/
def depth (marks : List Mark) (peak : Decimal) : Decimal :=
  ((marks.filter fun mark => mark.peak.value = peak).map Mark.drawdown).foldl max 0

/-- The peaks reached, one for each period. -/
def peaks (marks : List Mark) : Finset Decimal :=
  (marks.map fun mark => mark.peak.value).toFinset

/-- The periods with a drawdown. -/
def periods (marks : List Mark) : Finset Decimal :=
  (peaks marks).filter fun peak => depth marks peak ≠ 0

/-- The mean of the largest drawdowns of the periods that have one. -/
def periodMean (marks : List Mark) : Option Decimal :=
  if (periods marks).card = 0 then none
  else some ((∑ peak ∈ periods marks, depth marks peak) / (periods marks).card)

/-- The drawdown of the period the values are in. -/
def openDrawdown (seed : Timed Decimal) (points : List (Timed Decimal)) : Decimal :=
  depth (marks seed points) (currentPeak seed points).value

section Marks

variable {seed : Timed Decimal} {points : List (Timed Decimal)}

theorem marksFrom_append (peak : Timed Decimal) (points : List (Timed Decimal))
    (point : Timed Decimal) :
    marksFrom peak (points ++ [point]) = marksFrom peak points ++
      [⟨runningPeak (currentPeak peak points) point, point⟩] := by
  induction points generalizing peak with
  | nil => rfl
  | cons first points ih =>
    show ⟨runningPeak peak first, first⟩ :: marksFrom (runningPeak peak first) (points ++ [point])
      = _
    rw [ih]
    rfl

theorem marks_append (point : Timed Decimal) :
    marks seed (points ++ [point]) = marks seed points ++
      [⟨runningPeak (currentPeak seed points) point, point⟩] := by
  unfold marks
  rw [marksFrom_append]
  rfl

theorem currentPeak_append (point : Timed Decimal) :
    currentPeak seed (points ++ [point]) = runningPeak (currentPeak seed points) point := by
  simp [currentPeak]

theorem le_runningPeak (peak point : Timed Decimal) :
    peak.value ≤ (runningPeak peak point).value := by
  unfold runningPeak
  split
  · exact le_of_lt ‹_›
  · exact le_refl _

variable (seed points) in
/-- No mark has a peak above the current one, which is itself a peak reached. -/
theorem peak_le_currentPeak :
    (∀ mark ∈ marks seed points, mark.peak.value ≤ (currentPeak seed points).value) ∧
      ∃ mark ∈ marks seed points, mark.peak = currentPeak seed points := by
  induction points using List.reverseRecOn with
  | nil => simp [marks, marksFrom, currentPeak]
  | append_singleton points point ih =>
    rw [marks_append, currentPeak_append]
    constructor
    · intro mark hmark
      obtain hold | hnew := List.mem_append.mp hmark
      · exact (ih.1 mark hold).trans (le_runningPeak _ _)
      · rw [List.mem_singleton.mp hnew]
    · exact ⟨_, List.mem_append_right _ (List.mem_singleton.mpr rfl), rfl⟩

theorem mem_peaks {marks : List Mark} {peak : Decimal} :
    peak ∈ peaks marks ↔ ∃ mark ∈ marks, mark.peak.value = peak := by
  simp [peaks]

theorem depth_append (marks : List Mark) (mark : Mark) (peak : Decimal) :
    depth (marks ++ [mark]) peak =
      if mark.peak.value = peak then max (depth marks peak) mark.drawdown
      else depth marks peak := by
  unfold depth
  rw [List.filter_append, List.map_append, List.foldl_append]
  by_cases h : mark.peak.value = peak
  · simp [h]
  · simp [h]

theorem peaks_append (marks : List Mark) (mark : Mark) :
    peaks (marks ++ [mark]) = insert mark.peak.value (peaks marks) := by
  ext peak
  simp [peaks]

theorem depth_nonneg (marks : List Mark) (peak : Decimal) : 0 ≤ depth marks peak := by
  induction marks using List.reverseRecOn with
  | nil => simp [depth]
  | append_singleton marks mark ih =>
    rw [depth_append]
    split
    · exact le_max_of_le_left ih
    · exact ih

theorem drawdown_le_depth {marks : List Mark} {mark : Mark} (hmark : mark ∈ marks) :
    mark.drawdown ≤ depth marks mark.peak.value := by
  induction marks using List.reverseRecOn with
  | nil => simp at hmark
  | append_singleton marks last ih =>
    rw [depth_append]
    obtain hold | hnew := List.mem_append.mp hmark
    · split
      · exact le_max_of_le_left (ih hold)
      · exact ih hold
    · rw [List.mem_singleton.mp hnew, if_pos rfl]
      exact le_max_right _ _

/-- A peak's depth is the drawdown of one of its values, or there is none. -/
theorem depth_eq_zero_or {marks : List Mark} {peak : Decimal} :
    depth marks peak = 0 ∨ ∃ mark ∈ marks, mark.drawdown = depth marks peak := by
  induction marks using List.reverseRecOn with
  | nil => simp [depth]
  | append_singleton marks last ih =>
    rw [depth_append]
    have hkeep : depth marks peak = 0 ∨
        ∃ mark ∈ marks ++ [last], mark.drawdown = depth marks peak := by
      obtain hzero | ⟨mark, hmark, heq⟩ := ih
      · exact Or.inl hzero
      · exact Or.inr ⟨mark, List.mem_append_left _ hmark, heq⟩
    split
    · obtain hle | hle := le_total last.drawdown (depth marks peak)
      · rw [max_eq_left hle]
        exact hkeep
      · rw [max_eq_right hle]
        exact Or.inr ⟨last, by simp, rfl⟩
    · exact hkeep

end Marks

end Rustrade.Statistic
