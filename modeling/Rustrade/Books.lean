import Mathlib.Algebra.Order.Field.Rat
import Mathlib.Data.List.Sort
import Mathlib.Order.Compare
import Rustrade.Decimal
import Rustrade.Lib.BinarySearch
import Rustrade.Lib.VersionedMap

/-!
# Local order books

`OrderBook` keeps its two sides as lists of levels, best price first. A side is changed one level
at a time: `upsertSingle` looks the price up by binary search and replaces, inserts or removes.
`OrderBookSide.Holds` says which map from price to amount a side is; what an upsert does to a side
that holds a map is to hold the map with that one price changed, and a side that holds a map is
strictly sorted and has no zero amount.
-/

set_option autoImplicit false

namespace Rustrade

structure Level where
  price : Decimal
  amount : Decimal
deriving DecidableEq, Repr

/-- The unit types `Bids` and `Asks` that tag a side. -/
inductive BookSide where
  | bids
  | asks
deriving DecidableEq, Repr

/-- How a side orders its levels by price: bids from the highest, asks from the lowest. -/
def BookSide.cmp : BookSide → Decimal → Decimal → Ordering
  | .bids, a, b => (compare a b).swap
  | .asks, a, b => compare a b

structure OrderBookSide (side : BookSide) where
  levels : List Level
deriving DecidableEq, Repr

namespace OrderBookSide

variable {side : BookSide}

/-- Levels sorted for their side. -/
def sorted (side : BookSide) (levels : List Level) : OrderBookSide side :=
  ⟨levels.mergeSort fun a b => (side.cmp a.price b.price).isLE⟩

def bids (levels : List Level) : OrderBookSide .bids := sorted .bids levels

def asks (levels : List Level) : OrderBookSide .asks := sorted .asks levels

def upsertSingle (book : OrderBookSide side) (newLevel : Level) (fnOrd : Level → Ordering) :
    OrderBookSide side :=
  match book.levels.binarySearchBy fnOrd with
  | .ok index =>
    if newLevel.amount = 0 then ⟨book.levels.eraseIdx index⟩
    else ⟨book.levels.modify index fun level => { level with amount := newLevel.amount }⟩
  | .error index =>
    -- A level to remove that is not there is logged and passed over.
    if newLevel.amount = 0 then book
    else ⟨book.levels.insertIdx index newLevel⟩

def upsert (book : OrderBookSide side) (levels : List Level) : OrderBookSide side :=
  levels.foldl (fun book upsert =>
    book.upsertSingle upsert fun existing => side.cmp existing.price upsert.price) book

end OrderBookSide

/-- The venue's times of a revision and the local one. -/
structure OrderBookTimes where
  timeEngine : Option DateTime
  timeExchange : Option DateTime
  timeReceived : DateTime
deriving DecidableEq, Repr

structure OrderBook where
  sequence : UInt64
  times : OrderBookTimes
  bids : OrderBookSide .bids
  asks : OrderBookSide .asks
deriving DecidableEq, Repr

inductive OrderBookEvent where
  | snapshot (book : OrderBook)
  | update (book : OrderBook)
deriving DecidableEq, Repr

namespace OrderBook

def new (sequence : UInt64) (times : OrderBookTimes) (bids asks : List Level) : OrderBook where
  sequence := sequence
  times := times
  bids := .bids bids
  asks := .asks asks

def upsertBids (book : OrderBook) (update : OrderBookSide .bids) : OrderBook :=
  { book with bids := book.bids.upsert update.levels }

def upsertAsks (book : OrderBook) (update : OrderBookSide .asks) : OrderBook :=
  { book with asks := book.asks.upsert update.levels }

def update (book : OrderBook) : OrderBookEvent → OrderBook
  | .snapshot snapshot => snapshot
  | .update update =>
    (({ book with sequence := update.sequence, times := update.times }).upsertBids
      update.bids).upsertAsks update.asks

end OrderBook

/-! ## The order of a side -/

namespace BookSide

variable {side : BookSide} {a b c : Decimal}

@[simp] theorem cmp_eq_iff : side.cmp a b = .eq ↔ a = b := by
  cases side
  · show (compare a b).swap = .eq ↔ a = b
    rw [Ordering.swap_eq_eq, compare_eq_iff_eq]
  · exact compare_eq_iff_eq

theorem cmp_gt_iff : side.cmp a b = .gt ↔ side.cmp b a = .lt := by
  cases side
  · show (compare a b).swap = .gt ↔ (compare b a).swap = .lt
    rw [Ordering.swap_eq_gt, Ordering.swap_eq_lt, compare_lt_iff_lt, compare_gt_iff_gt]
  · show compare a b = .gt ↔ compare b a = .lt
    rw [compare_lt_iff_lt, compare_gt_iff_gt]

theorem cmp_lt_trans (hab : side.cmp a b = .lt) (hbc : side.cmp b c = .lt) :
    side.cmp a c = .lt := by
  cases side
  · have hab : (compare a b).swap = .lt := hab
    have hbc : (compare b c).swap = .lt := hbc
    show (compare a c).swap = .lt
    rw [Ordering.swap_eq_lt, compare_gt_iff_gt] at *
    exact lt_trans hbc hab
  · have hab : compare a b = .lt := hab
    have hbc : compare b c = .lt := hbc
    show compare a c = .lt
    rw [compare_lt_iff_lt] at *
    exact lt_trans hab hbc

theorem cmp_self_ne_lt : side.cmp a a ≠ .lt := by
  have heq : side.cmp a a = .eq := cmp_eq_iff.2 rfl
  rw [heq]
  exact Ordering.noConfusion

theorem isLE_trans (hab : (side.cmp a b).isLE) (hbc : (side.cmp b c).isLE) :
    (side.cmp a c).isLE := by
  rw [Ordering.isLE_iff_eq_lt_or_eq_eq, cmp_eq_iff] at *
  rcases hab with hab | rfl
  · rcases hbc with hbc | rfl
    · exact .inl (cmp_lt_trans hab hbc)
    · exact .inl hab
  · exact hbc

theorem isLE_total : (side.cmp a b).isLE || (side.cmp b a).isLE := by
  rw [Bool.or_eq_true, Ordering.isLE_iff_eq_lt_or_eq_eq, Ordering.isLE_iff_eq_lt_or_eq_eq]
  cases h : side.cmp a b with
  | lt => exact .inl (.inl rfl)
  | eq => exact .inl (.inr rfl)
  | gt => exact .inr (.inl (cmp_gt_iff.1 h))

end BookSide

/-! ## The map a side holds -/

namespace OrderBookSide

variable {side : BookSide} {book other : OrderBookSide side} {map : Decimal → Decimal}

/-- The levels are exactly the prices the map gives an amount, best first. -/
structure Holds (book : OrderBookSide side) (map : Decimal → Decimal) : Prop where
  sorted : book.levels.Pairwise fun a b => side.cmp a.price b.price = .lt
  mem : ∀ level, level ∈ book.levels ↔ level.amount = map level.price ∧ level.amount ≠ 0

theorem Holds.amount_ne_zero (h : book.Holds map) : ∀ level ∈ book.levels, level.amount ≠ 0 := by
  intro level hlevel
  exact ((h.mem level).1 hlevel).2

theorem Holds.crosses (h : book.Holds map) (price : Decimal) :
    book.levels.Crosses fun existing => side.cmp existing.price price := by
  refine h.sorted.imp ?_
  intro a b hab
  show side.cmp a.price price = .lt ∨ side.cmp b.price price = .gt
  cases ha : side.cmp a.price price with
  | lt => exact .inl rfl
  | eq =>
    rw [BookSide.cmp_eq_iff] at ha
    rw [ha] at hab
    exact .inr (BookSide.cmp_gt_iff.2 hab)
  | gt => exact .inr (BookSide.cmp_gt_iff.2 (BookSide.cmp_lt_trans (BookSide.cmp_gt_iff.1 ha) hab))

theorem ne_of_cmp_lt {a b : Decimal} (h : side.cmp a b = .lt) : a ≠ b := by
  rintro rfl
  exact BookSide.cmp_self_ne_lt h

theorem ne_of_cmp_gt {a b : Decimal} (h : side.cmp a b = .gt) : a ≠ b :=
  (ne_of_cmp_lt (BookSide.cmp_gt_iff.1 h)).symm

/-- Levels around a price, none of them at it: what is held once `between` stands at the price. -/
theorem Holds.of_around {pre post between : List Level} {newLevel : Level}
    (h : book.Holds map)
    (hpre : ∀ level ∈ pre, side.cmp level.price newLevel.price = .lt)
    (hpost : ∀ level ∈ post, side.cmp level.price newLevel.price = .gt)
    (hsub : (pre ++ post).Sublist book.levels)
    (hall : ∀ level ∈ book.levels, level.price ≠ newLevel.price → level ∈ pre ++ post)
    (hbetween : between = if newLevel.amount = 0 then [] else [newLevel]) :
    (⟨pre ++ between ++ post⟩ : OrderBookSide side).Holds
      (Function.update map newLevel.price newLevel.amount) := by
  have hne : ∀ level ∈ pre ++ post, level.price ≠ newLevel.price := by
    intro level hlevel
    rcases List.mem_append.mp hlevel with hlevel | hlevel
    · exact ne_of_cmp_lt (hpre level hlevel)
    · exact ne_of_cmp_gt (hpost level hlevel)
  have hmem : ∀ level, level ∈ between ↔ level = newLevel ∧ newLevel.amount ≠ 0 := by
    intro level
    rw [hbetween]
    split
    · rename_i hzero
      simp [hzero]
    · rename_i hzero
      simp [hzero]
  constructor
  · have hsorted := List.pairwise_append.mp (h.sorted.sublist hsub)
    show (pre ++ between ++ post).Pairwise fun a b => side.cmp a.price b.price = .lt
    rw [List.append_assoc, List.pairwise_append, List.pairwise_append]
    refine ⟨hsorted.1, ⟨?_, hsorted.2.1, ?_⟩, ?_⟩
    · rw [hbetween]
      split
      · exact List.Pairwise.nil
      · exact List.pairwise_singleton _ _
    · intro level hlevel later hlater
      obtain ⟨rfl, -⟩ := (hmem level).1 hlevel
      exact BookSide.cmp_gt_iff.1 (hpost later hlater)
    · intro level hlevel later hlater
      rcases List.mem_append.mp hlater with hlater | hlater
      · obtain ⟨rfl, -⟩ := (hmem later).1 hlater
        exact hpre level hlevel
      · exact hsorted.2.2 level hlevel later hlater
  · intro level
    have hlevels : level ∈ pre ++ between ++ post ↔ level ∈ pre ++ post ∨ level ∈ between := by
      simp only [List.mem_append]
      tauto
    show level ∈ pre ++ between ++ post ↔ _
    rw [hlevels, hmem]
    by_cases hprice : level.price = newLevel.price
    · rw [hprice, Function.update_self]
      constructor
      · rintro (hlevel | ⟨rfl, hzero⟩)
        · exact absurd hprice (hne level hlevel)
        · exact ⟨rfl, hzero⟩
      · rintro ⟨hamount, hzero⟩
        refine .inr ⟨?_, hamount ▸ hzero⟩
        cases level
        cases newLevel
        simp_all
    · rw [Function.update_of_ne hprice, ← h.mem level]
      constructor
      · rintro (hlevel | ⟨rfl, -⟩)
        · exact hsub.subset hlevel
        · exact absurd rfl hprice
      · intro hlevel
        exact .inl (hall level hlevel hprice)

/-- An upserted level is what the side holds at its price, and the rest stays. -/
theorem Holds.upsertSingle (h : book.Holds map) (newLevel : Level) :
    (book.upsertSingle newLevel fun existing => side.cmp existing.price newLevel.price).Holds
      (Function.update map newLevel.price newLevel.amount) := by
  have hsplit := List.binarySearchBy_split (h.crosses newLevel.price)
  unfold OrderBookSide.upsertSingle
  revert hsplit
  generalize List.binarySearchBy book.levels _ = result
  intro hsplit
  cases hsplit with
  | @found pre post level hxs hlevel hpre hpost =>
    rw [BookSide.cmp_eq_iff] at hlevel
    have hsub : (pre ++ post).Sublist book.levels := by
      rw [hxs]
      exact List.Sublist.append (List.Sublist.refl pre) (List.sublist_cons_self level post)
    have hall : ∀ found ∈ book.levels, found.price ≠ newLevel.price → found ∈ pre ++ post := by
      intro found hfound hne
      rw [hxs, List.mem_append, List.mem_cons] at hfound
      rw [List.mem_append]
      rcases hfound with hfound | rfl | hfound
      · exact .inl hfound
      · exact absurd hlevel hne
      · exact .inr hfound
    have hheld := h.of_around hpre hpost hsub hall rfl
    dsimp only
    split
    · rename_i hzero
      rw [if_pos hzero, List.append_nil] at hheld
      rwa [hxs, List.eraseIdx_append_of_length_le le_rfl, Nat.sub_self, List.eraseIdx_cons_zero]
    · rename_i hzero
      rw [if_neg hzero, List.append_assoc, List.singleton_append] at hheld
      have hnew : { level with amount := newLevel.amount } = newLevel := by
        rw [hlevel]
      have hmodify : book.levels.modify pre.length
          (fun level => { level with amount := newLevel.amount }) = pre ++ newLevel :: post := by
        rw [hxs]
        exact (List.modifyTailIdx_add _ 0 pre (level :: post)).trans (by rw [← hnew]; rfl)
      rwa [hmodify]
  | @missing pre post hxs hpre hpost =>
    have hsub : (pre ++ post).Sublist book.levels := by rw [hxs]
    have hall : ∀ found ∈ book.levels, found.price ≠ newLevel.price → found ∈ pre ++ post := by
      intro found hfound _
      rwa [hxs] at hfound
    have hheld := h.of_around hpre hpost hsub hall rfl
    dsimp only
    split
    · rename_i hzero
      rwa [if_pos hzero, List.append_nil, ← hxs] at hheld
    · rename_i hzero
      rw [if_neg hzero, List.append_assoc, List.singleton_append] at hheld
      have hinsert : book.levels.insertIdx pre.length newLevel = pre ++ newLevel :: post := by
        rw [hxs]
        exact List.modifyTailIdx_add _ 0 pre post
      rwa [hinsert]

theorem Holds.upsert (h : book.Holds map) (levels : List Level) :
    (book.upsert levels).Holds
      (VersionedMap.put map (levels.map fun level => (level.price, level.amount))) := by
  induction levels generalizing book map with
  | nil => exact h
  | cons level levels ih => exact ih (h.upsertSingle level)

theorem sorted_perm (side : BookSide) (levels : List Level) : (sorted side levels).levels.Perm levels :=
  List.mergeSort_perm levels _

/-- Sorting a map's levels, each price once, gives a side that holds the map. -/
theorem holds_sorted {levels : List Level} (hnodup : (levels.map Level.price).Nodup)
    (hmem : ∀ level, level ∈ levels ↔ level.amount = map level.price ∧ level.amount ≠ 0) :
    (sorted side levels).Holds map := by
  have hperm := sorted_perm side levels
  constructor
  · have hle : (sorted side levels).levels.Pairwise fun a b =>
        (side.cmp a.price b.price).isLE = true := by
      apply List.pairwise_mergeSort
      · intro a b c
        exact BookSide.isLE_trans
      · intro a b
        exact BookSide.isLE_total
    have hne : (sorted side levels).levels.Pairwise fun a b => a.price ≠ b.price := by
      rw [← List.pairwise_map (f := Level.price) (R := fun a b => a ≠ b)]
      exact (hperm.map Level.price).nodup_iff.2 hnodup
    refine (hle.and hne).imp ?_
    rintro a b ⟨hab, hprice⟩
    rw [Ordering.isLE_iff_eq_lt_or_eq_eq, BookSide.cmp_eq_iff] at hab
    exact hab.resolve_right hprice
  · intro level
    rw [hperm.mem_iff]
    exact hmem level

/-- Levels in their order, none of no amount, are the map that their prices give. -/
theorem exists_holds (hsorted : book.levels.Pairwise fun a b => side.cmp a.price b.price = .lt)
    (hnonzero : ∀ level ∈ book.levels, level.amount ≠ 0) : ∃ map, book.Holds map := by
  refine ⟨fun price => ((book.levels.find? fun level => level.price = price).map
    Level.amount).getD 0, hsorted, ?_⟩
  intro level
  constructor
  · intro hlevel
    obtain ⟨pre, post, hsplit⟩ := List.append_of_mem hlevel
    have hpre : pre.find? (fun found => decide (found.price = level.price)) = none := by
      rw [List.find?_eq_none]
      intro found hfound heq
      rw [hsplit, List.pairwise_append] at hsorted
      exact ne_of_cmp_lt (hsorted.2.2 found hfound level (List.mem_cons_self ..))
        (of_decide_eq_true heq)
    refine ⟨?_, hnonzero level hlevel⟩
    rw [hsplit, List.find?_append, hpre, Option.none_or, List.find?_cons_of_pos (by simp)]
    rfl
  · rintro ⟨hamount, hzero⟩
    cases hfind : book.levels.find? fun found => decide (found.price = level.price) with
    | none =>
      rw [hfind] at hamount
      exact absurd hamount hzero
    | some found =>
      rw [hfind] at hamount
      have hprice : found.price = level.price := by simpa using List.find?_some hfind
      have heq : level = found := by
        cases level
        cases found
        simp_all
      exact heq ▸ List.mem_of_find?_eq_some hfind

/-- A map is held by one list of levels only. -/
theorem Holds.unique (h : book.Holds map) (hother : other.Holds map) : book = other := by
  have hnodup : ∀ {held : OrderBookSide side}, held.Holds map → held.levels.Nodup := by
    intro held hheld
    refine hheld.sorted.imp ?_
    rintro a b hab rfl
    exact BookSide.cmp_self_ne_lt hab
  have hperm : book.levels.Perm other.levels := by
    rw [List.perm_ext_iff_of_nodup (hnodup h) (hnodup hother)]
    intro level
    rw [h.mem, hother.mem]
  have hlevels : book.levels = other.levels := by
    refine hperm.eq_of_pairwise ?_ h.sorted hother.sorted
    intro a b _ _ hab hba
    exact absurd (BookSide.cmp_lt_trans hab hba) BookSide.cmp_self_ne_lt
  cases book
  cases other
  exact congrArg _ hlevels

end OrderBookSide

end Rustrade
