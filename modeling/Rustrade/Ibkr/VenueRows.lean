import Rustrade.Ibkr.DepthAggregator
import Mathlib.Data.List.Forall2

/-!
# The venue's rows

The venue addresses its depth by row: a message inserts a level at a row, puts another in its
place, or deletes it. The aggregator finds levels by price, so what it makes of a message is what
the venue made of its rows exactly where the message carries the price of the row it names.
-/

set_option autoImplicit false

namespace Rustrade.Ibkr

/-! ## The venue's side -/

/-- A level as the venue has it. -/
structure VenueLevel where
  price : ℚ
  size : ℚ
deriving DecidableEq, Repr

/-- What a message does to the rows of its side. -/
inductive RowEdit (depth : MarketDepth) : List VenueLevel → List VenueLevel → Prop
  | insert {pre post : List VenueLevel} {level : VenueLevel} (hoperation : depth.operation = 0)
      (hposition : depth.position = pre.length) (hprice : depth.price = .finite level.price)
      (hsize : depth.size = .finite level.size) (hpositive : 0 < level.size) :
      RowEdit depth (pre ++ post) (pre ++ level :: post)
  | update {pre post : List VenueLevel} {row level : VenueLevel} (hoperation : depth.operation = 1)
      (hposition : depth.position = pre.length) (hprice : depth.price = .finite level.price)
      (hsize : depth.size = .finite level.size) (hpositive : 0 < level.size) :
      RowEdit depth (pre ++ row :: post) (pre ++ level :: post)
  | delete {pre post : List VenueLevel} {row : VenueLevel} (hoperation : depth.operation = 2)
      (hposition : depth.position = pre.length) :
      RowEdit depth (pre ++ row :: post) (pre ++ post)

/-! ## A side that mirrors rows -/

variable [DecimalTryFrom]

/-- The level as decimals, if there are decimals for it. -/
def VenueLevel.level? (self : VenueLevel) : Option Level :=
  (DecimalTryFrom.tryFrom self.price).bind fun price =>
    (DecimalTryFrom.tryFrom self.size).map fun amount => ⟨price, amount⟩

/-- The levels are the rows as decimals, strictly sorted, and none is of no amount. -/
structure Mirrors (side : BookSide) (levels : List Level) (rows : List VenueLevel) : Prop where
  rows : List.Forall₂ (fun level row => row.level? = some level) levels rows
  sorted : levels.Pairwise fun a b => side.cmp a.price b.price = .lt
  amount_ne_zero : ∀ level ∈ levels, level.amount ≠ 0

/-- There are decimals for the rows, and they keep the rows apart. -/
def Representable (side : BookSide) (rows : List VenueLevel) : Prop :=
  ∃ levels, Mirrors side levels rows

/-- A message that names a row carries the row's price. -/
def NamesItsRow (depth : MarketDepth) (rows : List VenueLevel) : Prop :=
  depth.operation ≠ 0 → ∃ row ∈ rows[depth.position.toNat]?,
    decimalFromF64 depth.price = DecimalTryFrom.tryFrom row.price

variable {side : BookSide} {book : OrderBookSide side} {depth : MarketDepth}
  {rows after : List VenueLevel} {price size : Decimal}

omit [DecimalTryFrom] in
theorem cmp_of_sorted {pre post : List Level} {level : Level}
    (h : (pre ++ level :: post).Pairwise fun a b => side.cmp a.price b.price = .lt) :
    (∀ found ∈ pre, side.cmp found.price level.price = .lt) ∧
      ∀ found ∈ post, side.cmp found.price level.price = .gt := by
  obtain ⟨-, hpost, hpre⟩ := List.pairwise_append.1 h
  refine ⟨fun found hfound => hpre found hfound level (List.mem_cons_self ..), ?_⟩
  intro found hfound
  exact BookSide.cmp_gt_iff.2 ((List.pairwise_cons.1 hpost).1 found hfound)

omit [DecimalTryFrom] in
/-- No other level of a side has the price of this one. -/
theorem ne_of_sorted {pre post : List Level} {level : Level}
    (h : (pre ++ level :: post).Pairwise fun a b => side.cmp a.price b.price = .lt) :
    ∀ found ∈ pre ++ post, found.price ≠ level.price := by
  obtain ⟨hpre, hpost⟩ := cmp_of_sorted h
  intro found hfound
  rcases List.mem_append.1 hfound with hfound | hfound
  · exact OrderBookSide.ne_of_cmp_lt (hpre found hfound)
  · exact OrderBookSide.ne_of_cmp_gt (hpost found hfound)

theorem split_rows {levels : List Level} {pre post : List VenueLevel} {row : VenueLevel}
    (h : List.Forall₂ (fun level row => row.level? = some level) levels (pre ++ row :: post)) :
    ∃ preLevels level postLevels, levels = preLevels ++ level :: postLevels ∧
      List.Forall₂ (fun level row => row.level? = some level) preLevels pre ∧
      row.level? = some level ∧
      List.Forall₂ (fun level row => row.level? = some level) postLevels post := by
  have hpre := List.forall₂_take_append levels pre (row :: post) h
  have hpost := List.forall₂_drop_append levels pre (row :: post) h
  cases hdrop : levels.drop pre.length with
  | nil =>
    rw [hdrop] at hpost
    cases hpost
  | cons level postLevels =>
    rw [hdrop] at hpost
    obtain ⟨hlevel, hpost⟩ := List.forall₂_cons.1 hpost
    exact ⟨_, level, postLevels, by rw [← hdrop, List.take_append_drop], hpre, hlevel, hpost⟩

theorem level?_eq {row : VenueLevel} {level : Level} (h : row.level? = some level) :
    DecimalTryFrom.tryFrom row.price = some level.price ∧
      DecimalTryFrom.tryFrom row.size = some level.amount := by
  unfold VenueLevel.level? at h
  obtain ⟨price, hprice, h⟩ := Option.bind_eq_some_iff.1 h
  obtain ⟨amount, hamount, rfl⟩ := Option.map_eq_some_iff.1 h
  exact ⟨hprice, hamount⟩

omit [DecimalTryFrom] in
theorem row_at {pre post : List VenueLevel} {row : VenueLevel}
    (hposition : depth.position = pre.length) :
    (pre ++ row :: post)[depth.position.toNat]? = some row := by
  simp [hposition]

theorem namesItsRow_iff {pre post : List VenueLevel} {row : VenueLevel} {level : Level}
    (hposition : depth.position = pre.length) (hnames : depth.operation ≠ 0)
    (hrow : row.level? = some level) (hprice : decimalFromF64 depth.price = some price) :
    NamesItsRow depth (pre ++ row :: post) ↔ level.price = price := by
  unfold NamesItsRow
  rw [row_at hposition, hprice]
  constructor
  · intro h
    obtain ⟨named, hnamed, hsame⟩ := h hnames
    cases Option.mem_some_iff.1 hnamed
    rw [(level?_eq hrow).1] at hsame
    exact (Option.some.inj hsame).symm
  · rintro rfl _
    exact ⟨row, rfl, (level?_eq hrow).1.symm⟩

/-- The size that is upserted: none for a delete. -/
def sizeTaken (depth : MarketDepth) : Option Decimal :=
  if depth.operation = ibDepthOpDelete then some 0 else decimalFromF64 depth.size

/-- A level that a message puts is what is upserted of it. -/
theorem level_of_message {row : VenueLevel} {level : Level} (hrow : row.level? = some level)
    (hputs : depth.operation ≠ ibDepthOpDelete)
    (hpriceOf : depth.price = .finite row.price) (hsizeOf : depth.size = .finite row.size)
    (hprice : decimalFromF64 depth.price = some price) (hsize : sizeTaken depth = some size) :
    level = ⟨price, size⟩ := by
  unfold sizeTaken at hsize
  rw [if_neg hputs, hsizeOf] at hsize
  rw [hpriceOf] at hprice
  obtain ⟨hlevelPrice, hlevelSize⟩ := level?_eq hrow
  have hp : level.price = price := Option.some.inj (hlevelPrice.symm.trans hprice)
  have hs : level.amount = size := Option.some.inj (hlevelSize.symm.trans hsize)
  rw [← hp, ← hs]

theorem levels_unique {levels found : List Level}
    (h : List.Forall₂ (fun level row => row.level? = some level) levels rows)
    (hfound : List.Forall₂ (fun level row => row.level? = some level) found rows) :
    levels = found := by
  induction h generalizing found with
  | nil =>
    cases hfound
    rfl
  | cons hlevel _ ih =>
    cases hfound with
    | cons hother hrest => rw [ih hrest, Option.some.inj (hlevel.symm.trans hother)]

/-! ## What an upsert leaves -/

/-- The upsert of the aggregator, at a side's own order. -/
def upsertAt (book : OrderBookSide side) (price size : Decimal) : List Level :=
  (book.upsertSingle ⟨price, size⟩ fun existing => side.cmp existing.price price).levels

/-- What is left of a side around a price. -/
structure Around (book : OrderBookSide side) (price : Decimal) (pre post : List Level) : Prop where
  before : ∀ level ∈ pre, side.cmp level.price price = .lt
  behind : ∀ level ∈ post, side.cmp level.price price = .gt
  sublist : (pre ++ post).Sublist book.levels
  all : ∀ level ∈ book.levels, level.price ≠ price → level ∈ pre ++ post

variable {pre post : List Level}

theorem upsertAt_eq (hsync : Mirrors side book.levels rows) (h : Around book price pre post) :
    upsertAt book price size =
      pre ++ (if size = 0 then [] else [(⟨price, size⟩ : Level)]) ++ post := by
  obtain ⟨map, hholds⟩ := OrderBookSide.exists_holds hsync.sorted hsync.amount_ne_zero
  let newLevel : Level := ⟨price, size⟩
  have hupserted := hholds.upsertSingle newLevel
  have hheld := @OrderBookSide.Holds.of_around side book map pre post _ newLevel hholds h.before
    h.behind h.sublist h.all rfl
  exact congrArg OrderBookSide.levels (hupserted.unique hheld)

/-- A level put at a price stands between the others. -/
theorem upsertAt_put (hsync : Mirrors side book.levels rows) (h : Around book price pre post)
    (hsize : size ≠ 0) : upsertAt book price size = pre ++ ⟨price, size⟩ :: post := by
  rw [upsertAt_eq hsync h, if_neg hsize, List.append_assoc, List.singleton_append]

/-- A level of no amount leaves the others. -/
theorem upsertAt_zero (hsync : Mirrors side book.levels rows) (h : Around book price pre post) :
    upsertAt book price 0 = pre ++ post := by
  rw [upsertAt_eq hsync h, if_pos rfl, List.append_nil]

omit [DecimalTryFrom] in
theorem around_of_sorted {level : Level} (hbook : book.levels = pre ++ level :: post)
    (hsorted : (pre ++ level :: post).Pairwise fun a b => side.cmp a.price b.price = .lt) :
    Around book level.price pre post := by
  obtain ⟨hpre, hpost⟩ := cmp_of_sorted hsorted
  refine ⟨hpre, hpost, ?_, ?_⟩
  · rw [hbook]
    exact List.Sublist.append (List.Sublist.refl pre) (List.sublist_cons_self level post)
  · intro found hfound hne
    rw [hbook, List.mem_append, List.mem_cons] at hfound
    rw [List.mem_append]
    rcases hfound with hfound | rfl | hfound
    · exact .inl hfound
    · exact absurd rfl hne
    · exact .inr hfound

/-- A level of another price stays. -/
theorem mem_upsertAt {level : Level} (hsync : Mirrors side book.levels rows)
    (hlevel : level ∈ book.levels) (hne : level.price ≠ price) :
    level ∈ upsertAt book price size := by
  obtain ⟨map, hholds⟩ := OrderBookSide.exists_holds hsync.sorted hsync.amount_ne_zero
  refine ((hholds.upsertSingle ⟨price, size⟩).mem level).2 ?_
  rw [Function.update_of_ne hne]
  exact (hholds.mem level).1 hlevel

/-- An upsert at the message's price follows the edit of the rows exactly where there are decimals
    for the rows, and the message carries the price of the row it names. -/
theorem upsertAt_mirrors_iff (hsync : Mirrors side book.levels rows)
    (hedit : RowEdit depth rows after) (hprice : decimalFromF64 depth.price = some price)
    (hsize : sizeTaken depth = some size) :
    Mirrors side (upsertAt book price size) after ↔
      Representable side after ∧ NamesItsRow depth rows := by
  cases hedit with
  | @insert pre post level hoperation hposition hpriceOf hsizeOf hpositive =>
    refine ⟨fun h => ⟨⟨_, h⟩, fun hnot => absurd hoperation hnot⟩, ?_⟩
    rintro ⟨⟨levels, hlevels⟩, -⟩
    obtain ⟨preLevels, put, postLevels, rfl, hpreRows, hput, hpostRows⟩ := split_rows hlevels.rows
    cases level_of_message hput (by rw [hoperation]; decide) hpriceOf hsizeOf hprice hsize
    have hbook : book.levels = preLevels ++ postLevels :=
      levels_unique hsync.rows (List.rel_append hpreRows hpostRows)
    have hzero : size ≠ 0 := hlevels.amount_ne_zero ⟨price, size⟩ (by simp)
    obtain ⟨hpre, hpost⟩ := cmp_of_sorted hlevels.sorted
    rwa [upsertAt_put hsync ⟨hpre, hpost, by rw [hbook], fun _ hlevel _ => hbook ▸ hlevel⟩ hzero]
  | @update pre post row level hoperation hposition hpriceOf hsizeOf hpositive =>
    have hputs : depth.operation ≠ ibDepthOpDelete := by
      rw [hoperation]
      decide
    have hnames : depth.operation ≠ 0 := by
      rw [hoperation]
      decide
    obtain ⟨preLevels, held, postLevels, hbook, hpreRows, hheld, hpostRows⟩ :=
      split_rows hsync.rows
    have hsorted := hsync.sorted
    rw [hbook] at hsorted
    rw [namesItsRow_iff hposition hnames hheld hprice]
    constructor
    · intro h
      refine ⟨⟨_, h⟩, ?_⟩
      by_contra hne
      obtain ⟨preFound, put, postFound, hfound, hpreFound, hput, hpostFound⟩ := split_rows h.rows
      cases levels_unique hpreRows hpreFound
      cases levels_unique hpostRows hpostFound
      cases level_of_message hput hputs hpriceOf hsizeOf hprice hsize
      -- The level of the old price is still there, where the rows have none.
      have hstays : held ∈ upsertAt book price size := mem_upsertAt hsync (by simp [hbook]) hne
      rw [hfound, List.mem_append, List.mem_cons] at hstays
      rcases hstays with hstays | rfl | hstays
      · exact ne_of_sorted hsorted held (List.mem_append_left _ hstays) rfl
      · exact hne rfl
      · exact ne_of_sorted hsorted held (List.mem_append_right _ hstays) rfl
    · rintro ⟨⟨levels, hlevels⟩, rfl⟩
      obtain ⟨preFound, put, postFound, rfl, hpreFound, hput, hpostFound⟩ :=
        split_rows hlevels.rows
      cases levels_unique hpreRows hpreFound
      cases levels_unique hpostRows hpostFound
      cases level_of_message hput hputs hpriceOf hsizeOf hprice hsize
      have hzero : size ≠ 0 := hlevels.amount_ne_zero ⟨held.price, size⟩ (by simp)
      rwa [upsertAt_put hsync (around_of_sorted hbook hsorted) hzero]
  | @delete pre post row hoperation hposition =>
    have hnames : depth.operation ≠ 0 := by
      rw [hoperation]
      decide
    have hdelete : depth.operation = ibDepthOpDelete := hoperation
    unfold sizeTaken at hsize
    rw [if_pos hdelete] at hsize
    cases hsize
    obtain ⟨preLevels, held, postLevels, hbook, hpreRows, hheld, hpostRows⟩ :=
      split_rows hsync.rows
    have hsorted := hsync.sorted
    rw [hbook] at hsorted
    have hrest : List.Forall₂ (fun level row => VenueLevel.level? row = some level)
        (preLevels ++ postLevels) (pre ++ post) := List.rel_append hpreRows hpostRows
    rw [namesItsRow_iff hposition hnames hheld hprice]
    constructor
    · intro h
      refine ⟨⟨_, h⟩, ?_⟩
      by_contra hne
      -- The row's own level is still there.
      have hstays : held ∈ upsertAt book price 0 := mem_upsertAt hsync (by simp [hbook]) hne
      rw [levels_unique h.rows hrest] at hstays
      exact ne_of_sorted hsorted held hstays rfl
    · rintro ⟨⟨levels, hlevels⟩, rfl⟩
      rw [upsertAt_zero hsync (around_of_sorted hbook hsorted), ← levels_unique hlevels.rows hrest]
      exact hlevels

/-- Where the rows have decimals and the message names its row, the message has decimals too. -/
theorem RowEdit.converts (hedit : RowEdit depth rows after) (hrows : Representable side rows)
    (hafter : Representable side after) (hnames : NamesItsRow depth rows) :
    ∃ price size, decimalFromF64 depth.price = some price ∧ sizeTaken depth = some size := by
  have hput : ∀ {pre post : List VenueLevel} {row : VenueLevel},
      depth.operation ≠ ibDepthOpDelete → depth.price = .finite row.price →
      depth.size = .finite row.size → Representable side (pre ++ row :: post) →
      ∃ price size, decimalFromF64 depth.price = some price ∧ sizeTaken depth = some size := by
    rintro pre post row hputs hprice hsize ⟨levels, hlevels⟩
    obtain ⟨-, put, -, -, -, hput, -⟩ := split_rows hlevels.rows
    obtain ⟨hputPrice, hputSize⟩ := level?_eq hput
    unfold sizeTaken
    rw [if_neg hputs, hprice, hsize]
    exact ⟨_, _, hputPrice, hputSize⟩
  cases hedit with
  | insert hoperation _ hprice hsize _ => exact hput (by rw [hoperation]; decide) hprice hsize hafter
  | update hoperation _ hprice hsize _ => exact hput (by rw [hoperation]; decide) hprice hsize hafter
  | delete hoperation hposition =>
    have hdelete : depth.operation = ibDepthOpDelete := hoperation
    obtain ⟨levels, hlevels⟩ := hrows
    obtain ⟨-, held, -, -, -, hheld, -⟩ := split_rows hlevels.rows
    obtain ⟨row, hrow, hprice⟩ := hnames (by rw [hoperation]; decide)
    rw [row_at hposition] at hrow
    cases Option.mem_some_iff.1 hrow
    unfold sizeTaken
    rw [if_pos hdelete]
    exact ⟨_, 0, hprice.trans (level?_eq hheld).1, rfl⟩

end Rustrade.Ibkr
