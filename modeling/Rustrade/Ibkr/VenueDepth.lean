import Rustrade.Ibkr.VenueRows

/-!
# Depth that follows the venue

Over a run of the venue's messages the aggregator keeps the venue's book for as long as no message
that names a row carries another price than the row has. A level whose price the venue moved stays
in the aggregator's book.
-/

set_option autoImplicit false

namespace Rustrade.Ibkr

open Mock (Build)

/-! ## The venue's book -/

structure VenueBook where
  asks : List VenueLevel
  bids : List VenueLevel
deriving DecidableEq, Repr

/-- Best first, and no two rows of one price. -/
def RowsSorted (side : BookSide) (rows : List VenueLevel) : Prop :=
  rows.Pairwise fun a b => side.cmp a.price b.price = .lt

/-- One message the venue sends, with its book before and after. -/
inductive VenueStep (book : VenueBook) : MarketDepths → VenueBook → Prop
  | asks {depth : MarketDepth} {rows : List VenueLevel} (hside : depth.side = 0)
      (hedit : RowEdit depth book.asks rows) (hsorted : RowsSorted .asks rows) :
      VenueStep book (.marketDepth depth) { book with asks := rows }
  | bids {depth : MarketDepth} {rows : List VenueLevel} (hside : depth.side = 1)
      (hedit : RowEdit depth book.bids rows) (hsorted : RowsSorted .bids rows) :
      VenueStep book (.marketDepth depth) { book with bids := rows }
  | reset : VenueStep book .reset ⟨[], []⟩

/-- The messages the venue sends from a book on, with its book after each. -/
inductive VenueRun : VenueBook → List (MarketDepths × DateTime) → List VenueBook → Prop
  | done {book : VenueBook} : VenueRun book [] []
  | sent {book after : VenueBook} {message : MarketDepths} {timeReceived : DateTime}
      {rest : List (MarketDepths × DateTime)} {books : List VenueBook}
      (hstep : VenueStep book message after) (hrest : VenueRun after rest books) :
      VenueRun book ((message, timeReceived) :: rest) (after :: books)

variable [DecimalTryFrom] {depth : MarketDepth} {price size : Decimal}

/-! ## One message -/

/-- The sides of a book are the venue's. -/
structure VenueBook.MirroredBy (venue : VenueBook) (asks : OrderBookSide .asks)
    (bids : OrderBookSide .bids) : Prop where
  asks : Mirrors .asks asks.levels venue.asks
  bids : Mirrors .bids bids.levels venue.bids

/-- There are decimals for the venue's levels, and the message names its row by the row's price. -/
structure Keyed (venue : VenueBook) (message : MarketDepths) (after : VenueBook) : Prop where
  asks : Representable .asks after.asks
  bids : Representable .bids after.bids
  names : ∀ depth, message = .marketDepth depth →
    NamesItsRow depth (if depth.side = 0 then venue.asks else venue.bids)

variable [Build] {venue next : VenueBook} {mirror mid : DepthAggregator} {message : MarketDepths}
  {timeReceived : DateTime} {snapshot : OrderBook}

namespace DepthAggregator

/-- A snapshot is of the sides that were taken, and of the next sequence. -/
structure Emitted (mirror mid : DepthAggregator) (snapshot : OrderBook) : Prop where
  asks : snapshot.asks = mid.asks
  bids : snapshot.bids = mid.bids
  sequence : snapshot.sequence = mid.sequence
  next : mid.sequence = mirror.sequence + 1

omit [DecimalTryFrom] in
theorem emitted_of_emit {taken : DepthAggregator}
    (h : taken.emit timeReceived = .ok (mid, .snapshot snapshot)) :
    Emitted taken mid snapshot ∧ mid.asks = taken.asks ∧ mid.bids = taken.bids := by
  unfold emit nextSequence toOrderBook OrderBook.fromSides at h
  split at h
  · cases h
  · dsimp only [bind, Except.bind] at h
    split at h
    · cases h
    · rename_i hbook
      split at hbook
      · cases hbook
      · cases hbook
        cases h
        exact ⟨⟨rfl, rfl, rfl, rfl⟩, rfl, rfl⟩

/-- Sorted sides are emitted for as long as the sequence has room. -/
theorem emit_of_mirrors (timeReceived : DateTime) {taken : DepthAggregator}
    (h : next.MirroredBy taken.asks taken.bids)
    (hroom : taken.sequence.toNat + 1 < 2 ^ 64) :
    ∃ mid snapshot, taken.emit timeReceived = .ok (mid, .snapshot snapshot) := by
  have hbids : taken.bids.levels.IsChain fun a b => b.price ≤ a.price := by
    refine List.Pairwise.isChain (h.bids.sorted.imp ?_)
    intro a b hab
    have hab : (compare a.price b.price).swap = .lt := hab
    rw [Ordering.swap_eq_lt, compare_gt_iff_gt] at hab
    exact hab.le
  have hasks : taken.asks.levels.IsChain fun a b => a.price ≤ b.price := by
    refine List.Pairwise.isChain (h.asks.sorted.imp ?_)
    intro a b hab
    exact (compare_lt_iff_lt.1 hab).le
  have hseq : taken.sequence ≠ -1 := by
    intro heq
    rw [heq] at hroom
    exact absurd hroom (by decide)
  unfold emit nextSequence toOrderBook OrderBook.fromSides
  simp only [hbids, hasks, hseq, bind, Except.bind, decide_true, decide_false, Bool.and_self,
    Bool.not_true, Bool.and_false, Bool.false_eq_true, if_false]
  exact ⟨_, _, rfl⟩

omit [DecimalTryFrom] in
theorem emit_of_map {taken : DepthAggregator}
    (h : ((taken.emit timeReceived).map fun (self, event) => (self, some event)) =
      .ok (mid, some (.snapshot snapshot))) : taken.emit timeReceived = .ok (mid, .snapshot snapshot) := by
  cases hemit : taken.emit timeReceived with
  | error panic =>
    rw [hemit] at h
    cases h
  | ok emitted =>
    obtain ⟨after, event⟩ := emitted
    rw [hemit] at h
    cases h
    rfl

/-- The sides once a level was taken for one of them. -/
def taken (mirror : DepthAggregator) (side : ℤ) (price size : Decimal) : Option DepthAggregator :=
  match side with
  | 0 => some (mirror.updateAsks price size)
  | 1 => some (mirror.updateBids price size)
  | _ => none

/-- What is emitted of a message is of the sides it was taken for. -/
theorem emit_of_processDepth
    (h : mirror.processDepth depth timeReceived = .ok (mid, some (.snapshot snapshot))) :
    ∃ price size after, decimalFromF64 depth.price = some price ∧ sizeTaken depth = some size ∧
      mirror.taken depth.side price size = some after ∧
      after.emit timeReceived = .ok (mid, .snapshot snapshot) := by
  unfold processDepth at h
  split at h
  · cases h
  · rename_i price hprice
    dsimp only at h
    split at h
    · cases h
    · rename_i size hsize
      split at h
      · rename_i hside
        exact ⟨price, size, _, hprice, hsize, by rw [hside]; rfl, emit_of_map h⟩
      · rename_i hside
        exact ⟨price, size, _, hprice, hsize, by rw [hside]; rfl, emit_of_map h⟩
      · cases h

theorem processDepth_of_taken {after : DepthAggregator} {event : OrderBookEvent}
    (hprice : decimalFromF64 depth.price = some price) (hsize : sizeTaken depth = some size)
    (htaken : mirror.taken depth.side price size = some after)
    (hemit : after.emit timeReceived = .ok (mid, event)) :
    mirror.processDepth depth timeReceived = .ok (mid, some event) := by
  unfold sizeTaken at hsize
  unfold processDepth
  rw [hprice]
  dsimp only
  rw [hsize]
  dsimp only
  generalize depth.side = side at htaken ⊢
  unfold taken at htaken
  split at htaken
  · cases htaken
    show ((mirror.updateAsks price size).emit timeReceived).map _ = _
    rw [hemit]
    rfl
  · cases htaken
    show ((mirror.updateBids price size).emit timeReceived).map _ = _
    rw [hemit]
    rfl
  · cases htaken

omit [Build] in
/-- The sides that were taken are the venue's exactly where the message is keyed. -/
theorem taken_mirrors_iff {after : DepthAggregator}
    (hsync : venue.MirroredBy mirror.asks mirror.bids)
    (hstep : VenueStep venue (.marketDepth depth) next)
    (hprice : decimalFromF64 depth.price = some price) (hsize : sizeTaken depth = some size)
    (htaken : mirror.taken depth.side price size = some after) :
    next.MirroredBy after.asks after.bids ↔ Keyed venue (.marketDepth depth) next := by
  have hnamed : ∀ {named : List VenueLevel},
      (if depth.side = 0 then venue.asks else venue.bids) = named →
      ((∀ found, MarketDepths.marketDepth depth = .marketDepth found →
        NamesItsRow found (if found.side = 0 then venue.asks else venue.bids)) ↔
        NamesItsRow depth named) := by
    rintro _ rfl
    refine ⟨fun h => h depth rfl, ?_⟩
    rintro h _ ⟨⟩
    exact h
  cases hstep with
  | asks hside hedit hsorted =>
    rw [hside] at htaken
    cases htaken
    have hiff := upsertAt_mirrors_iff hsync.asks hedit hprice hsize
    have hnames := hnamed (if_pos hside)
    constructor
    · intro h
      obtain ⟨hrep, hnamesRow⟩ := hiff.1 h.asks
      exact ⟨hrep, ⟨_, hsync.bids⟩, hnames.2 hnamesRow⟩
    · intro h
      exact ⟨hiff.2 ⟨h.asks, hnames.1 h.names⟩, hsync.bids⟩
  | bids hside hedit hsorted =>
    rw [hside] at htaken
    cases htaken
    have hiff := upsertAt_mirrors_iff hsync.bids hedit hprice hsize
    have hnames := hnamed (if_neg (by rw [hside]; decide))
    constructor
    · intro h
      obtain ⟨hrep, hnamesRow⟩ := hiff.1 h.bids
      exact ⟨⟨_, hsync.asks⟩, hrep, hnames.2 hnamesRow⟩
    · intro h
      exact ⟨hsync.asks, hiff.2 ⟨h.bids, hnames.1 h.names⟩⟩

omit [Build] in
theorem mirrors_nil (side : BookSide) : Mirrors side [] [] :=
  ⟨List.Forall₂.nil, List.Pairwise.nil, fun _ h => absurd h List.not_mem_nil⟩

omit [Build] in
theorem keyed_reset : Keyed venue .reset ⟨[], []⟩ :=
  ⟨⟨_, mirrors_nil .asks⟩, ⟨_, mirrors_nil .bids⟩, fun _ h => by cases h⟩

/-- A message leaves a snapshot of the venue's book exactly where it is keyed. -/
theorem update_mirrors (hsync : venue.MirroredBy mirror.asks mirror.bids)
    (hstep : VenueStep venue message next)
    (hupdate : mirror.update message timeReceived = .ok (mid, some (.snapshot snapshot))) :
    Emitted mirror mid snapshot ∧
      (next.MirroredBy snapshot.asks snapshot.bids ↔ Keyed venue message next) := by
  cases message with
  | marketDepth depth =>
    obtain ⟨price, size, after, hprice, hsize, htaken, hemit⟩ := emit_of_processDepth hupdate
    obtain ⟨hemitted, hasks, hbids⟩ := emitted_of_emit hemit
    have hsequence : after.sequence = mirror.sequence := by
      unfold taken at htaken
      split at htaken
      · cases htaken
        rfl
      · cases htaken
        rfl
      · cases htaken
    rw [hemitted.asks, hemitted.bids, hasks, hbids]
    refine ⟨⟨hemitted.asks, hemitted.bids, hemitted.sequence, ?_⟩,
      taken_mirrors_iff hsync hstep hprice hsize htaken⟩
    rw [← hsequence]
    exact hemitted.next
  | marketDepthL2 => cases hstep
  | reset =>
    obtain ⟨hemitted, hasks, hbids⟩ := emitted_of_emit (emit_of_map hupdate)
    cases hstep
    rw [hemitted.asks, hemitted.bids, hasks, hbids]
    exact ⟨⟨hemitted.asks, hemitted.bids, hemitted.sequence, hemitted.next⟩,
      iff_of_true ⟨mirrors_nil .asks, mirrors_nil .bids⟩ keyed_reset⟩

/-- A keyed message leaves a snapshot, for as long as the sequence has room. -/
theorem update_of_keyed (timeReceived : DateTime) (hsync : venue.MirroredBy mirror.asks mirror.bids)
    (hstep : VenueStep venue message next) (hkeyed : Keyed venue message next)
    (hroom : mirror.sequence.toNat + 1 < 2 ^ 64) : ∃ mid snapshot,
      mirror.update message timeReceived = .ok (mid, some (.snapshot snapshot)) := by
  cases hstep with
  | @asks depth rows hside hedit hsorted =>
    have hnames := hkeyed.names depth rfl
    rw [if_pos hside] at hnames
    obtain ⟨price, size, hprice, hsize⟩ := hedit.converts ⟨_, hsync.asks⟩ hkeyed.asks hnames
    have htaken : mirror.taken depth.side price size = some (mirror.updateAsks price size) := by
      rw [hside]
      rfl
    have hmirrored :=
      (taken_mirrors_iff hsync (.asks hside hedit hsorted) hprice hsize htaken).2 hkeyed
    obtain ⟨mid, snapshot, hemit⟩ := emit_of_mirrors timeReceived hmirrored hroom
    exact ⟨mid, snapshot, processDepth_of_taken hprice hsize htaken hemit⟩
  | @bids depth rows hside hedit hsorted =>
    have hnames := hkeyed.names depth rfl
    rw [if_neg (by rw [hside]; decide)] at hnames
    obtain ⟨price, size, hprice, hsize⟩ := hedit.converts ⟨_, hsync.bids⟩ hkeyed.bids hnames
    have htaken : mirror.taken depth.side price size = some (mirror.updateBids price size) := by
      rw [hside]
      rfl
    have hmirrored :=
      (taken_mirrors_iff hsync (.bids hside hedit hsorted) hprice hsize htaken).2 hkeyed
    obtain ⟨mid, snapshot, hemit⟩ := emit_of_mirrors timeReceived hmirrored hroom
    exact ⟨mid, snapshot, processDepth_of_taken hprice hsize htaken hemit⟩
  | reset =>
    have hnothing : (⟨[], []⟩ : VenueBook).MirroredBy ⟨[]⟩ ⟨[]⟩ :=
      ⟨mirrors_nil .asks, mirrors_nil .bids⟩
    let emptied : DepthAggregator := { mirror with bids := ⟨[]⟩, asks := ⟨[]⟩ }
    have hemits : ∃ mid snapshot, emptied.emit timeReceived = .ok (mid, .snapshot snapshot) :=
      emit_of_mirrors timeReceived hnothing hroom
    obtain ⟨mid, snapshot, hemit⟩ := hemits
    refine ⟨mid, snapshot, ?_⟩
    show (emptied.emit timeReceived).map _ = _
    rw [hemit]
    rfl

/-! ## A whole run -/

variable {messages : List (MarketDepths × DateTime)} {books : List VenueBook}

/-- Every message of a run is keyed. -/
def KeyedRun : VenueBook → List (MarketDepths × DateTime) → List VenueBook → Prop
  | venue, (message, _) :: rest, next :: books =>
    Keyed venue message next ∧ KeyedRun next rest books
  | _, _, _ => True

/-- Each message has left a snapshot of the venue's book at that moment, with a sequence above every
    earlier one's. -/
def KeepsBook (mirror : DepthAggregator) (messages : List (MarketDepths × DateTime))
    (books : List VenueBook) : Prop :=
  ∃ after snapshots,
    mirror.run messages = .ok (after, snapshots.map fun snapshot => some (.snapshot snapshot)) ∧
      List.Forall₂ (fun snapshot (venue : VenueBook) => venue.MirroredBy snapshot.asks snapshot.bids)
        snapshots books ∧
      (snapshots.map OrderBook.sequence).Pairwise (· < ·)

theorem run_cons {rest : List (MarketDepths × DateTime)} {after : DepthAggregator}
    {snapshots : List OrderBook} :
    mirror.run ((message, timeReceived) :: rest) =
        .ok (after, snapshots.map fun snapshot => some (.snapshot snapshot)) ↔
      ∃ mid snapshot later, snapshots = snapshot :: later ∧
        mirror.update message timeReceived = .ok (mid, some (.snapshot snapshot)) ∧
        mid.run rest = .ok (after, later.map fun snapshot => some (.snapshot snapshot)) := by
  show (mirror.update message timeReceived).bind _ = _ ↔ _
  constructor
  · intro h
    cases hupdate : mirror.update message timeReceived with
    | error panic =>
      rw [hupdate] at h
      cases h
    | ok updated =>
    obtain ⟨mid, event⟩ := updated
    rw [hupdate] at h
    have h : (mid.run rest).bind _ = _ := h
    cases hrest : mid.run rest with
    | error panic =>
      rw [hrest] at h
      cases h
    | ok ran =>
    obtain ⟨last, events⟩ := ran
    rw [hrest] at h
    cases snapshots with
    | nil => cases h
    | cons snapshot later =>
      cases h
      exact ⟨mid, snapshot, later, rfl, rfl, hrest⟩
  · rintro ⟨mid, snapshot, later, rfl, hupdate, hrest⟩
    rw [hupdate]
    show (mid.run rest).bind _ = _
    rw [hrest]
    rfl

omit [DecimalTryFrom] [Build] in
theorem Emitted.room (h : Emitted mirror mid snapshot)
    (hlt : mirror.sequence < snapshot.sequence) :
    mid.sequence.toNat = mirror.sequence.toNat + 1 ∧ mirror.sequence.toNat + 1 < 2 ^ 64 := by
  rw [h.sequence, h.next, UInt64.lt_iff_toNat_lt, UInt64.toNat_add] at hlt
  rw [h.next, UInt64.toNat_add]
  have hbound := mirror.sequence.toNat_lt
  have hone : (1 : UInt64).toNat = 1 := rfl
  rw [hone] at hlt ⊢
  omega

omit [DecimalTryFrom] [Build] in
theorem Emitted.sequence_lt (h : Emitted mirror mid snapshot)
    (hroom : mirror.sequence.toNat + 1 < 2 ^ 64) :
    mirror.sequence < mid.sequence ∧ mid.sequence.toNat = mirror.sequence.toNat + 1 := by
  have hone : (1 : UInt64).toNat = 1 := rfl
  rw [UInt64.lt_iff_toNat_lt, h.next, UInt64.toNat_add, hone]
  omega

/-- From a mirror of the venue's book on: with sequences above the mirror's own. -/
theorem keeps_iff (hsync : venue.MirroredBy mirror.asks mirror.bids)
    (hrun : VenueRun venue messages books) :
    (∃ after snapshots,
      mirror.run messages = .ok (after, snapshots.map fun snapshot => some (.snapshot snapshot)) ∧
        List.Forall₂ (fun snapshot (venue : VenueBook) =>
          venue.MirroredBy snapshot.asks snapshot.bids) snapshots books ∧
        (mirror.sequence :: snapshots.map OrderBook.sequence).Pairwise (· < ·)) ↔
      KeyedRun venue messages books ∧ mirror.sequence.toNat + messages.length < 2 ^ 64 := by
  induction hrun generalizing mirror with
  | done =>
    refine iff_of_true ⟨mirror, [], rfl, List.Forall₂.nil, List.pairwise_singleton _ _⟩ ⟨trivial, ?_⟩
    exact mirror.sequence.toNat_lt
  | @sent venue next message timeReceived rest books hstep hrest ih =>
    rw [List.length_cons]
    constructor
    · rintro ⟨after, snapshots, hran, hmirrored, hsorted⟩
      obtain ⟨mid, snapshot, later, rfl, hupdate, hlater⟩ := run_cons.1 hran
      obtain ⟨hemitted, hiff⟩ := update_mirrors hsync hstep hupdate
      obtain ⟨hnext, hmirroredLater⟩ := List.forall₂_cons.1 hmirrored
      rw [List.map_cons, List.pairwise_cons] at hsorted
      obtain ⟨hlt, hsorted⟩ := hsorted
      obtain ⟨hcount, hroom⟩ := hemitted.room (hlt _ (List.mem_cons_self ..))
      rw [hemitted.sequence] at hsorted
      have hmid : next.MirroredBy mid.asks mid.bids := by
        rwa [hemitted.asks, hemitted.bids] at hnext
      obtain ⟨hkeyed, hlength⟩ := (ih hmid).1 ⟨after, later, hlater, hmirroredLater, hsorted⟩
      exact ⟨⟨hiff.1 hnext, hkeyed⟩, by omega⟩
    · rintro ⟨⟨hkeyed, hkeyedRest⟩, hlength⟩
      have hroom : mirror.sequence.toNat + 1 < 2 ^ 64 := by omega
      obtain ⟨mid, snapshot, hupdate⟩ := update_of_keyed timeReceived hsync hstep hkeyed hroom
      obtain ⟨hemitted, hiff⟩ := update_mirrors hsync hstep hupdate
      have hnext := hiff.2 hkeyed
      have hmid : next.MirroredBy mid.asks mid.bids := by
        rwa [hemitted.asks, hemitted.bids] at hnext
      obtain ⟨hlt, hcount⟩ := hemitted.sequence_lt hroom
      obtain ⟨after, later, hlater, hmirrored, hsorted⟩ := (ih hmid).2 ⟨hkeyedRest, by omega⟩
      refine ⟨after, snapshot :: later, run_cons.2 ⟨mid, snapshot, later, rfl, hupdate, hlater⟩,
        List.Forall₂.cons hnext hmirrored, ?_⟩
      rw [List.map_cons, hemitted.sequence, List.pairwise_cons]
      refine ⟨?_, hsorted⟩
      intro sequence hsequence
      rcases List.mem_cons.1 hsequence with rfl | hsequence
      · exact hlt
      · exact UInt64.lt_trans hlt ((List.pairwise_cons.1 hsorted).1 sequence hsequence)

omit [Build] in
theorem mirrored_new : (⟨[], []⟩ : VenueBook).MirroredBy new.asks new.bids :=
  ⟨mirrors_nil .asks, mirrors_nil .bids⟩

/-- The aggregator keeps the venue's book in exactly those runs in which each message that names a
    row carries the row's price, and there are decimals for the venue's levels and sequences for its
    messages. -/
theorem keepsBook_iff (hrun : VenueRun ⟨[], []⟩ messages books) :
    KeepsBook new messages books ↔ KeyedRun ⟨[], []⟩ messages books ∧ messages.length < 2 ^ 64 := by
  have hiff := keeps_iff mirrored_new hrun
  have hzero : new.sequence.toNat = 0 := rfl
  rw [hzero, zero_add] at hiff
  rw [← hiff]
  constructor
  · rintro ⟨after, snapshots, hran, hmirrored, hsorted⟩
    refine ⟨after, snapshots, hran, hmirrored, List.pairwise_cons.2 ⟨?_, hsorted⟩⟩
    cases hrun with
    | done =>
      cases hmirrored
      simp
    | sent hstep hrest =>
      obtain ⟨mid, snapshot, later, rfl, hupdate, -⟩ := run_cons.1 hran
      obtain ⟨hemitted, -⟩ := update_mirrors mirrored_new hstep hupdate
      have hfirst : new.sequence < snapshot.sequence := by
        rw [hemitted.sequence, hemitted.next]
        decide
      intro sequence hsequence
      rcases List.mem_cons.1 hsequence with rfl | hsequence
      · exact hfirst
      · exact UInt64.lt_trans hfirst ((List.pairwise_cons.1 hsorted).1 sequence hsequence)
  · rintro ⟨after, snapshots, hran, hmirrored, hsorted⟩
    exact ⟨after, snapshots, hran, hmirrored, (List.pairwise_cons.1 hsorted).2⟩

/-! ## A level that changes its price -/

/-- A bid at the best row. -/
def bestBid (operation : ℤ) (price size : ℚ) : MarketDepths :=
  .marketDepth ⟨0, operation, 1, .finite price, .finite size⟩

/-- A float that is a decimal is read as it is. -/
abbrev exactFloats : DecimalTryFrom := ⟨some⟩

omit [DecimalTryFrom] [Build] in
theorem venueRun_replaced (price : ℚ) :
    VenueRun ⟨[], []⟩ [(bestBid 0 100 10, 0), (bestBid 1 price 15, 1)]
      [⟨[], [⟨100, 10⟩]⟩, ⟨[], [⟨price, 15⟩]⟩] := by
  have hinsert : RowEdit ⟨0, 0, 1, .finite 100, .finite 10⟩ ([] ++ []) ([] ++ ⟨100, 10⟩ :: []) :=
    .insert rfl rfl rfl rfl (by norm_num)
  have hupdate : RowEdit ⟨0, 1, 1, .finite price, .finite 15⟩ ([] ++ ⟨100, 10⟩ :: [])
      ([] ++ ⟨price, 15⟩ :: []) :=
    .update rfl rfl rfl rfl (by norm_num)
  exact .sent (.bids rfl hinsert (List.pairwise_singleton _ _))
    (.sent (.bids rfl hupdate (List.pairwise_singleton _ _)) .done)

omit [DecimalTryFrom] [Build] in
/-- A size put in the place of another at one price is kept. -/
theorem keepsBook_iff_same : ∃ (_ : DecimalTryFrom) (_ : Build),
    KeepsBook new [(bestBid 0 100 10, 0), (bestBid 1 100 15, 1)]
      [⟨[], [⟨100, 10⟩]⟩, ⟨[], [⟨100, 15⟩]⟩] := by
  let _ : DecimalTryFrom := exactFloats
  let _ : Build := ⟨true⟩
  refine ⟨exactFloats, ⟨true⟩, ?_⟩
  apply (keepsBook_iff (venueRun_replaced 100)).2
  have hbid : ∀ size : ℚ, size ≠ 0 → Representable .bids [⟨100, size⟩] := by
    intro size hsize
    refine ⟨[⟨100, size⟩], List.Forall₂.cons rfl List.Forall₂.nil, List.pairwise_singleton _ _, ?_⟩
    intro level hlevel
    rw [List.mem_singleton.1 hlevel]
    exact hsize
  refine ⟨⟨⟨⟨[], mirrors_nil .asks⟩, hbid 10 (by norm_num), ?_⟩,
    ⟨⟨[], mirrors_nil .asks⟩, hbid 15 (by norm_num), ?_⟩, trivial⟩, by simp⟩
  · rintro _ ⟨⟩ hnames
    exact absurd rfl hnames
  · rintro _ ⟨⟩ -
    exact ⟨⟨100, 10⟩, rfl, rfl⟩

omit [DecimalTryFrom] [Build] in
/-- A level put at another price leaves the old one in the book. -/
theorem phantom_level : ¬ ∀ (_ : DecimalTryFrom) (_ : Build)
    (messages : List (MarketDepths × DateTime)) (books : List VenueBook),
    VenueRun ⟨[], []⟩ messages books → KeepsBook new messages books := by
  intro hclaim
  let _ : DecimalTryFrom := exactFloats
  let _ : Build := ⟨true⟩
  have hran : (new.run [(bestBid 0 100 10, 0), (bestBid 1 101 15, 1)]).map Prod.snd =
      .ok [some (.snapshot ⟨1, ⟨none, none, 0⟩, ⟨[⟨100, 10⟩]⟩, ⟨[]⟩⟩),
        some (.snapshot ⟨2, ⟨none, none, 1⟩, ⟨[⟨101, 15⟩, ⟨100, 10⟩]⟩, ⟨[]⟩⟩)] := by
    decide +kernel
  obtain ⟨after, snapshots, hrun, hmirrored, -⟩ :=
    hclaim exactFloats ⟨true⟩ _ _ (venueRun_replaced 101)
  rw [hrun] at hran
  have hran := Except.ok.inj hran
  match snapshots, hmirrored with
  | [first, second], .cons _ (.cons hsecond .nil) =>
    have hlength := hsecond.bids.rows.length_eq
    simp only [List.map_cons, List.map_nil, List.cons.injEq, Option.some.injEq,
      OrderBookEvent.snapshot.injEq, and_true] at hran
    rw [hran.2] at hlength
    cases hlength

end DepthAggregator

end Rustrade.Ibkr
