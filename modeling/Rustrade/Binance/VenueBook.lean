import Mathlib.Data.List.Induction
import Rustrade.Binance.L2
import Rustrade.Lib.Transition

/-!
# The local book is the venue's

The venue numbers the updates of its book, and its messages cover consecutive ranges of them
(`Feed`). A sequencer accepts a message only if its range reaches from no later than the update
after the one the local book stands at (`Follows`), whatever was lost, repeated or overtaken
before; so each accepted message, whose levels are absolute, brings the book to the venue's at the
message's last update. `Mirrors` is that invariant.
-/

set_option autoImplicit false

namespace Rustrade.Binance

/-- The two sides of the venue's book, changed by one numbering of updates. -/
structure VenueBook where
  bids : VersionedMap Decimal Decimal
  asks : VersionedMap Decimal Decimal

/-- The venue's book, and the ranges its messages cover: message `i` the updates after `last i`
up to `last (i + 1)`. -/
structure Feed where
  book : VenueBook
  last : ℕ → ℕ
  last_lt : ∀ i, last i < last (i + 1)

/-- The ids of a stream stay below the last of their type. -/
def InRange (id : UInt64) : Prop := id.toNat < 2 ^ 64 - 1

/-- Each level of the side after update `id`, once. -/
structure IsWhole (map : VersionedMap Decimal Decimal) (id : ℕ) (levels : List BinanceLevel) :
    Prop where
  nodup : (levels.map BinanceLevel.price).Nodup
  mem : ∀ level, level ∈ levels ↔ level.amount = map.version id level.price ∧ level.amount ≠ 0

/-- Once each, the prices the updates `lo` to `hi` changed, with their amounts after `hi`. -/
def IsDiff (map : VersionedMap Decimal Decimal) (lo hi : ℕ) (levels : List BinanceLevel) : Prop :=
  map.IsDiff lo hi (levels.map fun level => (level.price, level.amount))

namespace Feed

variable (feed : Feed)

/-- The whole book after the snapshot's update. -/
structure Snapshots (snapshot : BinanceOrderBookL2Snapshot) : Prop where
  inRange : InRange snapshot.lastUpdateId
  bids : IsWhole feed.book.bids snapshot.lastUpdateId.toNat snapshot.bids
  asks : IsWhole feed.book.asks snapshot.lastUpdateId.toNat snapshot.asks

/-- The ids and the levels are those of message `i`. -/
structure Sends (i : ℕ) (firstUpdateId lastUpdateId : UInt64) (bids asks : List BinanceLevel) :
    Prop where
  inRange : InRange lastUpdateId
  first : firstUpdateId.toNat = feed.last i + 1
  last : lastUpdateId.toNat = feed.last (i + 1)
  bids : IsDiff feed.book.bids firstUpdateId.toNat lastUpdateId.toNat bids
  asks : IsDiff feed.book.asks firstUpdateId.toNat lastUpdateId.toNat asks

/-- A message of the spot stream. -/
def SendsSpot (update : BinanceSpotOrderBookL2Update) : Prop :=
  ∃ i, feed.Sends i update.firstUpdateId update.lastUpdateId update.bids update.asks

/-- A message of the futures stream, which names the last update of the message before it. -/
def SendsFutures (update : BinanceFuturesOrderBookL2Update) : Prop :=
  ∃ i, feed.Sends i update.firstUpdateId update.lastUpdateId update.bids update.asks ∧
    update.prevLastUpdateId.toNat = feed.last i

/-- The book's levels are exactly the venue's after update `id`. -/
structure Mirrors (id : UInt64) (book : OrderBook) : Prop where
  sequence : book.sequence = id
  bids : book.bids.Holds (feed.book.bids.version id.toNat)
  asks : book.asks.Holds (feed.book.asks.version id.toNat)

/-! ## The snapshot and one difference -/

variable {feed}

theorem holds_of_isWhole {side : BookSide} {map : VersionedMap Decimal Decimal} {id : ℕ}
    {levels : List BinanceLevel} (h : IsWhole map id levels) :
    (OrderBookSide.sorted side (levels.map BinanceLevel.level)).Holds (map.version id) := by
  apply OrderBookSide.holds_sorted
  · rw [List.map_map]
    exact h.nodup
  · intro level
    rw [← h.mem ⟨level.price, level.amount⟩, List.mem_map]
    constructor
    · rintro ⟨found, hfound, rfl⟩
      exact hfound
    · intro hlevel
      exact ⟨_, hlevel, rfl⟩

theorem Snapshots.mirrors {snapshot : BinanceOrderBookL2Snapshot} (h : feed.Snapshots snapshot)
    (timeReceived : DateTime) :
    feed.Mirrors snapshot.lastUpdateId (snapshot.event timeReceived) :=
  ⟨rfl, holds_of_isWhole h.bids, holds_of_isWhole h.asks⟩

/-- A side brought from update `at'` to the end of a difference that reaches back to it. The
difference comes sorted, which changes nothing of what it says. -/
theorem holds_upsert {side : BookSide} {map : VersionedMap Decimal Decimal} {at' lo hi : ℕ}
    {book : OrderBookSide side} {levels : List BinanceLevel}
    (h : book.Holds (map.version at')) (hdiff : IsDiff map lo hi levels) (hlo : lo ≤ at' + 1)
    (hhi : at' ≤ hi) :
    (book.upsert (OrderBookSide.sorted side (levels.map BinanceLevel.level)).levels).Holds
      (map.version hi) := by
  have hperm : ((OrderBookSide.sorted side (levels.map BinanceLevel.level)).levels.map
      fun level => (level.price, level.amount)).Perm
        (levels.map fun level => (level.price, level.amount)) := by
    refine ((OrderBookSide.sorted_perm _ _).map _).trans ?_
    rw [List.map_map]
    rfl
  have hsorted : map.IsDiff lo hi ((OrderBookSide.sorted side
      (levels.map BinanceLevel.level)).levels.map fun level => (level.price, level.amount)) := by
    constructor
    · exact ((hperm.map Prod.fst).nodup_iff).2 hdiff.nodup
    · intro key value
      rw [hperm.mem_iff]
      exact hdiff.mem key value
  rw [← hsorted.put_version hlo hhi]
  exact h.upsert _

theorem Mirrors.update {id first last : UInt64} {book : OrderBook} {times : OrderBookTimes}
    {bids asks : List BinanceLevel} {i : ℕ} (h : feed.Mirrors id book)
    (hsends : feed.Sends i first last bids asks) (hlo : first.toNat ≤ id.toNat + 1)
    (hhi : id.toNat ≤ last.toNat) :
    feed.Mirrors last (book.update (.update (.new last times (bids.map BinanceLevel.level)
      (asks.map BinanceLevel.level)))) :=
  ⟨rfl, holds_upsert h.bids hsends.bids hlo hhi, holds_upsert h.asks hsends.asks hlo hhi⟩

end Feed

/-! ## What a sequencer accepts -/

/-- The sequencer keeps to the feed: a message it accepts reaches back to where it stands, which
then is the message's last update. A message it does not accept leaves it as it was. -/
structure L2Stream.Follows (stream : L2Stream) (feed : Feed) (Sends : stream.Update → Prop)
    (lastUpdateId : stream.Sequencer → UInt64) (updateId : stream.Update → UInt64) : Prop where
  new : ∀ id, lastUpdateId (stream.new id) = id
  accepted : ∀ sequencer update, InRange (lastUpdateId sequencer) → Sends update →
    ∀ after validUpdate,
      stream.validateSequence sequencer update = (after, .ok (some validUpdate)) →
      ∃ i first bids asks, feed.Sends i first (lastUpdateId after) bids asks ∧
        first.toNat ≤ (lastUpdateId sequencer).toNat + 1 ∧
        (lastUpdateId sequencer).toNat ≤ (lastUpdateId after).toNat ∧
        lastUpdateId after = updateId update ∧ validUpdate = update ∧
        ∀ timeReceived, ∃ times, stream.event update timeReceived = .update
          (.new (lastUpdateId after) times (bids.map BinanceLevel.level)
            (asks.map BinanceLevel.level))
  passed : ∀ sequencer update after result,
    stream.validateSequence sequencer update = (after, result) →
      (∀ validUpdate, result ≠ .ok (some validUpdate)) → after = sequencer

theorem toNat_succ {id : UInt64} (h : InRange id) : (id + 1).toNat = id.toNat + 1 := by
  have h : id.toNat < 2 ^ 64 - 1 := h
  rw [UInt64.toNat_add]
  show (id.toNat + 1) % 2 ^ 64 = id.toNat + 1
  omega

theorem spot_follows (feed : Feed) :
    spot.Follows feed feed.SendsSpot BinanceSpotOrderBookL2Sequencer.lastUpdateId
      BinanceSpotOrderBookL2Update.lastUpdateId := by
  refine ⟨fun _ => rfl, ?_, ?_⟩
  · intro sequencer update hrange ⟨i, hsends⟩ after validUpdate hvalid
    simp only [spot, BinanceSpotOrderBookL2Sequencer.validateSequence] at hvalid
    split at hvalid
    · cases hvalid
    · rename_i hnew
      have hnew : sequencer.lastUpdateId.toNat < update.lastUpdateId.toNat :=
        UInt64.lt_iff_toNat_lt.1 (UInt64.not_le.1 hnew)
      -- The first message may begin earlier than the next update, a later one begins at it.
      have hreach : (if sequencer.isFirstUpdate = true then sequencer.validateFirstUpdate update
          else sequencer.validateNextUpdate update) = .ok () →
          update.firstUpdateId.toNat ≤ sequencer.lastUpdateId.toNat + 1 := by
        intro hvalidated
        rw [← toNat_succ hrange]
        split at hvalidated
        · unfold BinanceSpotOrderBookL2Sequencer.validateFirstUpdate at hvalidated
          dsimp only at hvalidated
          split at hvalidated
          · rename_i hfirst
            exact UInt64.le_iff_toNat_le.1 hfirst.1
          · cases hvalidated
        · unfold BinanceSpotOrderBookL2Sequencer.validateNextUpdate at hvalidated
          dsimp only at hvalidated
          split at hvalidated
          · rename_i hnext
            rw [hnext]
          · cases hvalidated
      split at hvalid
      · cases hvalid
      · rename_i hvalidated
        cases hvalid
        exact ⟨i, _, _, _, hsends, hreach hvalidated, hnew.le, rfl, rfl, fun _ => ⟨_, rfl⟩⟩
  · intro sequencer update after result hvalid hresult
    simp only [spot, BinanceSpotOrderBookL2Sequencer.validateSequence] at hvalid
    split at hvalid
    · cases hvalid
      rfl
    · split at hvalid
      · cases hvalid
        rfl
      · cases hvalid
        exact absurd rfl (hresult _)

theorem futures_follows (feed : Feed) :
    futuresUsd.Follows feed feed.SendsFutures
      BinanceFuturesUsdOrderBookL2Sequencer.lastUpdateId
      BinanceFuturesOrderBookL2Update.lastUpdateId := by
  refine ⟨fun _ => rfl, ?_, ?_⟩
  · intro sequencer update _ ⟨i, hsends, hprev⟩ after validUpdate hvalid
    simp only [futuresUsd, BinanceFuturesUsdOrderBookL2Sequencer.validateSequence] at hvalid
    split at hvalid
    · cases hvalid
    · rename_i hnew
      have hnew : sequencer.lastUpdateId.toNat ≤ update.lastUpdateId.toNat :=
        UInt64.le_iff_toNat_le.1 (UInt64.not_lt.1 hnew)
      -- The first message begins no later than the snapshot, a later one names where it stands.
      have hreach : (if sequencer.isFirstUpdate = true then sequencer.validateFirstUpdate update
          else sequencer.validateNextUpdate update) = .ok () →
          update.firstUpdateId.toNat ≤ sequencer.lastUpdateId.toNat + 1 := by
        intro hvalidated
        split at hvalidated
        · unfold BinanceFuturesUsdOrderBookL2Sequencer.validateFirstUpdate at hvalidated
          split at hvalidated
          · rename_i hfirst
            exact Nat.le_succ_of_le (UInt64.le_iff_toNat_le.1 hfirst.1)
          · cases hvalidated
        · unfold BinanceFuturesUsdOrderBookL2Sequencer.validateNextUpdate at hvalidated
          split at hvalidated
          · rename_i hnext
            rw [hsends.first, ← hprev, hnext]
          · cases hvalidated
      split at hvalid
      · cases hvalid
      · rename_i hvalidated
        cases hvalid
        exact ⟨i, _, _, _, hsends, hreach hvalidated, hnew, rfl, rfl, fun _ => ⟨_, rfl⟩⟩
  · intro sequencer update after result hvalid hresult
    simp only [futuresUsd, BinanceFuturesUsdOrderBookL2Sequencer.validateSequence] at hvalid
    split at hvalid
    · cases hvalid
      rfl
    · split at hvalid
      · cases hvalid
        rfl
      · cases hvalid
        exact absurd rfl (hresult _)

/-! ## Runs -/

namespace L2Stream

variable {stream : L2Stream} {feed : Feed} {Sends : stream.Update → Prop}
  {lastUpdateId : stream.Sequencer → UInt64} {updateId : stream.Update → UInt64}

/-- The state after the messages `handed`, from the snapshot on. -/
def LocalBook.after (snapshot : BinanceOrderBookL2Snapshot) (timeReceived : DateTime)
    (handed : List (DateTime × stream.Update)) : stream.LocalBook :=
  Transition.run LocalBook.receive (.init snapshot timeReceived) handed

/-- A message that is not accepted leaves the sequencer and the book as they were. -/
theorem Follows.receive_of_not_accepts (h : stream.Follows feed Sends lastUpdateId updateId)
    {state : stream.LocalBook} {delivery : DateTime × stream.Update}
    (hnot : ¬state.accepts delivery.2) : state.receive delivery = state := by
  unfold LocalBook.receive transform
  cases hvalid : stream.validateSequence state.sequencer delivery.2 with
  | mk after result =>
    have hafter := h.passed _ _ _ _ hvalid fun validUpdate hresult =>
      hnot ⟨validUpdate, by rw [hvalid]; exact hresult⟩
    subst hafter
    match result with
    | .ok (some validUpdate) => exact absurd ⟨validUpdate, by rw [hvalid]⟩ hnot
    | .ok none => rfl
    | .error error => rfl

/-- The book is the venue's where the sequencer stands. -/
structure LocalBook.Tracks (feed : Feed) (lastUpdateId : stream.Sequencer → UInt64)
    (state : stream.LocalBook) : Prop where
  inRange : InRange (lastUpdateId state.sequencer)
  mirrors : feed.Mirrors (lastUpdateId state.sequencer) state.book

theorem Follows.tracks_receive_of_accepts (h : stream.Follows feed Sends lastUpdateId updateId)
    {state : stream.LocalBook} {delivery : DateTime × stream.Update}
    (htracks : state.Tracks feed lastUpdateId) (hsends : Sends delivery.2)
    (haccepts : state.accepts delivery.2) :
    (state.receive delivery).Tracks feed lastUpdateId ∧
      lastUpdateId (state.receive delivery).sequencer = updateId delivery.2 := by
  obtain ⟨validUpdate, hresult⟩ := haccepts
  cases hvalid : stream.validateSequence state.sequencer delivery.2 with
  | mk after result =>
    rw [hvalid] at hresult
    have hresult : result = .ok (some validUpdate) := hresult
    subst hresult
    obtain ⟨i, first, bids, asks, hfeed, hlo, hhi, hstands, rfl, hevent⟩ :=
      h.accepted _ _ htracks.inRange hsends _ _ hvalid
    obtain ⟨times, hevent⟩ := hevent delivery.1
    have hreceive : state.receive delivery =
        ⟨after, state.book.update (stream.event delivery.2 delivery.1)⟩ := by
      unfold LocalBook.receive transform
      rw [hvalid]
      rfl
    rw [hreceive, hevent]
    exact ⟨⟨hfeed.inRange, htracks.mirrors.update hfeed hlo hhi⟩, hstands⟩

theorem Follows.tracks_receive (h : stream.Follows feed Sends lastUpdateId updateId)
    {state : stream.LocalBook} {delivery : DateTime × stream.Update}
    (htracks : state.Tracks feed lastUpdateId) (hsends : Sends delivery.2) :
    (state.receive delivery).Tracks feed lastUpdateId := by
  by_cases haccepts : state.accepts delivery.2
  · exact (h.tracks_receive_of_accepts htracks hsends haccepts).1
  · rwa [h.receive_of_not_accepts haccepts]

theorem Follows.tracks_after (h : stream.Follows feed Sends lastUpdateId updateId)
    {snapshot : BinanceOrderBookL2Snapshot} (hsnapshot : feed.Snapshots snapshot)
    (timeReceived : DateTime) {handed : List (DateTime × stream.Update)}
    (hhanded : ∀ delivery ∈ handed, Sends delivery.2) :
    (LocalBook.after snapshot timeReceived handed).Tracks feed lastUpdateId := by
  induction handed using List.reverseRecOn with
  | nil =>
    have hstands : lastUpdateId (stream.new snapshot.lastUpdateId) = snapshot.lastUpdateId :=
      h.new _
    refine ⟨?_, ?_⟩
    · show InRange (lastUpdateId (stream.new snapshot.lastUpdateId))
      rw [hstands]
      exact hsnapshot.inRange
    · show feed.Mirrors (lastUpdateId (stream.new snapshot.lastUpdateId)) _
      rw [hstands]
      exact hsnapshot.mirrors timeReceived
  | append_singleton handed delivery ih =>
    unfold LocalBook.after
    rw [Transition.run_concat]
    apply h.tracks_receive
    · exact ih fun earlier hearlier => hhanded earlier (List.mem_append_left _ hearlier)
    · exact hhanded delivery (List.mem_append_right _ (List.mem_singleton_self _))

/-- One more message: applied it brings the book to the venue's at its last update, else nothing
changes. -/
theorem Follows.receive_after (h : stream.Follows feed Sends lastUpdateId updateId)
    {snapshot : BinanceOrderBookL2Snapshot} (hsnapshot : feed.Snapshots snapshot)
    (timeReceived : DateTime) {handed : List (DateTime × stream.Update)}
    (hhanded : ∀ delivery ∈ handed, Sends delivery.2) {delivery : DateTime × stream.Update}
    (hsends : Sends delivery.2) :
    let before := LocalBook.after snapshot timeReceived handed
    (before.accepts delivery.2 →
      feed.Mirrors (updateId delivery.2) (before.receive delivery).book) ∧
    (¬before.accepts delivery.2 → before.receive delivery = before) := by
  intro before
  constructor
  · intro haccepts
    have hbefore := h.tracks_after hsnapshot timeReceived hhanded
    obtain ⟨htracks, hstands⟩ := h.tracks_receive_of_accepts hbefore hsends haccepts
    rw [← hstands]
    exact htracks.mirrors
  · exact h.receive_of_not_accepts

end L2Stream

/-- After each message the sequencer accepts, the local book holds exactly the venue's levels at
the message's last update, sorted and with no zero amount; a message it drops or rejects changes
neither the sequencer nor the book. So it is on both markets, for messages handed over in any
order, with any lost and any repeated. -/
theorem local_book_is_venue_book (feed : Feed) (snapshot : BinanceOrderBookL2Snapshot)
    (hsnapshot : feed.Snapshots snapshot) (timeReceived : DateTime) :
    (∀ (handed : List (DateTime × spot.Update)) (delivery : DateTime × spot.Update),
      (∀ earlier ∈ handed, feed.SendsSpot earlier.2) → feed.SendsSpot delivery.2 →
      let before := L2Stream.LocalBook.after snapshot timeReceived handed
      (before.accepts delivery.2 →
        feed.Mirrors delivery.2.lastUpdateId (before.receive delivery).book) ∧
      (¬before.accepts delivery.2 → before.receive delivery = before)) ∧
    ∀ (handed : List (DateTime × futuresUsd.Update)) (delivery : DateTime × futuresUsd.Update),
      (∀ earlier ∈ handed, feed.SendsFutures earlier.2) → feed.SendsFutures delivery.2 →
      let before := L2Stream.LocalBook.after snapshot timeReceived handed
      (before.accepts delivery.2 →
        feed.Mirrors delivery.2.lastUpdateId (before.receive delivery).book) ∧
      (¬before.accepts delivery.2 → before.receive delivery = before) := by
  constructor
  · intro handed delivery hhanded hsends
    exact (spot_follows feed).receive_after hsnapshot timeReceived hhanded hsends
  · intro handed delivery hhanded hsends
    exact (futures_follows feed).receive_after hsnapshot timeReceived hhanded hsends

/-- A venue whose every update sets its one bid to the update's number. -/
def risingBid : Feed where
  book :=
    { bids := { start := fun _ => 0, change := fun n price => if price = 100 then some n else none }
      asks := { start := fun _ => 0, change := fun _ _ => none } }
  last := id
  last_lt := Nat.lt_succ_self

def risingBid.levels (n : ℕ) : List BinanceLevel := [⟨100, n⟩]

theorem risingBid_bids (n : ℕ) (price : Decimal) :
    risingBid.book.bids.version n price = if price = 100 then (n : Decimal) else 0 := by
  induction n with
  | zero => simp [VersionedMap.version, risingBid]
  | succ n ih =>
    rw [VersionedMap.version, ih]
    show (if price = 100 then some ((n + 1 : ℕ) : Decimal) else none).getD _ = _
    split <;> rfl

theorem risingBid_asks (n : ℕ) (price : Decimal) : risingBid.book.asks.version n price = 0 := by
  induction n with
  | zero => rfl
  | succ n ih => exact ih

theorem risingBid_sends (n : ℕ) (id : UInt64) (hid : id.toNat = n + 1) (hrange : InRange id) :
    risingBid.Sends n id id (risingBid.levels id.toNat) [] := by
  refine ⟨hrange, hid, hid, ⟨List.nodup_singleton _, ?_⟩, ⟨List.nodup_nil, ?_⟩⟩
  · intro price amount
    rw [risingBid_bids]
    constructor
    · intro hlevel
      obtain ⟨rfl, rfl⟩ : price = 100 ∧ amount = (id.toNat : Decimal) := by
        simpa [risingBid.levels] using hlevel
      exact ⟨⟨_, le_rfl, le_rfl, rfl⟩, (if_pos rfl).symm⟩
    · rintro ⟨⟨k, -, -, hsome⟩, hamount⟩
      have hprice : price = 100 := by
        by_contra hne
        simp [risingBid, hne] at hsome
      rw [if_pos hprice] at hamount
      simp [risingBid.levels, hprice, hamount]
  · intro price amount
    constructor
    · intro hlevel
      cases hlevel
    · rintro ⟨⟨k, -, -, hsome⟩, -⟩
      cases hsome

theorem risingBid_snapshots (id : UInt64) (hid : id ≠ 0) (hrange : InRange id) :
    risingBid.Snapshots ⟨id, none, none, risingBid.levels id.toNat, []⟩ := by
  have hpos : (id.toNat : Decimal) ≠ 0 := by
    intro hzero
    exact hid (UInt64.toNat_inj.1 (Nat.cast_eq_zero.1 hzero))
  refine ⟨hrange, ⟨List.nodup_singleton _, ?_⟩, ⟨List.nodup_nil, ?_⟩⟩
  · rintro ⟨price, amount⟩
    rw [risingBid_bids]
    constructor
    · intro hlevel
      obtain ⟨rfl, rfl⟩ : price = 100 ∧ amount = (id.toNat : Decimal) := by
        simpa [risingBid.levels] using hlevel
      exact ⟨(if_pos rfl).symm, hpos⟩
    · rintro ⟨hamount, hzero⟩
      have hprice : price = 100 := by
        by_contra hne
        rw [if_neg hne] at hamount
        exact hzero hamount
      rw [if_pos hprice] at hamount
      dsimp only at hamount
      simp [risingBid.levels, hprice, hamount]
  · rintro ⟨price, amount⟩
    rw [risingBid_asks]
    constructor
    · intro hlevel
      cases hlevel
    · rintro ⟨hamount, hzero⟩
      exact absurd hamount hzero

/-- After a snapshot at 1 and the spot message for 2, the one for 3; and on futures the message
that reaches the snapshot, then the one for 2. -/
theorem rising_bid_followed :
    risingBid.Mirrors 3
      (((L2Stream.LocalBook.after ⟨1, none, none, risingBid.levels 1, []⟩ 0
        [(0, ⟨0, 2, 2, risingBid.levels 2, []⟩)] : spot.LocalBook)).receive
          (0, ⟨0, 3, 3, risingBid.levels 3, []⟩)).book ∧
    risingBid.Mirrors 2
      (((L2Stream.LocalBook.after ⟨1, none, none, risingBid.levels 1, []⟩ 0
        [(0, ⟨0, 0, 1, 1, 0, risingBid.levels 1, []⟩)] : futuresUsd.LocalBook)).receive
          (0, ⟨0, 0, 2, 2, 1, risingBid.levels 2, []⟩)).book := by
  have hfollowed := local_book_is_venue_book risingBid ⟨1, none, none, risingBid.levels 1, []⟩
    (risingBid_snapshots 1 (by decide) (by unfold InRange; decide)) 0
  constructor
  · refine (hfollowed.1 [(0, ⟨0, 2, 2, risingBid.levels 2, []⟩)]
      (0, ⟨0, 3, 3, risingBid.levels 3, []⟩) ?_ ?_).1 ⟨_, rfl⟩
    · intro earlier hearlier
      rw [List.mem_singleton] at hearlier
      subst hearlier
      exact ⟨1, risingBid_sends 1 2 rfl (by unfold InRange; decide)⟩
    · exact ⟨2, risingBid_sends 2 3 rfl (by unfold InRange; decide)⟩
  · refine (hfollowed.2 [(0, ⟨0, 0, 1, 1, 0, risingBid.levels 1, []⟩)]
      (0, ⟨0, 0, 2, 2, 1, risingBid.levels 2, []⟩) ?_ ?_).1 ⟨_, rfl⟩
    · intro earlier hearlier
      rw [List.mem_singleton] at hearlier
      subst hearlier
      exact ⟨0, risingBid_sends 0 1 rfl (by unfold InRange; decide), rfl⟩
    · exact ⟨1, risingBid_sends 1 2 rfl (by unfold InRange; decide), rfl⟩

/-! ## The next message is accepted -/

/-- A spot message that begins where the sequencer stands is never refused. -/
theorem spot_accepts_next {state : spot.LocalBook} {update : BinanceSpotOrderBookL2Update}
    (hrange : InRange state.sequencer.lastUpdateId)
    (hfirst : update.firstUpdateId = state.sequencer.lastUpdateId + 1)
    (hlast : update.firstUpdateId ≤ update.lastUpdateId) : state.accepts update := by
  have hnew : ¬update.lastUpdateId ≤ state.sequencer.lastUpdateId := by
    rw [UInt64.not_le, UInt64.lt_iff_toNat_lt]
    have hle := UInt64.le_iff_toNat_le.1 hlast
    rw [hfirst, toNat_succ hrange] at hle
    exact hle
  have hvalidated : (if state.sequencer.isFirstUpdate = true
      then state.sequencer.validateFirstUpdate update
      else state.sequencer.validateNextUpdate update) = .ok () := by
    split
    · unfold BinanceSpotOrderBookL2Sequencer.validateFirstUpdate
      exact if_pos ⟨UInt64.le_of_eq hfirst, by rw [← hfirst]; exact hlast⟩
    · unfold BinanceSpotOrderBookL2Sequencer.validateNextUpdate
      exact if_pos hfirst
  refine ⟨update, ?_⟩
  show (BinanceSpotOrderBookL2Sequencer.validateSequence _ _).2 = _
  unfold BinanceSpotOrderBookL2Sequencer.validateSequence
  rw [if_neg hnew, hvalidated]
  rfl

/-- A futures message that names where a started sequencer stands is never refused. -/
theorem futures_accepts_next {state : futuresUsd.LocalBook}
    {update : BinanceFuturesOrderBookL2Update}
    (hstarted : state.sequencer.isFirstUpdate = false)
    (hprev : update.prevLastUpdateId = state.sequencer.lastUpdateId)
    (hlast : update.prevLastUpdateId ≤ update.lastUpdateId) : state.accepts update := by
  have hnew : ¬update.lastUpdateId < state.sequencer.lastUpdateId := by
    rw [UInt64.not_lt, ← hprev]
    exact hlast
  refine ⟨update, ?_⟩
  show (BinanceFuturesUsdOrderBookL2Sequencer.validateSequence _ _).2 = _
  unfold BinanceFuturesUsdOrderBookL2Sequencer.validateSequence
    BinanceFuturesUsdOrderBookL2Sequencer.validateNextUpdate
  rw [if_neg hnew, hstarted, if_neg Bool.false_ne_true, if_pos hprev]
  rfl

end Rustrade.Binance
