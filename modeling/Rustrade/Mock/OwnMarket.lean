import Rustrade.Mock.Worth

/-!
# An order's own market in a valuation

An order is valued with the market it is priced from, which stands in for an instrument the venue
holds no market for. Where that market is the venue's own of the order's instrument, it values what
the venue's markets do, unless it stands in ahead of another instrument of the pair.
-/

set_option autoImplicit false

namespace List

variable {α β : Type} {l : List α} {f g : α → Option β} {r : α → α → Prop} {c : α} {x : β}

theorem findSome?_congr_mem (h : ∀ a ∈ l, f a = g a) : l.findSome? f = l.findSome? g := by
  induction l with
  | nil => rfl
  | cons a rest ih =>
    rw [List.findSome?_cons, List.findSome?_cons, h a List.mem_cons_self,
      ih fun b hb => h b (List.mem_cons_of_mem _ hb)]

/-- The first that gives something is the one none before it gives anything. -/
theorem findSome?_eq_of_first (hl : l.Pairwise r) (hc : c ∈ l) (hx : g c = some x)
    (h : ∀ b ∈ l, r b c → g b = none) : l.findSome? g = some x := by
  induction l with
  | nil => cases hc
  | cons b rest ih =>
    rw [List.findSome?_cons]
    rcases List.mem_cons.1 hc with rfl | hrest
    · rw [hx]
    · have hbefore : r b c := List.rel_of_pairwise_cons hl hrest
      rw [h b List.mem_cons_self hbefore]
      exact ih hl.of_cons hrest fun b hb => h b (List.mem_cons_of_mem _ hb)

/-- Two searches agree where the first gives more only what the second finds at `c`, and where the
    second finds nothing between. -/
theorem findSome?_eq_of_stand (hl : l.Pairwise r) (hc : c ∈ l)
    (h : ∀ a ∈ l, f a = g a ∨ g a = none ∧ f a = g c)
    (hbetween : ∀ a ∈ l, f a ≠ g a → ∀ b ∈ l, r a b → r b c → g b = none) :
    l.findSome? f = l.findSome? g := by
  induction l with
  | nil => rfl
  | cons a rest ih =>
    rw [List.findSome?_cons, List.findSome?_cons]
    have hrest := fun b (hb : b ∈ rest) => h b (List.mem_cons_of_mem _ hb)
    by_cases hsame : f a = g a
    · rw [hsame]
      cases hfound : g a with
      | some x => rfl
      | none =>
        rcases List.mem_cons.1 hc with rfl | hc
        · -- Nothing is found at `c`, so the searches agree everywhere.
          have hall : ∀ b ∈ rest, f b = g b := by
            intro b hb
            rcases hrest b hb with hsame | ⟨hnone, hstand⟩
            · exact hsame
            · rw [hnone, hstand, hfound]
          exact findSome?_congr_mem hall
        · exact ih hl.of_cons hc hrest fun a ha hne b hb =>
            hbetween a (List.mem_cons_of_mem _ ha) hne b (List.mem_cons_of_mem _ hb)
    · rcases h a List.mem_cons_self with hagree | ⟨hnone, hstand⟩
      · exact absurd hagree hsame
      have hlater : c ∈ rest := by
        rcases List.mem_cons.1 hc with rfl | hc
        · exact absurd hstand hsame
        · exact hc
      rw [hstand, hnone]
      cases hfound : g c with
      | none => exact absurd (hstand.trans (hfound.trans hnone.symm)) hsame
      | some x =>
        symm
        apply findSome?_eq_of_first hl.of_cons hlater hfound
        intro b hb hbefore
        exact hbetween a List.mem_cons_self hsame b (List.mem_cons_of_mem _ hb)
          (List.rel_of_pairwise_cons hl hb) hbefore

/-- Two searches that agree up to where both find something agree. -/
theorem findSome?_eq_of_upto (hl : l.Pairwise r) (hc : c ∈ l) (hsome : (g c).isSome = true)
    (h : ∀ a ∈ l, a = c ∨ r a c → f a = g a) : l.findSome? f = l.findSome? g := by
  induction l with
  | nil => cases hc
  | cons a rest ih =>
    rw [List.findSome?_cons, List.findSome?_cons]
    rcases List.mem_cons.1 hc with rfl | hrest
    · rw [h c List.mem_cons_self (.inl rfl)]
      obtain ⟨x, hx⟩ := Option.isSome_iff_exists.1 hsome
      rw [hx]
    · rw [h a List.mem_cons_self (.inr (List.rel_of_pairwise_cons hl hrest)),
        ih hl.of_cons hrest fun b hb => h b (List.mem_cons_of_mem _ hb)]

end List

namespace Rustrade.Mock

namespace SimulatedVenue

variable {self : SimulatedVenue} {config : SpotMarginConfig} {asset valuation : AssetNameExchange}
  {instrument : InstrumentNameExchange} {terms : InstrumentTerms} {market : Option MarketSnapshot}

/-- A market that prices a pair: its middle or last price is positive. -/
def Pricing (market : Option VenueInstrumentMarket) : Prop :=
  ∃ seen price, market = some seen ∧ midOrLast seen.snapshot = some price ∧ 0 < price

/-- What an order is priced from is the venue's own market of its instrument, if it prices. -/
structure Own (venue : SimulatedVenue) (instrument : InstrumentNameExchange)
    (terms : InstrumentTerms) (snapshot : MarketSnapshot) : Prop where
  terms : venue.instrumentTerms instrument = .ok terms
  market : ∀ price, midOrLast snapshot = some price →
    ∃ seen, venue.market[instrument]? = some seen ∧ seen.snapshot = snapshot

/-- An order's own market values a pair ahead of the venue's: an instrument of its base and quote
    that is first by name holds no market, and another between the two assets, before the order's
    by name, has a price. -/
def Shadowed (self : SimulatedVenue) (instrument : InstrumentNameExchange)
    (terms : InstrumentTerms) : Prop :=
  ∃ (first second : InstrumentNameExchange) (unseen other : VenueInstrument),
    self.instruments[first]? = some unseen ∧ unseen.kind = .spot ∧
    unseen.underlying = terms.underlying ∧ self.market[first]? = none ∧
    self.instruments[second]? = some other ∧ other.kind = .spot ∧
    (other.underlying = terms.underlying ∨
      other.underlying = ⟨terms.underlying.quote, terms.underlying.base⟩) ∧
    Pricing self.market[second]? ∧ first < second ∧ second < instrument

/-! ## The instruments between two assets -/

theorem mem_between {instruments : BTreeMap InstrumentNameExchange VenueInstrument}
    {pair : SpotPair} :
    pair ∈ SpotPairs.between instruments asset valuation ↔
      ∃ data, instruments[pair.instrument]? = some data ∧ data.kind = .spot ∧
        data.underlying.base ≠ data.underlying.quote ∧
        if pair.inverse then data.underlying = ⟨valuation, asset⟩
        else data.underlying = ⟨asset, valuation⟩ := by
  unfold SpotPairs.between
  rw [List.mem_filterMap]
  constructor
  · rintro ⟨⟨name, data⟩, hmem, hpair⟩
    have hdata := BTreeMap.mem_toList.1 hmem
    dsimp only at hpair
    split at hpair
    · rename_i hspot
      split at hpair
      · rename_i hforward
        cases hpair
        refine ⟨data, hdata, hspot.1, hspot.2, ?_⟩
        simp [← hforward.1, ← hforward.2]
      · split at hpair
        · rename_i hinverse
          cases hpair
          refine ⟨data, hdata, hspot.1, hspot.2, ?_⟩
          simp [← hinverse.1, ← hinverse.2]
        · cases hpair
    · cases hpair
  · rintro ⟨data, hdata, hspot, hne, hunderlying⟩
    refine ⟨(pair.instrument, data), BTreeMap.mem_toList.2 hdata, ?_⟩
    obtain ⟨name, inverse⟩ := pair
    cases inverse with
    | false =>
      simp only [Bool.false_eq_true, if_false] at hunderlying
      rw [hunderlying] at hne ⊢
      simp [hspot, hne]
    | true =>
      simp only [if_true] at hunderlying
      rw [hunderlying] at hne ⊢
      simp [hspot, hne]

/-- The instruments between two assets stand by name. -/
theorem pairwise_between {instruments : BTreeMap InstrumentNameExchange VenueInstrument} :
    (SpotPairs.between instruments asset valuation).Pairwise fun a b =>
      a.instrument < b.instrument := by
  unfold SpotPairs.between
  rw [List.pairwise_filterMap]
  apply BTreeMap.keys_pairwise.imp
  rintro ⟨name, data⟩ ⟨name', data'⟩ hlt pair hpair pair' hpair'
  have hnamed : ∀ (n : InstrumentNameExchange) (d : VenueInstrument) (p : SpotPair),
      (if d.kind = .spot ∧ d.underlying.base ≠ d.underlying.quote then
        if d.underlying.base = asset ∧ d.underlying.quote = valuation then some ⟨n, false⟩
        else if d.underlying.quote = asset ∧ d.underlying.base = valuation then
          some (⟨n, true⟩ : SpotPair)
        else none
      else none) = some p → p.instrument = n := by
    intro n d p hp
    split at hp
    · split at hp
      · cases hp
        rfl
      · split at hp
        · cases hp
          rfl
        · cases hp
    · cases hp
  rw [hnamed name data pair hpair, hnamed name' data' pair' hpair']
  exact hlt

/-! ## What an order's own market values -/

/-- The market a pair is priced from: the venue's, or else the order's where its assets match. -/
def seenFor (self : SimulatedVenue) (asset valuation : AssetNameExchange) (priced : Priced)
    (pair : SpotPair) : Option MarketSnapshot :=
  match self.market[pair.instrument]? with
  | some market => some market.snapshot
  | none => priced.bind fun (underlying, snapshot) =>
      let (base, quote) := if pair.inverse then (valuation, asset) else (asset, valuation)
      if underlying.base = base ∧ underlying.quote = quote then some snapshot else none

/-- What a pair prices its first asset at, if it prices it. -/
def paired (inverse : Bool) (seen : Option MarketSnapshot) : Option Decimal :=
  (seen.bind midOrLast).bind fun price =>
    if price ≤ 0 then none else some (if inverse then 1 / price else price)

theorem instrumentTerms_spot (h : self.instrumentTerms instrument = .ok terms)
    (hspot : terms.cashSettled = false) :
    ∃ data, self.instruments[instrument]? = some data ∧ data.kind = .spot ∧
      data.underlying = terms.underlying := by
  unfold instrumentTerms settlementOfSupportedKind at h
  cases hdata : self.instruments[instrument]? with
  | none => simp [hdata] at h
  | some data =>
    rw [hdata] at h
    dsimp only at h
    obtain ⟨settled, hsettled, h⟩ := Except.bind_eq_ok.1 h
    cases Except.pure_eq_ok.1 h
    refine ⟨data, rfl, ?_, rfl⟩
    have hspot : settled = false := hspot
    cases hkind : data.kind <;> rw [hkind] at hsettled <;> cases hsettled
    cases hspot

/-- What the assets of `terms` are, seen from a pair's side. -/
def Sided (terms : InstrumentTerms) (asset valuation : AssetNameExchange) (inverse : Bool) : Prop :=
  terms.underlying = if inverse then ⟨valuation, asset⟩ else ⟨asset, valuation⟩

instance {inverse : Bool} : Decidable (Sided terms asset valuation inverse) :=
  inferInstanceAs (Decidable (_ = _))

/-- Two distinct assets are seen from one side only. -/
theorem Sided.unique {inverse other : Bool} (hne : asset ≠ valuation)
    (h : Sided terms asset valuation inverse) (hother : Sided terms asset valuation other) :
    other = inverse := by
  unfold Sided at h hother
  rw [h] at hother
  cases inverse <;> cases other <;>
    simp only [Bool.false_eq_true, if_false, if_true, Underlying.mk.injEq] at hother ⊢
  · exact absurd hother.1 hne
  · exact absurd hother.2 hne

variable {snapshot : MarketSnapshot} {pair : SpotPair}

/-- A pair the venue holds a market for, or that the order's is not of, is seen alike. -/
theorem seenFor_eq (h : self.market[pair.instrument]? ≠ none ∨
    ¬ Sided terms asset valuation pair.inverse) :
    self.seenFor asset valuation (some (terms.underlying, snapshot)) pair =
      self.seenFor asset valuation none pair := by
  unfold seenFor
  cases hmarket : self.market[pair.instrument]? with
  | some market => rfl
  | none =>
    rcases h with hsome | hother
    · exact absurd hmarket hsome
    · unfold Sided at hother
      simp only [Option.bind_some, Option.bind_none]
      cases hinverse : pair.inverse <;> rw [hinverse] at hother <;>
        simp only [Bool.false_eq_true, if_false, if_true] at hother ⊢ <;>
        · rw [if_neg]
          rintro ⟨hbase, hquote⟩
          exact hother (by rw [← hbase, ← hquote])

/-- For any other pair the order's market stands in. -/
theorem seenFor_stands (hnone : self.market[pair.instrument]? = none)
    (hsided : Sided terms asset valuation pair.inverse) :
    self.seenFor asset valuation (some (terms.underlying, snapshot)) pair = some snapshot ∧
      self.seenFor asset valuation none pair = none := by
  unfold Sided at hsided
  unfold seenFor
  rw [hnone, hsided]
  cases pair.inverse <;> simp

theorem seenFor_cases (self : SimulatedVenue) (asset valuation : AssetNameExchange)
    (terms : InstrumentTerms) (snapshot : MarketSnapshot) (pair : SpotPair) :
    self.seenFor asset valuation (some (terms.underlying, snapshot)) pair =
        self.seenFor asset valuation none pair ∨
      self.market[pair.instrument]? = none ∧ Sided terms asset valuation pair.inverse ∧
        self.seenFor asset valuation (some (terms.underlying, snapshot)) pair = some snapshot ∧
        self.seenFor asset valuation none pair = none := by
  by_cases hpair : self.market[pair.instrument]? ≠ none ∨
      ¬ Sided terms asset valuation pair.inverse
  · exact .inl (seenFor_eq hpair)
  · obtain ⟨hnone, hsided⟩ := not_or.1 hpair
    rw [not_not] at hnone hsided
    exact .inr ⟨hnone, hsided, seenFor_stands hnone hsided⟩

/-- What a pair prices its first asset at, at the prices asked for. -/
def pairedAt (self : SimulatedVenue) (extreme : Option (Extreme × DateTime)) (pair : SpotPair)
    (seen : Option MarketSnapshot) : Option Decimal :=
  (seen.bind midOrLast).bind fun price =>
    if price ≤ 0 then none
    else
      let price := windowedPrice price self.borrowPrices[pair.instrument]? pair.inverse extreme
      some (if pair.inverse then 1 / price else price)

theorem priceOf_eq {priced : Priced} {prices : Prices} {owes : Bool} (hne : asset ≠ valuation) :
    self.priceOf asset valuation priced prices owes =
      (SpotPairs.between self.instruments asset valuation).findSome? fun pair =>
        self.pairedAt (prices.extreme asset owes) pair
          (self.seenFor asset valuation priced pair) := by
  unfold priceOf
  rw [if_neg hne]
  rfl

theorem pairedAt_current {owes : Bool} {seen : Option MarketSnapshot} :
    self.pairedAt (Prices.current.extreme asset owes) pair seen = paired pair.inverse seen := rfl

/-- A pair that prices by the venue's markets prices by its own. -/
theorem pricing_of_paired {owes : Bool}
    (h : self.pairedAt (Prices.current.extreme asset owes) pair
      (self.seenFor asset valuation none pair) ≠ none) :
    Pricing self.market[pair.instrument]? := by
  rw [pairedAt_current] at h
  unfold seenFor paired at h
  cases hmarket : self.market[pair.instrument]? with
  | none =>
    rw [hmarket] at h
    exact absurd rfl h
  | some held =>
    rw [hmarket, Option.bind_some] at h
    cases hmid : midOrLast held.snapshot with
    | none =>
      rw [hmid] at h
      exact absurd rfl h
    | some price =>
      rw [hmid, Option.bind_some] at h
      by_cases hle : price ≤ 0
      · rw [if_pos hle] at h
        exact absurd rfl h
      · exact ⟨held, price, rfl, hmid, not_le.1 hle⟩

/-- A snapshot that prices, prices a pair. -/
theorem pairedAt_isSome {extreme : Option (Extreme × DateTime)} {price : Decimal}
    (hmid : midOrLast snapshot = some price) (hpos : 0 < price) :
    (self.pairedAt extreme pair (some snapshot)).isSome = true := by
  unfold pairedAt
  rw [Option.bind_some, hmid, Option.bind_some, if_neg (not_le.2 hpos)]
  rfl

theorem pairedAt_none {extreme : Option (Extreme × DateTime)}
    (h : ¬ ∃ price, midOrLast snapshot = some price ∧ 0 < price) :
    self.pairedAt extreme pair (some snapshot) = none := by
  unfold pairedAt
  rw [Option.bind_some]
  cases hmid : midOrLast snapshot with
  | none => rfl
  | some price =>
    have hle : price ≤ 0 := not_lt.1 fun hpos => h ⟨price, hmid, hpos⟩
    rw [Option.bind_some, if_pos hle]

/-- A snapshot that does not price stands in for nothing. -/
theorem priceOf_unpriced {prices : Prices} {owes : Bool}
    (h : ¬ ∃ price, midOrLast snapshot = some price ∧ 0 < price) :
    self.priceOf asset valuation (some (terms.underlying, snapshot)) prices owes =
      self.priceOf asset valuation none prices owes := by
  by_cases hne : asset = valuation
  · unfold priceOf
    rw [if_pos hne, if_pos hne]
  rw [priceOf_eq hne, priceOf_eq hne]
  apply List.findSome?_congr_mem
  intro pair _
  rcases self.seenFor_cases asset valuation terms snapshot pair with
    hsame | ⟨-, -, hstands, hnot⟩
  · rw [hsame]
  · rw [hstands, hnot, pairedAt_none h]
    rfl

/-- The order's instrument among those between its assets. -/
theorem mem_own {inverse : Bool} (hterms : self.instrumentTerms instrument = .ok terms)
    (hspot : terms.cashSettled = false) (hne : asset ≠ valuation)
    (hsided : Sided terms asset valuation inverse) :
    (⟨instrument, inverse⟩ : SpotPair) ∈ SpotPairs.between self.instruments asset valuation := by
  obtain ⟨data, hdata, hkind, hunderlying⟩ := instrumentTerms_spot hterms hspot
  unfold Sided at hsided
  rw [mem_between]
  refine ⟨data, hdata, hkind, ?_, ?_⟩
  · rw [hunderlying, hsided]
    cases inverse
    · exact hne
    · exact Ne.symm hne
  · rw [hunderlying, hsided]
    cases inverse <;> rfl

/-- An unseen pair of the order's assets, of the order's side. -/
theorem underlying_of_sided (hpair : pair ∈ SpotPairs.between self.instruments asset valuation)
    (hsided : Sided terms asset valuation pair.inverse) :
    ∃ unseen, self.instruments[pair.instrument]? = some unseen ∧ unseen.kind = .spot ∧
      unseen.underlying = terms.underlying := by
  obtain ⟨unseen, hunseen, hspot, -, hassets⟩ := mem_between.1 hpair
  refine ⟨unseen, hunseen, hspot, ?_⟩
  unfold Sided at hsided
  rw [hsided]
  cases hinverse : pair.inverse <;> rw [hinverse] at hassets <;> exact hassets

/-- An order's own market values what the venue's markets value alone, unless it stands in ahead of
    another of the pair. -/
theorem priceOf_own {owes : Bool} (hown : self.Own instrument terms snapshot)
    (hspot : terms.cashSettled = false) (hshadowed : ¬ self.Shadowed instrument terms) :
    self.priceOf asset valuation (some (terms.underlying, snapshot)) .current owes =
      self.priceOf asset valuation none .current owes := by
  by_cases hprice : ∃ price, midOrLast snapshot = some price ∧ 0 < price
  swap
  · exact priceOf_unpriced hprice
  obtain ⟨price, hmid, hpos⟩ := hprice
  obtain ⟨seen, hmarket, hsnapshot⟩ := hown.market price hmid
  by_cases hne : asset = valuation
  · unfold priceOf
    rw [if_pos hne, if_pos hne]
  rw [priceOf_eq hne, priceOf_eq hne]
  by_cases hassets : ∃ inverse, Sided terms asset valuation inverse
  swap
  · apply List.findSome?_congr_mem
    intro pair _
    rw [seenFor_eq (.inr fun h => hassets ⟨pair.inverse, h⟩)]
  obtain ⟨inverse, hassets⟩ := hassets
  have hfound : self.seenFor asset valuation none ⟨instrument, inverse⟩ = some snapshot := by
    unfold seenFor
    rw [hmarket]
    exact congrArg some hsnapshot
  apply List.findSome?_eq_of_stand pairwise_between (mem_own hown.terms hspot hne hassets)
  · intro pair _
    rcases self.seenFor_cases asset valuation terms snapshot pair with
      hsame | ⟨-, hsided, hstands, hnot⟩
    · left
      rw [hsame]
    · right
      rw [hstands, hnot, hfound, pairedAt_current, pairedAt_current, pairedAt_current,
        hassets.unique hne hsided]
      exact ⟨rfl, rfl⟩
  · intro pair hpair hdiffer other hother hlt hlt'
    by_contra hprices
    apply hshadowed
    rcases self.seenFor_cases asset valuation terms snapshot pair with
      hsame | ⟨hnone, hsided, -, -⟩
    · exact absurd (by rw [hsame]) hdiffer
    obtain ⟨unseen, hunseen, hspotFirst, hfirst⟩ := underlying_of_sided hpair hsided
    obtain ⟨between, hbetween, hspotSecond, -, hsecond⟩ := mem_between.1 hother
    refine ⟨pair.instrument, other.instrument, unseen, between, hunseen, hspotFirst, hfirst, hnone,
      hbetween, hspotSecond, ?_, pricing_of_paired hprices, hlt, hlt'⟩
    unfold Sided at hassets
    rw [hassets]
    cases inverse <;> cases hinverse : other.inverse <;> rw [hinverse] at hsecond <;>
      simp only [Bool.false_eq_true, if_false, if_true] at hsecond ⊢
    · exact .inl hsecond
    · exact .inr hsecond
    · exact .inr hsecond
    · exact .inl hsecond

/-- An instrument of the order's base and quote that is before it by name and holds no market. -/
def Unseen (self : SimulatedVenue) (instrument : InstrumentNameExchange)
    (terms : InstrumentTerms) : Prop :=
  ∃ (first : InstrumentNameExchange) (unseen : VenueInstrument),
    self.instruments[first]? = some unseen ∧ unseen.kind = .spot ∧
    unseen.underlying = terms.underlying ∧ self.market[first]? = none ∧ first < instrument

/-- With nothing unseen before it, an order's own market values what the venue's do at any prices. -/
theorem priceOf_seen {prices : Prices} {owes : Bool} (hown : self.Own instrument terms snapshot)
    (hspot : terms.cashSettled = false) (hunseen : ¬ self.Unseen instrument terms) :
    self.priceOf asset valuation (some (terms.underlying, snapshot)) prices owes =
      self.priceOf asset valuation none prices owes := by
  by_cases hprice : ∃ price, midOrLast snapshot = some price ∧ 0 < price
  swap
  · exact priceOf_unpriced hprice
  obtain ⟨price, hmid, hpos⟩ := hprice
  obtain ⟨seen, hmarket, hsnapshot⟩ := hown.market price hmid
  by_cases hne : asset = valuation
  · unfold priceOf
    rw [if_pos hne, if_pos hne]
  rw [priceOf_eq hne, priceOf_eq hne]
  by_cases hassets : ∃ inverse, Sided terms asset valuation inverse
  swap
  · apply List.findSome?_congr_mem
    intro pair _
    rw [seenFor_eq (.inr fun h => hassets ⟨pair.inverse, h⟩)]
  obtain ⟨inverse, hassets⟩ := hassets
  apply List.findSome?_eq_of_upto pairwise_between (mem_own hown.terms hspot hne hassets)
  · have hfound : self.seenFor asset valuation none ⟨instrument, inverse⟩ = some snapshot := by
      unfold seenFor
      rw [hmarket]
      exact congrArg some hsnapshot
    rw [hfound]
    exact pairedAt_isSome hmid hpos
  · intro pair hpair hbefore
    rcases self.seenFor_cases asset valuation terms snapshot pair with
      hsame | ⟨hnone, hsided, -, -⟩
    · rw [hsame]
    · rcases hbefore with rfl | hlt
      · rw [hmarket] at hnone
        cases hnone
      · obtain ⟨unseen, hfound, hkind, hunderlying⟩ := underlying_of_sided hpair hsided
        exact absurd ⟨pair.instrument, unseen, hfound, hkind, hunderlying, hnone, hlt⟩ hunseen

/-- The room at the current prices is what the venue's own markets leave. -/
theorem roomAt_own (hown : ∀ snapshot, market = some snapshot → self.Own instrument terms snapshot)
    (hspot : terms.cashSettled = false)
    (hshadowed : market.isSome → ¬ self.Shadowed instrument terms) :
    self.roomAt config asset (market.map fun market => (terms.underlying, market)) .current =
      self.roomAt config asset none .current := by
  cases market with
  | none => rfl
  | some snapshot =>
    have hprice (asset valuation : AssetNameExchange) (owes : Bool) :
        self.priceOf asset valuation (some (terms.underlying, snapshot)) .current owes =
          self.priceOf asset valuation none .current owes :=
      priceOf_own (hown snapshot rfl) hspot (hshadowed rfl)
    have hvalued (check : MarginCheck) :
        self.valued config check (some (terms.underlying, snapshot)) .current =
          self.valued config check none .current := by
      unfold valued
      congr 1
      funext valued balance
      unfold valueBalance
      dsimp only
      rw [hprice]
    show self.roomAt config asset (some (terms.underlying, snapshot)) .current = _
    unfold roomAt
    rw [hprice, hvalued]

end SimulatedVenue

end Rustrade.Mock
