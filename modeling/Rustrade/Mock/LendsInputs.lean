import Rustrade.Mock.Lends

/-!
# The loans an input makes

Each move of a venue leads on by moves whose loans can be counted, and so does an input, whichever way
it takes.
-/

set_option autoImplicit false

namespace Rustrade.Mock

namespace SimulatedVenue

variable [Build] {v w : SimulatedVenue} {timeExchange : DateTime} {order : OpenOrder}
  {terms : InstrumentTerms} {reservation : Option Reservation} {instrument : InstrumentNameExchange}
  {cid : ClientOrderId}

/-! ## Rules -/

namespace Leads

theorem quiet {u : SimulatedVenue} (h : v.Leads u) (hquiet : u.Quiet w) : v.Leads w :=
  h.calm hquiet.setup hquiet.account

theorem ofStill {u : SimulatedVenue} (h : v.Leads u) (hstill : u.Still w) : v.Leads w :=
  h.still hstill.setup hstill.margin hstill.balances

/-- What leads on from where the venue is. -/
theorem onward {α : Type} {u : SimulatedVenue} {x : Except Fault (SimulatedVenue × α)}
    (h : v.Leads u) (hx : x.Gives fun r => u.Leads r.1) : x.Gives fun r => v.Leads r.1 :=
  hx.mono fun _ hr => h.trans hr

theorem run {Item : Type} {step : SimulatedVenue → Item → Events}
    (hstep : ∀ u item, (step u item).Gives fun r => u.Leads r.1) (items : List Item) :
    (Gather.run step v items).Gives fun r => v.Leads r.1 := by
  exact Gather.run_gives (fun _ => .refl) (fun h hnext => h.trans hnext) hstep v items

end Leads

/-! ## Orders -/

omit [Build] in
theorem bookRested_still {reservation : Reservation} :
    (v.bookRested order reservation).Gives v.Still := by
  unfold bookRested AccountState.book
  cases v.account.ordersOpen.insert order (some reservation) with
  | error resting => exact id
  | ok ordersOpen => exact ⟨rfl, rfl, rfl⟩

variable {request : OpenRequest} {market : Option MarketSnapshot}

/-- An order is priced from no market, or from the venue's own of its instrument. -/
def OwnMarket (v : SimulatedVenue) (instrument : InstrumentNameExchange) (terms : InstrumentTerms)
    (market : Option MarketSnapshot) : Prop :=
  ∀ snapshot, market = some snapshot → v.Own instrument terms snapshot

omit [Build] in
/-- The venue's own market of an instrument it trades. -/
theorem ownMarket_own (hterms : v.instrumentTerms instrument = .ok terms) :
    v.OwnMarket instrument terms (v.market[instrument]?.map fun market => market.snapshot) := by
  intro snapshot hsnapshot
  obtain ⟨seen, hseen, rfl⟩ := Option.map_eq_some_iff.1 hsnapshot
  exact ⟨hterms, fun _ _ => ⟨seen, hseen, rfl⟩⟩

omit [Build] in
/-- Without a market an order that trades is shown one that prices nothing. -/
theorem OwnMarket.getD (hterms : v.instrumentTerms instrument = .ok terms)
    (h : v.OwnMarket instrument terms market) :
    v.OwnMarket instrument terms (some (market.getD .default)) := by
  intro snapshot hsnapshot
  cases hsnapshot
  cases market with
  | some seen => exact h seen rfl
  | none => exact ⟨hterms, fun price hprice => nomatch hprice⟩

omit [Build] in
theorem retireFilled_still {orderId : OrderId} {fill : Fill} {held : Option Settlement}
    {committed : Committed} :
    (v.retireFilled request orderId fill held committed timeExchange).Gives fun r =>
      v.Still r.1 := by
  unfold retireFilled
  split
  · apply bookRested_still.bind
    exact fun r hr => ⟨hr.setup, hr.margin, hr.balances⟩
  · split
    · exact ⟨rfl, rfl, rfl⟩
    · exact ⟨rfl, rfl, rfl⟩

theorem printArrival_still {fill : Fill} {fees : AssetFees AssetNameExchange} :
    (v.printArrival request terms fill fees timeExchange).Gives fun r => v.Still r.1 := by
  apply consumeDepth_still.bind
  intro consumed hconsumed
  apply recordFill_still.bind
  intro recorded hrecorded
  exact ⟨hrecorded.setup.trans hconsumed.setup, hrecorded.margin.trans hconsumed.margin,
    hrecorded.balances.trans hconsumed.balances⟩

/-! ## Charges -/

theorem chargeInterestBoundary_leads {boundary : DateTime} {asset : AssetNameExchange}
    {principal : Decimal} :
    (v.chargeInterestBoundary boundary asset principal).Gives fun r => v.Leads r.1 := by
  apply chargeInterest_leads.bind
  rintro ⟨charged, _ | ⟨balance, flow⟩⟩ hcharged
  · exact hcharged
  · exact hcharged

theorem chargeHoldingCost_leads {boundary : DateTime} {model : Nat} :
    (v.chargeHoldingCost boundary instrument model).Gives fun r => v.Leads r.1 := by
  unfold chargeHoldingCost
  split
  · apply Except.gives_true.bind
    intro model _
    dsimp only
    split
    · exact Leads.refl
    · split
      · exact Leads.refl
      · apply AccountState.charge_calm.bind
        intro ⟨account, balance⟩ hcalm
        exact Leads.refl.calm rfl hcalm
  · exact Leads.refl

theorem chargeDue_leads {due : DateTime × Due} :
    (v.chargeDue due).Gives fun r => v.Leads r.1 := by
  unfold chargeDue
  split
  · exact chargeHoldingCost_leads
  · exact chargeInterestBoundary_leads

theorem accrue_leads {now : DateTime} : (v.accrue now).Gives fun r => v.Leads r.1 := by
  unfold accrue
  split
  · have hstarted : v.Leads { v with accruedThrough := some now } := Leads.refl.still rfl rfl rfl
    apply refreshNextCharge_still.bind
    intro charged hcharged
    apply refreshNextInterest_still.bind
    intro venue hvenue
    exact (hstarted.ofStill hcharged).ofStill hvenue
  · split
    · exact Leads.refl
    · apply refreshNextInterestIfLoansChanged_still.bind
      intro refreshed hrefreshed
      have hreached (accruedThrough : Option DateTime) :
          v.Leads { refreshed with accruedThrough } :=
        (Leads.refl.ofStill hrefreshed).still rfl rfl rfl
      extract_lets venue falls
      split
      · exact hreached _
      · apply Except.gives_true.bind
        intro due _
        apply ((hreached _).onward (Leads.run (fun _ _ => chargeDue_leads) due)).bind
        intro ⟨charged, events⟩ hcharged
        apply refreshNextCharge_still.bind
        intro next hnext
        apply refreshNextInterest_still.bind
        intro last hlast
        exact (hcharged.ofStill hnext).ofStill hlast

theorem finish_leads {events : List AccountEvent} :
    (v.finish events).Gives fun r => v.Leads r.1 := by
  apply refreshNextInterestIfLoansChanged_still.bind
  intro refreshed hrefreshed
  have hleads : v.Leads refreshed := Leads.refl.ofStill hrefreshed
  show v.Leads (refreshed.reportDebtChanges events).1
  unfold reportDebtChanges
  split
  · exact hleads
  · exact hleads.still rfl rfl rfl

/-! ## Inputs -/

/-- Every move of the venue leads on. -/
theorem leads_moves : Moves OwnMarket AccountState.Calm Leads where
  account := AccountState.calm_path
  trans := Leads.trans
  ledger hcharging hcalm := Leads.refl.calm (congrArg Charging.setup hcharging) hcalm
  recordFill := recordFill_still.mono fun _ hr => Leads.refl.ofStill hr
  commit instrument hown := commit_leads instrument hown
  accrue := accrue_leads
  finish := finish_leads
  priced_none := own_none
  priced_own := ownMarket_own
  priced_getD := OwnMarket.getD
  priced_draw hown snapshot hsnapshot := by
    obtain ⟨hterms, hmarket⟩ := hown snapshot hsnapshot
    exact ⟨hterms, hmarket⟩

theorem leads_path [RandomStream] : Path OwnMarket AccountState.Calm Leads where
  toMoves := leads_moves
  release := leads_moves.releaseTaking (Leads.refl.still rfl rfl rfl)

/-- An input of a venue driven by its own markets moves it by moves whose loans can be counted. -/
theorem step_leads [RandomStream] [DecimalScale] (hregime : v.regime = .marketDriven) (input : Input) :
    (v.step input).Gives fun r => v.Leads r.1 := by
  apply leads_path.step input
  intro request _ terms hterms
  unfold pricingMarket
  rw [hregime]
  exact ownMarket_own hterms

/-! ## Runs -/

theorem Lends.setup {loans : List Loan} (h : v.Lends loans w) : w.setup = v.setup := by
  induction h with
  | refl => rfl
  | quiet _ hquiet ih => exact hquiet.setup.trans ih
  | loan _ _ ih => exact ih

theorem Leads.setup (h : v.Leads w) : w.setup = v.setup := by
  obtain ⟨loans, hloans⟩ := h
  exact hloans.setup

/-- A run of inputs, the same. -/
theorem answers_leads [RandomStream] [DecimalScale] (hregime : v.regime = .marketDriven)
    (inputs : List Input) : (v.answers inputs).Gives fun r => v.Leads r.1 := by
  have hrun : (v.answers inputs).Gives fun r => v.Leads r.1 ∧ r.1.setup = v.setup := by
    unfold answers
    apply Gather.run_ensures (P := fun (u : SimulatedVenue) _ => u.setup = v.setup)
      (R := fun (u : SimulatedVenue) (_ : List Answer) w => u.Leads w) (fun _ => .refl)
      (fun h hnext => h.trans hnext) _ rfl
    intro u input rest hsetup
    have hdriven : u.regime = .marketDriven := (congrArg Setup.regime hsetup).trans hregime
    apply (step_leads hdriven input).bind
    intro ⟨after, answer⟩ hleads
    exact ⟨hleads, hleads.setup.trans hsetup⟩
  exact hrun.mono fun _ hr => hr.1

end SimulatedVenue

end Rustrade.Mock
