import Rustrade.Mock.Inputs

/-!
# When a venue returns nothing

Retiring what a venue holds returns nothing only if it holds nothing: each order retired is
reported.
-/

set_option autoImplicit false

namespace Rustrade.Mock

/-- No open order waits for a bar or a fresh observation. -/
def OpenOrders.Unheld (book : OpenOrders) : Prop := ∀ cid ∈ book.heldAll, book.get cid = none

namespace SimulatedVenue

variable {self after : SimulatedVenue} {timeExchange : DateTime} {cid : ClientOrderId}

theorem reportDebts_eq_nil {reported : BTreeMap AssetNameExchange MarginDetails}
    {events : List AccountEvent} (h : (self.reportDebts reported events).1 = []) : events = [] := by
  cases events with
  | nil => rfl
  | cons event rest => cases h

theorem refreshNextInterestIfLoansChanged_account
    (h : self.refreshNextInterestIfLoansChanged = .ok after) : after.account = self.account := by
  unfold refreshNextInterestIfLoansChanged refreshNextInterest at h
  split at h
  · split at h
    · cases h
      rfl
    · split at h
      · cases h
        rfl
      · obtain ⟨boundaries, -, h⟩ := Except.bind_eq_ok.1 h
        cases Except.pure_eq_ok.1 h
        rfl
  · cases h
    rfl

theorem finish_eq_nil {events : List AccountEvent} (h : self.finish events = .ok (after, [])) :
    events = [] ∧ after.account = self.account := by
  obtain ⟨venue, hrefreshed, h⟩ := Except.bind_eq_ok.1 h
  have haccount := refreshNextInterestIfLoansChanged_account hrefreshed
  have hreported := Except.pure_eq_ok.1 h
  unfold reportDebtChanges at hreported
  split at hreported
  · cases hreported
    exact ⟨rfl, haccount⟩
  · obtain ⟨rfl, hnil⟩ := Prod.mk.inj hreported
    exact ⟨reportDebts_eq_nil hnil, haccount⟩

variable [Build]

theorem retireExpired_ne_nil {resting : RestingOrder} :
    self.retireExpired resting timeExchange ≠ .ok (after, []) := by
  intro h
  obtain ⟨⟨venue, released⟩, -, h⟩ := Except.bind_eq_ok.1 h
  have hevents := congrArg Prod.snd (Except.pure_eq_ok.1 h)
  exact List.append_ne_nil_of_right_ne_nil _ (List.cons_ne_nil _ _) hevents

/-- To retire nothing is to find no order. -/
theorem retireOpen_eq_nil (h : self.retireOpen timeExchange cid = .ok (after, [])) :
    after = self ∧ self.account.ordersOpen.get cid = none := by
  obtain ⟨⟨resting, venue⟩, hremoved, h⟩ := Except.bind_eq_ok.1 h
  obtain ⟨⟨found, account⟩, haccount, hremoved⟩ := Except.bind_eq_ok.1 hremoved
  cases Except.pure_eq_ok.1 hremoved
  match resting with
  | some resting => exact absurd h retireExpired_ne_nil
  | none =>
    cases Except.pure_eq_ok.1 h
    obtain ⟨⟨found, ordersOpen⟩, hbook, haccount⟩ := Except.bind_eq_ok.1 haccount
    cases Except.pure_eq_ok.1 haccount
    unfold OpenOrders.remove at hbook
    split at hbook
    · rename_i hnone
      cases hbook
      refine ⟨rfl, ?_⟩
      unfold OpenOrders.get
      rw [hnone]
      rfl
    · obtain ⟨book, -, hbook⟩ := Except.bind_eq_ok.1 hbook
      cases Except.pure_eq_ok.1 hbook

theorem retireHeld_eq_nil {cids : List ClientOrderId}
    (h : Gather.run (fun venue cid => venue.retireOpen timeExchange cid) self cids =
      .ok (after, [])) :
    after = self ∧ ∀ cid ∈ cids, self.account.ordersOpen.get cid = none := by
  induction cids with
  | nil =>
    cases h
    exact ⟨rfl, fun _ h => absurd h List.not_mem_nil⟩
  | cons cid rest ih =>
    obtain ⟨venue, first, more, hfirst, hrest, hnil⟩ := Gather.run_cons h
    obtain ⟨rfl, rfl⟩ := List.append_eq_nil_iff.1 hnil.symm
    obtain ⟨rfl, hnone⟩ := retireOpen_eq_nil hfirst
    obtain ⟨hsame, hnones⟩ := ih hrest
    refine ⟨hsame, ?_⟩
    intro other hother
    rcases List.mem_cons.1 hother with rfl | hother
    · exact hnone
    · exact hnones other hother

theorem expireHeld_eq_nil (h : self.expireHeld timeExchange = .ok (after, [])) :
    after.account.ordersOpen.Unheld := by
  obtain ⟨⟨venue, events⟩, hretired, hfinished⟩ := Except.bind_eq_ok.1 h
  obtain ⟨rfl, haccount⟩ := finish_eq_nil hfinished
  obtain ⟨rfl, hnones⟩ := retireHeld_eq_nil hretired
  rw [haccount]
  exact hnones

/-! ## An input -/

variable [RandomStream] [DecimalScale]

/-- The venue returns something for an input. -/
def Returns (self : SimulatedVenue) (input : Input) : Prop :=
  ∃ after answer, self.step input = .ok (after, answer) ∧
    (answer.events ≠ [] ∨ answer.response.isSome)

theorem returns_of_advanceTime {events : List AccountEvent}
    (h : self.advanceTime timeExchange = .ok (after, events)) (hevents : events ≠ []) :
    self.Returns (.advanceTime timeExchange) := by
  refine ⟨after, ⟨events, none⟩, ?_, .inl hevents⟩
  unfold step
  dsimp only
  rw [h]
  rfl

theorem returns_of_applyMarket {instrument : InstrumentNameExchange}
    {observation : MarketObservation} {events : List AccountEvent}
    (h : self.applyMarket instrument observation timeExchange = .ok (after, events))
    (hevents : events ≠ []) : self.Returns (.applyMarket instrument observation timeExchange) := by
  refine ⟨after, ⟨events, none⟩, ?_, .inl hevents⟩
  unfold step
  dsimp only
  rw [h]
  rfl

theorem returns_of_expireHeld {events : List AccountEvent}
    (h : self.expireHeld timeExchange = .ok (after, events)) (hevents : events ≠ []) :
    self.Returns (.expireHeld timeExchange) := by
  refine ⟨after, ⟨events, none⟩, ?_, .inl hevents⟩
  unfold step
  dsimp only
  rw [h]
  rfl

end SimulatedVenue

end Rustrade.Mock
