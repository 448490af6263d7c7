import DemoExchange.Reference.Ledger

/-!
# What orders were declared to be

An order keeps the terms it was sent with. The exchange looks at the price of
an order only: the declared order type and time in force are carried into the
reports and decide nothing.
-/

namespace DemoExchange.Reference
set_option autoImplicit false
open OrderEntry MatchingEngine

/-- The order that a request asks for: a new order, or one with the fields of a replace. -/
def orderRequest : Request → Option NewOrderSingle
  | .newOrderSingle request => some request
  | .replaceOrder incoming =>
    some
      { clientId := incoming.clientId
        clOrdId := incoming.clOrdId
        securityId := incoming.securityId
        symbol := incoming.symbol
        securityExchange := incoming.securityExchange
        side := incoming.side
        ordType := incoming.ordType
        timeInForce := incoming.timeInForce
        orderQty := incoming.orderQty
        price := incoming.price }
  | .cancelOrder _ => none
  | .flush => none

/-- One of the requests asked for this order, field by field but for the quantity it has left. -/
def Declared (requests : List Request) (order : OrderState) : Prop :=
  ∃ request ∈ requests, ∃ sent, orderRequest request = some sent ∧ ∃ leavesQty, order =
    { clientId := sent.clientId
      clOrdId := sent.clOrdId
      securityId := sent.securityId
      symbol := sent.symbol
      securityExchange := sent.securityExchange
      side := sent.side
      ordType := sent.ordType
      timeInForce := sent.timeInForce
      price := sent.price
      orderQty := sent.orderQty
      leavesQty := leavesQty }

/-- A price that is no worse for the order than its own. -/
def NoWorse (order : OrderState) (price : Price) : Prop :=
  match order.side with
  | .buy => price ≤ order.price
  | .sell => order.price ≤ price

/-- The price is 0 exactly for a market order, and for every immediate one. -/
def Contract (sent : NewOrderSingle) : Prop :=
  (sent.ordType = .market ↔ sent.price = 0) ∧ (sent.timeInForce = .ioc → sent.price = 0)

instance (sent : NewOrderSingle) : Decidable (Contract sent) := inferInstanceAs (Decidable (_ ∧ _))

section Terms

variable {x : Exchange} {request : Request} {requests requests' : List Request} {order order' : OrderState}

theorem Declared.reduces (h : Declared requests order) (terms : Reduces order order') : Declared requests order' := by
  obtain ⟨request, member, sent, asked, _, rfl⟩ := h
  obtain ⟨quantity, rfl⟩ := terms
  exact ⟨request, member, sent, asked, quantity, rfl⟩

theorem Declared.mono (h : Declared requests order) (more : requests ⊆ requests') : Declared requests' order := by
  obtain ⟨request, member, declared⟩ := h
  exact ⟨request, more member, declared⟩

/-- **Under the contract the price decides as the declared fields would.** -/
theorem Declared.contract (h : Declared requests order)
    (contract : ∀ request ∈ requests, ∀ sent, orderRequest request = some sent → Contract sent) :
    (order.ordType = .market ↔ order.price = 0) ∧ (order.timeInForce = .ioc → order.price = 0) := by
  obtain ⟨request, member, sent, asked, _, terms⟩ := h
  rw [terms]
  exact contract request member sent asked

theorem crosses_noWorse {taker : OrderState} {price : Price} (hit : Crosses taker price) (priced : taker.price ≠ 0) :
    NoWorse taker price := by
  unfold NoWorse
  cases side : taker.side with
  | buy => exact (crosses_buy priced side).1 hit
  | sell => exact (crosses_sell priced side).1 hit

/-- Every fill of a sweep is at a price that the aggressor crosses. -/
theorem sweep_crosses (live : List LiveOrder) (taker : OrderState) :
    ∀ f ∈ (sweep live taker).fills, Reduces taker f.taker ∧ Crosses f.taker f.maker.price := by
  have both := sweep_rule
    (P := fun _ taker' fills => Reduces taker taker' ∧
      ∀ f ∈ fills, Reduces taker f.taker ∧ Crosses f.taker f.maker.price)
    ?_ live taker [] ⟨Reduces.refl _, by simp⟩
  · exact both.2
  · rintro live' taker' fills maker hits ⟨terms, crossed⟩
    refine ⟨terms.fill _, fun f hf => ?_⟩
    rcases List.mem_append.1 hf with hf | hf
    · exact crossed f hf
    · rw [List.mem_singleton.1 hf]
      exact ⟨terms, hits.hit⟩

/-- The trades of a new order are the fills of its sweep. -/
theorem accept_trade {sent : NewOrderSingle} {call : TradeCall} (member : Emission.trade call ∈ (x.accept sent).2) :
    ∃ f ∈ (sweep x.live (orderFor sent)).fills, call = f.call := by
  obtain ⟨_, _, _, _, _, same⟩ | ⟨f, hf, same⟩ | ⟨_, same⟩ := mem_accept member
  · cases same
  · cases same
    exact ⟨f, hf, rfl⟩
  · cases same

theorem removalUpdate_trade {o : LiveOrder} {call : TradeCall} : Emission.trade call ∉ x.removalUpdate o := by
  intro member
  obtain ⟨_, same⟩ := mem_removalUpdate member
  cases same

/-- A step leaves the orders there were, and at most the order it was asked for. -/
theorem step_live {o : LiveOrder} (member : o ∈ (x.step request).1.live) :
    (∃ o' ∈ x.live, Reduces o'.order o.order) ∨ Declared [request] o.order := by
  have kept : ∀ {gone}, o ∈ (x.remove gone).live → ∃ o' ∈ x.live, Reduces o'.order o.order :=
    fun inside => ⟨o, (List.mem_filter.1 inside).1, Reduces.refl _⟩
  have outcome := step_outcome x request
  generalize x.step request = next at outcome member
  cases outcome with
  | refused => exact .inl ⟨o, member, Reduces.refl _⟩
  | accepted request =>
    exact (accept_live member).imp_right fun terms => ⟨_, List.mem_singleton_self _, _, rfl, terms⟩
  | cancelled => exact .inl (kept member)
  | replaced incoming =>
    obtain ⟨o', inside, terms⟩ | terms := accept_live member
    · exact .inl ⟨o', (List.mem_filter.1 inside).1, terms⟩
    · exact .inr ⟨_, List.mem_singleton_self _, _, rfl, terms⟩
  | lost => exact .inl (kept member)
  | flushed => cases member

/-- The taker of every trade is the order that the request asked for, and it
crosses the price of the trade. -/
theorem step_trade {call : TradeCall} (member : Emission.trade call ∈ (x.step request).2) :
    Declared [request] call.taker ∧ Crosses call.taker call.event.price := by
  have accepted : ∀ {x' : Exchange} {request : Request} {sent}, orderRequest request = some sent →
      Emission.trade call ∈ (x'.accept sent).2 → Declared [request] call.taker ∧ Crosses call.taker call.event.price := by
    intro x' request sent asked traded
    obtain ⟨f, hf, rfl⟩ := accept_trade traded
    obtain ⟨terms, hit⟩ := sweep_crosses _ _ f hf
    exact ⟨⟨request, List.mem_singleton_self _, sent, asked, terms⟩, hit⟩
  have outcome := step_outcome x request
  generalize x.step request = next at outcome member
  cases outcome with
  | refused request events rejects =>
    obtain ⟨cancel, reason, text, same⟩ := rejects _ member
    cases same
  | accepted request => exact accepted rfl member
  | cancelled =>
    rcases List.mem_cons.1 member with member | member
    · cases member
    · exact absurd member removalUpdate_trade
  | replaced incoming =>
    rcases List.mem_append.1 member with member | member
    · exact absurd member removalUpdate_trade
    · exact accepted rfl member
  | lost =>
    rcases List.mem_append.1 member with member | member
    · exact absurd member removalUpdate_trade
    · cases List.mem_singleton.1 member
  | flushed => cases member

theorem run_declared (configuration : EngineConfig) (requests : List Request) :
    ∀ o ∈ (run configuration requests).1.live, Declared requests o.order := by
  have declared := Run.drive_rule (f := Exchange.step) (a := Exchange.init configuration)
    (P := fun x trace => ∀ o ∈ x.live, Declared (trace.map Prod.fst) o.order) (Q := fun _ => True)
    (by intro o ho; cases ho) ?_ requests fun _ _ => trivial
  · rw [Run.drive_inputs] at declared
    exact declared
  · intro x trace request before _ o ho
    rw [List.map_append]
    obtain ⟨o', inside, terms⟩ | asked := step_live ho
    · exact ((before o' inside).reduces terms).mono (List.subset_append_left _ _)
    · exact asked.mono (List.subset_append_right _ _)

theorem run_trades (configuration : EngineConfig) (requests : List Request) :
    ∀ entry ∈ (run configuration requests).2, ∀ call, Emission.trade call ∈ entry.2 →
      Declared [entry.1] call.taker ∧ Crosses call.taker call.event.price :=
  Run.drive_rule
    (P := fun _ trace => ∀ entry ∈ trace, ∀ call, Emission.trade call ∈ entry.2 →
      Declared [entry.1] call.taker ∧ Crosses call.taker call.event.price)
    (Q := fun _ => True) (by simp)
    (by
      intro x trace request before _ entry member call traded
      rcases List.mem_append.1 member with member | member
      · exact before entry member call traded
      · rw [List.mem_singleton.1 member] at traded ⊢
        exact step_trade traded)
    requests fun _ _ => trivial

end Terms

end DemoExchange.Reference
