import DemoExchange.Properties.Agreement
import DemoExchange.Reference.Terms

/-!
# The price of an order decides

Price 0 is the market order of the wire contract. An order with a price rests
and trades at its own price or better, an order without one never rests, and
the declared order type and time in force are what the sender made them.
-/

namespace DemoExchange.Properties
set_option autoImplicit false
open OrderEntry MatchingEngine Reference Refinement

/-- A trade of the engine is a trade of the exchange but for its number. -/
theorem trade_unnumbered {configuration : EngineConfig} {requests : List Request} {entry : Request × List Emission}
    (member : entry ∈ (numberedRun configuration requests).2) {call : TradeCall} (traded : Emission.trade call ∈ entry.2) :
    Declared [entry.1] call.taker ∧ Crosses call.taker call.event.price := by
  have trades := run_trades configuration requests
  rw [run_unnumbered] at trades
  have sent : unnumbered (.trade call) ∈ entry.2.map unnumbered := List.mem_map_of_mem traded
  exact trades _ (List.mem_map_of_mem member) { call with event := { call.event with tradeId := 0 } } sent

/-- **Terms.** After any requests every resting order has a price and the terms
of one of them, and a trade whose taker has a price is at a price no worse than
that. So if requests have price 0 exactly for market orders, and for immediate
ones, no such order rests and no limit order trades at a worse price. -/
theorem price_decides (alloc : Pool.Allocator) (configuration : EngineConfig) (requests : List Request) :
    ∃ e trace, Engine.run alloc configuration requests = .ok (e, trace) ∧
      (∀ node ∈ e.linkedNodes, ∃ order, e.orderAt node = some order ∧ order.price ≠ 0 ∧ Declared requests order) ∧
      (∀ entry ∈ trace, ∀ call, Emission.trade call ∈ entry.2 →
        Declared [entry.1] call.taker ∧ (call.taker.price ≠ 0 → NoWorse call.taker call.event.price)) ∧
      ((∀ request ∈ requests, ∀ sent, orderRequest request = some sent → Contract sent) →
        (∀ node ∈ e.linkedNodes, ∃ order, e.orderAt node = some order ∧ order.timeInForce ≠ .ioc ∧ order.ordType ≠ .market) ∧
        ∀ entry ∈ trace, ∀ call, Emission.trade call ∈ entry.2 →
          call.taker.ordType = .limit → NoWorse call.taker call.event.price) := by
  obtain ⟨e, ran, ⟨items, h⟩, -⟩ := engine_run alloc configuration requests
  have valid := run_valid configuration requests
  have declared := run_declared configuration requests
  rw [run_unnumbered] at valid declared
  have resting : ∀ node ∈ e.linkedNodes, ∃ order, e.orderAt node = some order ∧ order.price ≠ 0 ∧ Declared requests order := by
    intro node member
    obtain ⟨i, hi, rfl⟩ := h.mem_linkedNodes.1 member
    exact ⟨_, h.orderAt hi, valid.orderly.priced _ (h.mem_live hi), declared _ (h.mem_live hi)⟩
  have trades : ∀ entry ∈ (numberedRun configuration requests).2, ∀ call, Emission.trade call ∈ entry.2 →
      Declared [entry.1] call.taker ∧ (call.taker.price ≠ 0 → NoWorse call.taker call.event.price) := by
    intro entry member call traded
    obtain ⟨asked, hit⟩ := trade_unnumbered member traded
    exact ⟨asked, crosses_noWorse hit⟩
  refine ⟨e, _, ran, resting, trades, fun contract => ⟨?_, ?_⟩⟩
  · intro node member
    obtain ⟨order, found, priced, asked⟩ := resting node member
    obtain ⟨market, immediate⟩ := asked.contract contract
    exact ⟨order, found, fun ioc => priced (immediate ioc), fun type => priced (market.1 type)⟩
  · intro entry member call traded limit
    obtain ⟨asked, noWorse⟩ := trades entry member call traded
    have inside : entry.1 ∈ requests := by
      have inputs : (numberedRun configuration requests).2.map Prod.fst = requests := Run.drive_inputs _ _ _
      rw [← inputs]
      exact List.mem_map_of_mem member
    refine noWorse fun zero => ?_
    have market := ((asked.mono (List.cons_subset.2 ⟨inside, List.nil_subset _⟩)).contract contract).1.2 zero
    rw [limit] at market
    cases market

/-- A limit order of which a market order takes 40. -/
def takenByMarket : List Request :=
  [.newOrderSingle (makeNewOrderSingle alice 1 .sell 10),
    .newOrderSingle { makeNewOrderSingle bob 101 .buy 0 40 with ordType := .market, timeInForce := .ioc }]

theorem price_decides_takenByMarket :
    ∃ e trace, Engine.run .above defaultConfig takenByMarket = .ok (e, trace) ∧ e.linkedNodes.length = 1 ∧
      ∀ node ∈ e.linkedNodes, ∃ order, e.orderAt node = some order ∧ order.timeInForce ≠ .ioc ∧ order.ordType ≠ .market := by
  obtain ⟨e, trace, ran, -, -, law⟩ := price_decides .above defaultConfig takenByMarket
  have one : (Engine.run .above defaultConfig takenByMarket).map (fun out => out.1.linkedNodes.length) = .ok 1 := by
    decide
  rw [ran] at one
  refine ⟨e, trace, ran, Except.ok.inj one, (law fun request member sent asked => ?_).1⟩
  rcases List.mem_cons.1 member with rfl | member
  · cases asked
    decide
  · rw [List.mem_singleton.1 member] at asked
    cases asked
    decide

/-- An immediate market order with a price, and a limit order to buy without one. -/
def misdeclared : List Request :=
  [.newOrderSingle { makeNewOrderSingle alice 1 .sell 10 with ordType := .market, timeInForce := .ioc },
    .newOrderSingle (makeNewOrderSingle bob 101 .buy 0 40)]

/-- The declared type and the price of a taker, and the price that it traded at. -/
def takerTerms : Emission → Option (Side × OrdType × Price × Price)
  | .trade call => some (call.taker.side, call.taker.ordType, call.taker.price, call.event.price)
  | _ => none

/-- The first rests, and the second buys above its price. -/
theorem declaration_not_consulted :
    ∃ e trace, Engine.run .above defaultConfig misdeclared = .ok (e, trace) ∧
      (∃ node ∈ e.linkedNodes, ∃ order, e.orderAt node = some order ∧ order.timeInForce = .ioc ∧ order.ordType = .market) ∧
      ∃ entry ∈ trace, ∃ call, Emission.trade call ∈ entry.2 ∧
        call.taker.ordType = .limit ∧ ¬NoWorse call.taker call.event.price := by
  obtain ⟨e, ran, -⟩ := engine_run .above defaultConfig misdeclared
  have resting : (Engine.run .above defaultConfig misdeclared).map (fun out =>
      out.1.linkedNodes.map fun node => (out.1.orderAt node).map fun order => (order.timeInForce, order.ordType)) =
      .ok [some (.ioc, .market)] := by
    decide
  have traded : (Engine.run .above defaultConfig misdeclared).map (fun out => (logOf out.2).filterMap takerTerms) =
      .ok [(.buy, .limit, 0, 10)] := by
    decide
  rw [ran] at resting traded
  replace resting := Except.ok.inj resting
  replace traded := Except.ok.inj traded
  refine ⟨e, _, ran, ?_, ?_⟩
  · obtain ⟨node, member, found⟩ := List.mem_map.1 (resting ▸ List.mem_singleton_self _)
    obtain ⟨order, here, terms⟩ := Option.map_eq_some_iff.1 found
    obtain ⟨ioc, market⟩ := Prod.mk.inj terms
    exact ⟨node, member, order, here, ioc, market⟩
  · obtain ⟨event, inside, terms⟩ := List.mem_filterMap.1 (traded ▸ List.mem_singleton_self _)
    obtain ⟨entry, member, inside⟩ := List.mem_flatMap.1 inside
    cases event with
    | trade call =>
      simp only [takerTerms, Option.some.injEq, Prod.mk.injEq] at terms
      obtain ⟨side, limit, price, traded⟩ := terms
      refine ⟨entry, member, call, inside, limit, ?_⟩
      rw [NoWorse, side, price, traded]
      decide
    | marketData message => cases terms
    | orderEntry event => cases terms

end DemoExchange.Properties
