import DemoExchange.Properties.Agreement
import DemoExchange.Reference.Isolation

/-!
# Symbols do not interfere

The levels of a book are a function of the orders of its symbol, and those are
the same in a run and in the run of the symbol's own requests.
-/

namespace DemoExchange.Properties
set_option autoImplicit false
open OrderEntry MatchingEngine Reference Refinement

/-- A level that holds these orders. -/
def levelView (entry : Price × List OrderState) : Price × List (Option OrderState) × Quantity :=
  (entry.1, entry.2.map some, (entry.2.map (·.leavesQty)).sum)

section Levels

variable {e e' : Engine} {items items' : List Item} {x x' : Exchange} {symbol : Symbol} {book book' : OrderBook} {side : Side}

/-- The levels of a side are its orders sorted into buckets by price. -/
theorem levels_of_orders (h : Holds e items x) (hb : (symbol, book) ∈ e.books) (side : Side) :
    ∃ g, Buckets.Of (before side) OrderState.price g ((ordersOf x.live symbol).filter fun o => o.side = side) ∧
      e.levels book side = g.map levelView := by
  obtain ⟨g, buckets, same⟩ := h.renders symbol book hb side
  have orders : (sideItems items symbol side).map (fun i => i.2.order) =
      (ordersOf x.live symbol).filter fun o => o.side = side := by
    rw [← sideOf_orders, ← h.live, ← sideItems_live, List.map_map]
    rfl
  refine ⟨g.map (Prod.map id (List.map fun i => i.2.order)), ?_, ?_⟩
  · rw [← orders]
    exact buckets.map _ fun _ => rfl
  · rw [Engine.levels, same, render, List.map_map, List.map_map]
    refine List.map_congr_left fun entry member => ?_
    have nodes : (entry.2.map Prod.fst).map e.orderAt = (entry.2.map fun i => i.2.order).map some := by
      rw [List.map_map, List.map_map]
      refine List.map_congr_left fun i hi => h.orderAt ?_
      exact (mem_sideItems.1 ((buckets.mem member).1 hi).1).1
    simp only [Function.comp, levelView, Prod.map, id, levelOf, leavesSum, nodes, List.map_map]
    rfl

/-- Books of the same orders have the same levels. -/
theorem levels_same (h : Holds e items x) (h' : Holds e' items' x') (hb : (symbol, book) ∈ e.books)
    (hb' : (symbol, book') ∈ e'.books) (same : ordersOf x.live symbol = ordersOf x'.live symbol) (side : Side) :
    e.levels book side = e'.levels book' side := by
  obtain ⟨g, buckets, levels⟩ := levels_of_orders h hb side
  obtain ⟨g', buckets', levels'⟩ := levels_of_orders h' hb' side
  rw [← same] at buckets'
  rw [levels, levels', buckets.unique buckets']

/-- Both engines have the same book for the symbol, if any. -/
theorem lookup_same (h : Holds e items x) (h' : Holds e' items' x') (configured : x.configured = x'.configured)
    (same : ordersOf x.live symbol = ordersOf x'.live symbol) :
    (e.books.lookup symbol).map e.levels = (e'.books.lookup symbol).map e'.levels := by
  by_cases known : symbol ∈ x.configured
  · obtain ⟨book, hb⟩ := h.exists_book known
    obtain ⟨book', hb'⟩ := h'.exists_book (configured ▸ known)
    rw [h.lookup.2 hb, h'.lookup.2 hb', Option.map_some, Option.map_some]
    exact congrArg some (funext fun side => levels_same h h' hb hb' same side)
  · have none : ∀ {e items x}, Holds e items x → symbol ∉ x.configured → e.books.lookup symbol = none := by
      intro e items x h unknown
      cases found : e.books.lookup symbol with
      | none => rfl
      | some book => exact absurd ((h.configured _).1 (List.mem_map_of_mem (h.lookup.1 found))) unknown
    rw [none h known, none h' (configured ▸ known)]
    rfl

end Levels

/-- A trace without the ids. -/
def withoutIds (trace : List (Request × List Emission)) : List (Request × List Emission) :=
  trace.map (Prod.map id (List.map unnumbered))

/-- **Isolation.** Let every key belong to one symbol. Then the requests of a
symbol and the flushes, sent alone, lead to the same book for it and are
answered by the same events, but for the ids, as in the whole run. -/
theorem symbols_isolated (alloc alloc' : Pool.Allocator) (configuration : EngineConfig) (requests : List Request)
    (sym : OrderKey → Symbol) (keyed : ∀ request ∈ requests, Keyed sym request) (symbol : Symbol) :
    ∃ e trace e' trace', Engine.run alloc configuration requests = .ok (e, trace) ∧
      Engine.run alloc' configuration (requests.filter (concerns sym symbol)) = .ok (e', trace') ∧
      (e.books.lookup symbol).map e.levels = (e'.books.lookup symbol).map e'.levels ∧
      withoutIds (trace.filter fun entry => concerns sym symbol entry.1) = withoutIds trace' := by
  obtain ⟨e, ran, ⟨items, h⟩, -⟩ := engine_run alloc configuration requests
  obtain ⟨e', ran', ⟨items', h'⟩, -⟩ := engine_run alloc' configuration (requests.filter (concerns sym symbol))
  obtain ⟨answers, alike⟩ := run_isolated configuration requests keyed
  rw [run_unnumbered, run_unnumbered] at answers alike
  refine ⟨e, _, e', _, ran, ran', lookup_same h h' alike.configured alike.orders, ?_⟩
  simp only [List.filter_map] at answers
  exact answers

/-! ## Two symbols -/

def twoSymbols : EngineConfig := ⟨[aapl, msft], 1024, 32⟩

/-- Alice trades in one symbol and Bob in the other. -/
def bySender (key : OrderKey) : Symbol := if key.clientId = alice then aapl else msft

/-- Bob's order and its cancel fall between Alice's order and its replacement. -/
def interleaved : List Request :=
  [.newOrderSingle (makeNewOrderSingle alice 1 .buy 10),
    .newOrderSingle { makeNewOrderSingle bob 1 .sell 9 with symbol := msft },
    .cancelOrder ⟨bob, 2, 1⟩,
    .replaceOrder (makeReplaceOrder alice 2 1 aapl 11)]

theorem symbols_isolated_interleaved :
    ∃ e trace e' trace', Engine.run .above twoSymbols interleaved = .ok (e, trace) ∧
      Engine.run .above twoSymbols
          [.newOrderSingle (makeNewOrderSingle alice 1 .buy 10), .replaceOrder (makeReplaceOrder alice 2 1 aapl 11)] =
        .ok (e', trace') ∧
      (e.books.lookup aapl).map e.levels = (e'.books.lookup aapl).map e'.levels ∧
      withoutIds (trace.filter fun entry => concerns bySender aapl entry.1) = withoutIds trace' := by
  have keyed : ∀ request ∈ interleaved, Keyed bySender request := by
    intro request member
    simp only [interleaved, List.mem_cons, List.not_mem_nil, or_false] at member
    rcases member with rfl | rfl | rfl | rfl
    · rfl
    · rfl
    · trivial
    · exact ⟨rfl, rfl⟩
  exact symbols_isolated .above .above twoSymbols interleaved bySender keyed aapl

end DemoExchange.Properties
