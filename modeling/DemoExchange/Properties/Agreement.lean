import DemoExchange.Refinement.Queues

/-!
# The engine is a price-time exchange

The refinement read on the engine alone: after any requests it has emitted the
numbered events of the reference exchange, its index finds the exchange's live
orders, and each side of each book is the queue of that side by price and then
by arrival.
-/

namespace DemoExchange.Properties
set_option autoImplicit false
open OrderEntry MatchingEngine Reference Refinement Pool

/-- **Price-time priority.** The engine answers every sequence of requests as
the reference exchange does and holds the same orders in the same priority. -/
theorem engine_agrees (alloc : Allocator) (configuration : EngineConfig) (requests : List Request) :
    ∃ e, Engine.run alloc configuration requests = .ok (e, (numberedRun configuration requests).2) ∧
      (∀ key, e.liveOrder key = ((run configuration requests).1.find? key).map (·.order)) ∧
      ∀ symbol ∈ configuration.validSymbols, ∃ book, e.books.lookup symbol = some book ∧
        ∀ side, ∃ queue : List LiveOrder, queue.Perm (sideOf (run configuration requests).1.live symbol side) ∧
          queue.Pairwise (fun o p => rank o < rank p) ∧
          (book.nodes side).map e.orderAt = queue.map fun o => some o.order := by
  obtain ⟨e, ran, ⟨items, h⟩, -⟩ := engine_run alloc configuration requests
  rw [show (numberedRun configuration requests).1.1 = (run configuration requests).1 by rw [run_unnumbered]] at h
  refine ⟨e, ran, h.liveOrder, fun symbol known => ?_⟩
  have configured : symbol ∈ (run configuration requests).1.configured := by
    rw [run_configured]
    exact known
  obtain ⟨book, hb⟩ := h.exists_book configured
  refine ⟨book, h.lookup.2 hb, fun side => ?_⟩
  obtain ⟨queue, perm, ordered, nodes⟩ := h.queue hb side
  refine ⟨queue.map Prod.snd, ?_, ?_, ?_⟩
  · rw [← h.live, ← sideItems_live]
    exact perm.map _
  · rw [List.pairwise_map]
    exact ordered
  · rw [nodes, List.map_map, List.map_map]
    exact List.map_congr_left fun i hi => h.orderAt (mem_sideItems.1 (perm.mem_iff.1 hi)).1

/-! ## The component test

The factories and the scenario of `matching_engine_test.cpp`. -/

def aapl : Symbol := ⟨[65, 65, 80, 76], by decide⟩

def msft : Symbol := ⟨[77, 83, 70, 84], by decide⟩

def bvmf : SecurityExchange := ⟨[66, 86, 77, 70], by decide⟩

def alice : ClientId := 1

def bob : ClientId := 2

/-- `make_new_order_single`. -/
def makeNewOrderSingle (clientId : ClientId) (clOrdId : ClOrdId) (side : Side) (price : Price)
    (quantity : Quantity := 100) : NewOrderSingle where
  clientId := clientId
  clOrdId := clOrdId
  securityId := 1
  symbol := aapl
  securityExchange := bvmf
  side := side
  ordType := .limit
  timeInForce := .day
  orderQty := quantity
  price := price

/-- A replacement to buy 100 at `price`. -/
def makeReplaceOrder (clientId : ClientId) (clOrdId : ClOrdId) (origClOrdId : OrigClOrdId) (symbol : Symbol)
    (price : Price) : ReplaceOrder where
  clientId := clientId
  clOrdId := clOrdId
  origClOrdId := origClOrdId
  securityId := 1
  symbol := symbol
  securityExchange := bvmf
  side := .buy
  ordType := .limit
  timeInForce := .day
  orderQty := 100
  price := price

def defaultConfig : EngineConfig := ⟨[aapl], 1024, 32⟩

/-- The side, price and quantity of a book update. -/
def bookUpdate? (event : Emission) : Option (MarketData.Side × Option Price × Option Quantity) :=
  match event.message? with
  | some (.mboBookUpdate update) => some (update.side, update.price, update.quantity)
  | _ => none

/-- Cross, eliminate, fresh rest. -/
example :
    (Engine.run .above defaultConfig
        [.newOrderSingle (makeNewOrderSingle alice 1 .buy 10), .newOrderSingle (makeNewOrderSingle alice 2 .sell 12),
          .newOrderSingle (makeNewOrderSingle bob 102 .sell 11), .newOrderSingle (makeNewOrderSingle bob 103 .sell 10),
          .newOrderSingle (makeNewOrderSingle alice 3 .buy 10)]).map
      (fun out => (out.2.flatMap Prod.snd).filterMap bookUpdate?) =
    .ok [(.buy, some 10, some 100), (.sell, some 12, some 100), (.sell, some 11, some 100), (.buy, none, none),
      (.buy, some 10, some 100)] := by
  decide

end DemoExchange.Properties
