import DemoExchange.Refinement.Queues

/-!
# Every book is well formed and uncrossed

The representation invariant of the books of any engine that requests can
lead to, from the shape of the side maps (`Renders`) and the invariant of the
exchange (`Orderly`).
-/

namespace DemoExchange.Properties
set_option autoImplicit false
open OrderEntry MatchingEngine Reference Refinement Pool

/-- Every engine that requests lead to represents a valid exchange. -/
theorem run_holds (alloc : Allocator) (configuration : EngineConfig) (requests : List Request) :
    ∃ e trace items x, Engine.run alloc configuration requests = .ok (e, trace) ∧ Holds e items x ∧ Valid x := by
  obtain ⟨e, ran, ⟨items, h⟩, -⟩ := engine_run alloc configuration requests
  have valid := run_valid configuration requests
  rw [run_unnumbered] at valid
  exact ⟨e, _, items, _, ran, h, valid⟩

/-! ## No book is locked or crossed -/

/-- The best price of a side is the price of a live order. -/
theorem best_live {e : Engine} {items : List Item} {x : Exchange} (h : Holds e items x) {symbol : Symbol}
    {book : OrderBook} (hb : (symbol, book) ∈ e.books) {side : Side} {price : Price}
    (best : book.best side = some price) : ∃ o ∈ x.live, OnSide symbol side o.order ∧ o.order.price = price := by
  rw [h.best hb] at best
  obtain ⟨o, found, same⟩ := Option.map_eq_some_iff.1 best
  obtain ⟨member, inside⟩ := best_mem found
  exact ⟨o, member, inside, same⟩

/-- **Uncrossed.** After any requests, the best bid of a book is below its best ask. -/
theorem bestBid_lt_bestAsk (alloc : Allocator) (configuration : EngineConfig) (requests : List Request) :
    ∃ e trace, Engine.run alloc configuration requests = .ok (e, trace) ∧
      ∀ entry ∈ e.books, ∀ bid ask, entry.2.bestBid = some bid → entry.2.bestAsk = some ask → bid < ask := by
  obtain ⟨e, trace, items, x, ran, h, valid⟩ := run_holds alloc configuration requests
  refine ⟨e, trace, ran, ?_⟩
  rintro ⟨symbol, book⟩ hb bid ask bestBid bestAsk
  obtain ⟨b, memberB, insideB, rfl⟩ := best_live h hb (show book.best .buy = some bid from bestBid)
  obtain ⟨a, memberA, insideA, rfl⟩ := best_live h hb (show book.best .sell = some ask from bestAsk)
  exact valid.orderly.uncrossed b memberB a memberA (insideB.1.trans insideA.1.symm) insideB.2 insideA.2

/-! ## Levels -/

/-- A level holds orders with something left, in the order in which their slots
were handed out, which is when they came to rest, and its total is their sum
modulo `2^64`. -/
structure LevelSound (e : Engine) (level : PriceLevel) : Prop where
  nonempty : level.orders ≠ []
  fifo : level.orders.Sublist (liveSlots e.core.nodePool)
  total : ∃ orders : List OrderState, level.orders.map e.orderAt = orders.map some ∧
    (∀ order ∈ orders, 0 < order.leavesQty ∧ order.leavesQty ≤ order.orderQty) ∧
    level.totalRemaining.toNat = (orders.map (·.leavesQty.toNat)).sum % 2 ^ 64

/-- The sides are sorted best price first, and no level has price 0. -/
structure BookSound (e : Engine) (book : OrderBook) : Prop where
  bids : book.bids.Pairwise fun level next => next.1 < level.1
  asks : book.asks.Pairwise fun level next => level.1 < next.1
  levels : ∀ side, ∀ level ∈ book.sideMap side, level.1 ≠ 0 ∧ LevelSound e level.2

/-- **Representation invariant.** After any requests every book is sound. -/
theorem books_sound (alloc : Allocator) (configuration : EngineConfig) (requests : List Request) :
    ∃ e trace, Engine.run alloc configuration requests = .ok (e, trace) ∧ ∀ entry ∈ e.books, BookSound e entry.2 := by
  obtain ⟨e, trace, items, x, ran, h, valid⟩ := run_holds alloc configuration requests
  refine ⟨e, trace, ran, ?_⟩
  rintro ⟨symbol, book⟩ hb
  have sorted : ∀ side, SortedMap.Sorted (before side) (book.sideMap side) := by
    intro side
    obtain ⟨g, buckets, same⟩ := h.renders symbol book hb side
    rw [same, SortedMap.Sorted, render, List.pairwise_map]
    exact buckets.sorted
  refine ⟨sorted .buy, sorted .sell, fun side level hl => ?_⟩
  obtain ⟨g, buckets, same⟩ := h.renders symbol book hb side
  rw [same] at hl
  obtain ⟨⟨price, bucket⟩, hx, rfl⟩ := List.mem_map.1 hl
  have member : ∀ i ∈ bucket, i ∈ items ∧ i.2 ∈ x.live ∧ i.2.order.price = price := by
    intro i hi
    obtain ⟨inside, priced⟩ := (buckets.mem hx).1 hi
    have inside := (mem_sideItems.1 inside).1
    exact ⟨inside, h.mem_live inside, priced⟩
  obtain ⟨i, hi⟩ := List.exists_mem_of_ne_nil _ (buckets.nonempty _ hx)
  refine ⟨?_, ?_, ?_, bucket.map fun i => i.2.order, ?_, ?_, ?_⟩
  · have priced := valid.orderly.priced _ (member i hi).2.1
    rw [(member i hi).2.2] at priced
    exact priced
  · show bucket.map Prod.fst ≠ []
    rw [ne_eq, List.map_eq_nil_iff]
    exact buckets.nonempty _ hx
  · show (bucket.map Prod.fst).Sublist _
    rw [h.tracks.pool]
    exact ((buckets.sublist hx).trans List.filter_sublist).map _
  · show (bucket.map Prod.fst).map e.orderAt = _
    rw [List.map_map, List.map_map]
    exact List.map_congr_left fun i hi => h.orderAt (member i hi).1
  · intro order ho
    obtain ⟨i, hi, rfl⟩ := List.mem_map.1 ho
    obtain ⟨left, bound⟩ := valid.orderly.left _ (member i hi).2.1
    exact ⟨pos_iff_ne_zero.2 left, bound⟩
  · show (leavesSum bucket).toNat = _
    rw [leavesSum_toNat, List.map_map]
    rfl

end DemoExchange.Properties
