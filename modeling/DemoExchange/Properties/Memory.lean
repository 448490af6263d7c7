import DemoExchange.Refinement.Queues

/-!
# Nodes are linked, indexed and allocated together

A node leaves the books through five paths: filled in the matching loop,
cancelled, replaced, and drained from either side. Whichever it was, the books,
the index and the pool hold one set of nodes again after the request.
-/

namespace DemoExchange.Properties
set_option autoImplicit false
open OrderEntry MatchingEngine Reference Refinement Pool

/-- The books, the index and the pool hold the same nodes, each node once and
where its order belongs, and every other slot handed out has been given back. -/
structure Consistent (e : Engine) : Prop where
  once : e.linkedNodes.Nodup
  symbols : (e.books.map Prod.fst).Nodup
  prices : ∀ entry ∈ e.books, ∀ side, ((entry.2.sideMap side).map Prod.fst).Nodup
  pooled : ∀ node, node ∈ e.linkedNodes ↔ node ∈ liveSlots e.core.nodePool
  constructed : ∀ node, node ∈ e.linkedNodes ↔ ∃ n, e.heap node = some n
  linked : ∀ node n, e.heap node = some n → n.linked = true
  indexed : ∀ key node, e.core.restingIndex key = some node ↔
    node ∈ e.linkedNodes ∧ ∃ order, e.orderAt node = some order ∧ order.key = key
  filed : ∀ entry ∈ e.books, ∀ side, ∀ level ∈ entry.2.sideMap side, ∀ node ∈ level.2.orders,
    ∃ order, e.orderAt node = some order ∧ order.symbol = entry.1 ∧ order.side = side ∧ order.price = level.1
  proper : Proper e.core.nodePool
  freed : ∀ node, e.core.nodePool.count (.malloc node) =
    e.core.nodePool.count (.free node) + if node ∈ e.linkedNodes then 1 else 0

/-- The prices of the levels of a side are distinct, and a level holds orders
of its symbol, side and price. -/
theorem holds_filed {e : Engine} {items : List Item} {x : Exchange} (h : Holds e items x) {symbol : Symbol}
    {book : OrderBook} (hb : (symbol, book) ∈ e.books) (side : Side) :
    ((book.sideMap side).map Prod.fst).Nodup ∧ ∀ level ∈ book.sideMap side, ∀ node ∈ level.2.orders,
      ∃ order, e.orderAt node = some order ∧ order.symbol = symbol ∧ order.side = side ∧ order.price = level.1 := by
  obtain ⟨g, buckets, same⟩ := h.renders symbol book hb side
  rw [same]
  constructor
  · rw [render, List.map_map]
    exact buckets.sorted.nodup
  · intro level hl node hn
    obtain ⟨⟨price, bucket⟩, hx, rfl⟩ := List.mem_map.1 hl
    obtain ⟨i, hi, rfl⟩ := List.mem_map.1 hn
    obtain ⟨member, price⟩ := (buckets.mem hx).1 hi
    obtain ⟨member, own⟩ := mem_sideItems.1 member
    exact ⟨i.2.order, h.orderAt member, own.1, own.2, price⟩

/-- **One set of nodes.** Whatever the requests, the engine never reaches an
assertion that fails, a node that is not there or a node that is still linked
when it is freed, and its books, index and pool hold the same nodes. -/
theorem engine_consistent (alloc : Allocator) (configuration : EngineConfig) (requests : List Request) :
    ∃ e trace, Engine.run alloc configuration requests = .ok (e, trace) ∧ Consistent e := by
  obtain ⟨e, ran, ⟨items, h⟩, -⟩ := engine_run alloc configuration requests
  have pooled : ∀ node, node ∈ e.linkedNodes ↔ node ∈ liveSlots e.core.nodePool := by
    intro node
    rw [h.mem_linkedNodes, h.tracks.pool, List.mem_map]
  refine ⟨e, _, ran, h.linkedNodes_nodup, h.unique, fun y hy side => (holds_filed h hy side).1, pooled, ?_, ?_, ?_,
    fun y hy side => (holds_filed h hy side).2, h.tracks.proper, ?_⟩
  · intro node
    rw [h.mem_linkedNodes]
    constructor
    · rintro ⟨i, hi, rfl⟩
      exact ⟨_, h.tracks.heap_eq hi⟩
    · rintro ⟨n, slot⟩
      obtain ⟨i, hi, same, -⟩ := (h.tracks.slots node n).1 slot
      exact ⟨i, hi, same⟩
  · intro node n slot
    obtain ⟨i, -, -, same⟩ := (h.tracks.slots node n).1 slot
    rw [same]
  · intro key node
    rw [h.tracks.index, h.mem_linkedNodes]
    constructor
    · rintro ⟨i, hi, rfl, keyed⟩
      exact ⟨⟨i, hi, rfl⟩, i.2.order, h.orderAt hi, keyed⟩
    · rintro ⟨⟨i, hi, rfl⟩, order, found, keyed⟩
      rw [h.orderAt hi] at found
      cases found
      exact ⟨i, hi, rfl, keyed⟩
  · intro node
    rw [h.tracks.proper.count node]
    congr 1
    exact if_congr (pooled node).symm rfl rfl

end DemoExchange.Properties
