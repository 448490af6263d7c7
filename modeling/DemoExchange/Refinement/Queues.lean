import DemoExchange.Refinement.Runs

/-!
# The queue of a side

Read level by level and front to back, one side of a book is the queue of its
live orders by rank. `Holds.queue` gives the queue; the lemmas after it say
which nodes are linked where.
-/

namespace DemoExchange.Refinement
set_option autoImplicit false
open OrderEntry MatchingEngine Reference Pool

section Queues

variable {e : Engine} {items : List Item} {x : Exchange} {symbol : Symbol} {book : OrderBook}

theorem render_nodes (g : List (Price × List Item)) :
    (render g).flatMap (·.2.orders) = (g.flatMap Prod.snd).map Prod.fst := by
  rw [render, List.flatMap_map, List.map_flatMap]
  rfl

/-- One side of a book, in priority order. -/
theorem Holds.queue (h : Holds e items x) (hb : (symbol, book) ∈ e.books) (side : Side) :
    ∃ queue : List Item, queue.Perm (sideItems items symbol side) ∧
      queue.Pairwise (fun i j => rank i.2 < rank j.2) ∧ book.nodes side = queue.map Prod.fst := by
  obtain ⟨g, buckets, same⟩ := h.renders symbol book hb side
  have arrivals : (sideItems items symbol side).Pairwise fun i j => i.2.arrival < j.2.arrival :=
    h.tracks.arrivals.sublist List.filter_sublist
  refine ⟨g.flatMap Prod.snd, buckets.perm, ?_, ?_⟩
  · refine (buckets.pairwise arrivals).imp_of_mem fun {i j} hi hj before => ?_
    have sides : i.2.order.side = j.2.order.side :=
      (mem_sideItems.1 (buckets.perm.mem_iff.1 hi)).2.2.trans (mem_sideItems.1 (buckets.perm.mem_iff.1 hj)).2.2.symm
    rw [rank, rank, Prod.Lex.toLex_lt_toLex, ← sides, (mem_sideItems.1 (buckets.perm.mem_iff.1 hi)).2.2]
    obtain ahead | ⟨price, earlier⟩ := before
    · exact .inl (before_iff_rank.1 ahead)
    · exact .inr ⟨by rw [show i.2.order.price = j.2.order.price from price], earlier⟩
  · rw [OrderBook.nodes, same, render_nodes]

theorem Holds.mem_nodes (h : Holds e items x) (hb : (symbol, book) ∈ e.books) {side : Side} {a : Addr} :
    a ∈ book.nodes side ↔ ∃ i ∈ items, i.1 = a ∧ OnSide symbol side i.2.order := by
  obtain ⟨queue, perm, -, nodes⟩ := h.queue hb side
  rw [nodes, List.mem_map]
  constructor
  · rintro ⟨i, hi, rfl⟩
    obtain ⟨member, inside⟩ := mem_sideItems.1 (perm.mem_iff.1 hi)
    exact ⟨i, member, rfl, inside⟩
  · rintro ⟨i, hi, rfl, inside⟩
    exact ⟨i, perm.mem_iff.2 (mem_sideItems.2 ⟨hi, inside⟩), rfl⟩

/-- A node is in at most one side of one book. -/
theorem Holds.node_side (h : Holds e items x) {symbol' : Symbol} {book' : OrderBook} {side side' : Side} {a : Addr}
    (hb : (symbol, book) ∈ e.books) (hb' : (symbol', book') ∈ e.books) (here : a ∈ book.nodes side)
    (there : a ∈ book'.nodes side') : symbol = symbol' ∧ side = side' := by
  obtain ⟨i, hi, rfl, inside⟩ := (h.mem_nodes hb).1 here
  obtain ⟨j, hj, same, inside'⟩ := (h.mem_nodes hb').1 there
  rw [h.tracks.addr_inj hj hi same] at inside'
  exact ⟨inside.1.symm.trans inside'.1, inside.2.symm.trans inside'.2⟩

theorem Holds.nodes_nodup (h : Holds e items x) (hb : (symbol, book) ∈ e.books) (side : Side) :
    (book.nodes side).Nodup := by
  obtain ⟨queue, perm, -, nodes⟩ := h.queue hb side
  rw [nodes, (perm.map _).nodup_iff]
  exact h.tracks.nodup.sublist (List.filter_sublist.map _)

theorem Holds.mem_linkedNodes (h : Holds e items x) {a : Addr} : a ∈ e.linkedNodes ↔ ∃ i ∈ items, i.1 = a := by
  rw [Engine.linkedNodes, List.mem_flatMap]
  constructor
  · rintro ⟨⟨symbol, book⟩, hb, member⟩
    rcases List.mem_append.1 member with member | member
    · obtain ⟨i, hi, same, -⟩ := (h.mem_nodes hb).1 member
      exact ⟨i, hi, same⟩
    · obtain ⟨i, hi, same, -⟩ := (h.mem_nodes hb).1 member
      exact ⟨i, hi, same⟩
  · rintro ⟨i, hi, rfl⟩
    obtain ⟨book, hb⟩ := h.exists_book (h.known _ (h.mem_live hi))
    refine ⟨_, hb, List.mem_append.2 ?_⟩
    cases side : i.2.order.side with
    | buy => exact .inl ((h.mem_nodes hb).2 ⟨i, hi, rfl, rfl, side⟩)
    | sell => exact .inr ((h.mem_nodes hb).2 ⟨i, hi, rfl, rfl, side⟩)

/-- Every linked node is linked once. -/
theorem Holds.linkedNodes_nodup (h : Holds e items x) : e.linkedNodes.Nodup := by
  rw [Engine.linkedNodes, List.nodup_flatMap]
  constructor
  · rintro ⟨symbol, book⟩ hb
    refine List.nodup_append.2 ⟨h.nodes_nodup hb _, h.nodes_nodup hb _, ?_⟩
    rintro a here b there rfl
    cases (h.node_side hb hb here there).2
  · have distinct := h.unique
    rw [List.Nodup, List.pairwise_map] at distinct
    refine distinct.imp_of_mem fun {y z} hy hz ne => ?_
    intro a here there
    obtain here | here := List.mem_append.1 here
    · obtain there | there := List.mem_append.1 there
      · exact ne (h.node_side hy hz here there).1
      · exact ne (h.node_side hy hz here there).1
    · obtain there | there := List.mem_append.1 there
      · exact ne (h.node_side hy hz here there).1
      · exact ne (h.node_side hy hz here there).1

theorem Holds.orderAt (h : Holds e items x) {i : Item} (hi : i ∈ items) : e.orderAt i.1 = some i.2.order := by
  rw [Engine.orderAt, h.tracks.heap_eq hi]
  rfl

/-- The index reads the live order of a key. -/
theorem Holds.liveOrder (h : Holds e items x) (key : OrderKey) : e.liveOrder key = (x.find? key).map (·.order) := by
  unfold Engine.liveOrder
  obtain ⟨free, absent⟩ | ⟨i, hi, -, found, live⟩ := h.find key
  · rw [free, absent]
    rfl
  · rw [found, live]
    exact h.orderAt hi

end Queues

end DemoExchange.Refinement
