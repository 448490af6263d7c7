import DemoExchange.Reference.Orderly
import DemoExchange.Refinement.Drain

/-!
# When an engine holds an exchange

`Holds e items x`: the memory of the engine `e` tracks `items`, its books
render them by symbol and side, and the live orders of `x` are theirs. The
lemmas read the index and the best prices of the engine off the exchange, and
rebuild the relation after one side of one book has changed.
-/

namespace DemoExchange.Refinement
set_option autoImplicit false
open OrderEntry MatchingEngine Reference Pool Engine

structure Holds (e : Engine) (items : List Item) (x : Exchange) : Prop where
  tracks : Tracks e.heap e.core items
  live : items.map Prod.snd = x.live
  unique : (e.books.map Prod.fst).Nodup
  configured : ∀ s, s ∈ e.books.map Prod.fst ↔ s ∈ x.configured
  renders : ∀ s b, (s, b) ∈ e.books → ∀ side, Renders side (b.sideMap side) (sideItems items s side)
  known : ∀ o ∈ x.live, o.order.symbol ∈ x.configured
  arrivals : ∀ o ∈ x.live, o.arrival < x.nextArrival

/-- The engine's state is that of the exchange. -/
def Represents (e : Engine) (x : Exchange) : Prop := ∃ items, Holds e items x

section Reading

variable {e : Engine} {items : List Item} {x : Exchange} {symbol : Symbol} {book : OrderBook}

theorem Holds.mem_live (h : Holds e items x) {i : Item} (hi : i ∈ items) : i.2 ∈ x.live := by
  rw [← h.live]
  exact List.mem_map_of_mem hi

theorem Holds.lookup (h : Holds e items x) : e.books.lookup symbol = some book ↔ (symbol, book) ∈ e.books :=
  SortedMap.lookup_eq_some h.unique

/-- A key is in the index exactly when a live order has it, and at its node. -/
theorem Holds.find (h : Holds e items x) (key : OrderKey) :
    (e.core.restingIndex key = none ∧ x.find? key = none) ∨
      ∃ i ∈ items, i.2.order.key = key ∧ e.core.restingIndex key = some i.1 ∧ x.find? key = some i.2 := by
  cases found : e.core.restingIndex key with
  | none =>
    refine .inl ⟨rfl, List.find?_eq_none.2 fun o ho => ?_⟩
    rw [← h.live] at ho
    obtain ⟨i, hi, rfl⟩ := List.mem_map.1 ho
    simpa using h.tracks.index_none.1 found i hi
  | some a =>
    obtain ⟨i, hi, rfl, same⟩ := (h.tracks.index key a).1 found
    refine .inr ⟨i, hi, same, rfl, ?_⟩
    cases result : x.find? key with
    | none =>
      have absent := List.find?_eq_none.1 result i.2 (h.mem_live hi)
      exact absurd same (by simpa using absent)
    | some o =>
      have member : o ∈ x.live := List.mem_of_find?_eq_some result
      have keyed : o.order.key = key := by simpa using List.find?_some result
      rw [← h.live] at member
      obtain ⟨j, hj, rfl⟩ := List.mem_map.1 member
      rw [h.tracks.key_inj hj hi (keyed.trans same.symm)]

/-- A key is free in the index exactly when no live order has it. -/
theorem Holds.free (h : Holds e items x) {key : OrderKey} : e.core.restingIndex key = none ↔ x.find? key = none := by
  obtain ⟨free, absent⟩ | ⟨i, -, -, found, live⟩ := h.find key
  · simp [free, absent]
  · simp [found, live]

theorem Holds.exists_book (h : Holds e items x) (known : symbol ∈ x.configured) : ∃ book, (symbol, book) ∈ e.books := by
  obtain ⟨⟨s, book⟩, hb, rfl⟩ := List.mem_map.1 ((h.configured _).2 known)
  exact ⟨book, hb⟩

theorem Holds.noBook (h : Holds e items x) : e.books.lookup symbol = none ↔ symbol ∉ x.configured := by
  rw [← Option.not_isSome_iff_eq_none, SortedMap.lookup_isSome, h.configured]

theorem Holds.bestLevel (h : Holds e items x) (hb : (symbol, book) ∈ e.books) (side : Side) :
    book.bestLevel side = topOfBook x.live symbol side := by
  rw [← h.live]
  exact (h.renders symbol book hb side).bestLevel h.tracks.arrivals

theorem Holds.best (h : Holds e items x) (hb : (symbol, book) ∈ e.books) (side : Side) :
    book.best side = bestPriceOn x.live symbol side := by
  rw [OrderBook.best_eq, ← h.live]
  exact (h.renders symbol book hb side).bestPrice h.tracks.arrivals

/-- The update emitted for a book of the engine is that of the exchange. -/
theorem Holds.emitMbo (h : Holds e items x) (hb : (symbol, book) ∈ e.books) (out : Outbox) (side : Side)
    (securityId : SecurityId) :
    out.emitMboBookUpdate book side securityId = emit out (bookUpdate x.live symbol side securityId) := by
  rw [Outbox.emitMboBookUpdate, h.bestLevel hb, mboBookUpdate_eq, onMarketData_eq, bookUpdate]

theorem Holds.updateOut (h : Holds e items x) (f : Outbox → Outbox) : Holds (e.updateOut f) items x :=
  ⟨h.tracks.withOut _, h.live, h.unique, h.configured, h.renders, h.known, h.arrivals⟩

end Reading

section Writing

variable {e : Engine} {items items' : List Item} {x x' : Exchange} {symbol : Symbol} {book book' : OrderBook}
  {side : Side} {m : SideMap} {heap' : Heap} {core' : Core}

theorem setBook_setBook (e : Engine) (symbol : Symbol) (book book' : OrderBook) :
    (e.setBook symbol book).setBook symbol book' = e.setBook symbol book' := by
  simp only [setBook, SortedMap.put, List.map_map]
  congr 1
  apply List.map_congr_left
  intro y _
  by_cases same : y.1 = symbol <;> simp [same]

theorem Holds.mem_setBook (keys : symbol ∈ e.books.map Prod.fst) : (symbol, book) ∈ (e.setBook symbol book).books := by
  obtain ⟨⟨s, b⟩, hb, rfl⟩ := List.mem_map.1 keys
  exact SortedMap.mem_put.2 (.inr ⟨rfl, b, hb⟩)

/-- Writing back the book that is there changes nothing. -/
theorem Holds.setBook_self (h : Holds e items x) (hb : (symbol, book) ∈ e.books) : e.setBook symbol book = e := by
  have same : SortedMap.put symbol book e.books = e.books := by
    unfold SortedMap.put
    conv_rhs => rw [← List.map_id e.books]
    refine List.map_congr_left fun y hy => ?_
    by_cases key : y.1 = symbol
    · obtain ⟨s, b⟩ := y
      subst key
      have unique := h.lookup.2 hy
      rw [h.lookup.2 hb] at unique
      simp [Option.some.inj unique]
    · simp [key]
  simp only [setBook, same]

/-- **One side of one book has changed**: the side map renders the new items of
the side, and the items of every other side are what they were. -/
theorem Holds.change (h : Holds e items x) (hb : (symbol, book) ∈ e.books) (tracks : Tracks heap' core' items')
    (live : items'.map Prod.snd = x'.live) (configured : x'.configured = x.configured)
    (renders : Renders side m (sideItems items' symbol side))
    (others : ∀ s sd, ¬(s = symbol ∧ sd = side) → sideItems items' s sd = sideItems items s sd)
    (known : ∀ o ∈ x'.live, o.order.symbol ∈ x'.configured) (arrivals : ∀ o ∈ x'.live, o.arrival < x'.nextArrival) :
    Holds ({ e with heap := heap', core := core' }.setBook symbol (book.withSideMap side m)) items' x' where
  tracks := tracks
  live := live
  unique := by
    simp only [setBook, SortedMap.keys_put]
    exact h.unique
  configured := by
    simp only [setBook, SortedMap.keys_put, configured]
    exact h.configured
  renders := by
    intro s b hb' sd
    rcases SortedMap.mem_put.1 hb' with ⟨other, ne⟩ | ⟨same, -⟩
    · rw [others s sd fun both => ne both.1]
      exact h.renders s b other sd
    · cases same
      by_cases here : sd = side
      · subst here
        rw [OrderBook.sideMap_withSideMap]
        exact renders
      · rw [OrderBook.sideMap_withSideMap_ne book here, others _ sd fun both => here both.2]
        exact h.renders _ book hb sd
  known := known
  arrivals := arrivals

end Writing

end DemoExchange.Refinement
