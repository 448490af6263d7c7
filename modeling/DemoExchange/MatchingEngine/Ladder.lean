import DemoExchange.Lib.Buckets
import DemoExchange.MatchingEngine.OrderBook

/-!
# The ladder of a list of orders

A side map is the `Ladder` of a list of resting orders when it is the list
sorted into buckets by price, a level being the addresses of its bucket and the
sum of what is left of its orders. `place_into` adds an order at the end of the
list and `cancel_from` takes one out of it.
-/

namespace DemoExchange.MatchingEngine
set_option autoImplicit false
open OrderEntry

section Ladder

variable {α : Type} (addr : α → Addr) (order : α → OrderState)

/-- What is left of some orders, in the arithmetic of the total. -/
def sumLeaves (l : List α) : Quantity := (l.map fun a => (order a).leavesQty).sum

/-- The level that holds some orders. -/
def levelHolding (l : List α) : PriceLevel := ⟨l.map addr, sumLeaves order l⟩

/-- The side map holds exactly the orders of a list, by price and then in their order. -/
def Ladder (side : Side) (m : SideMap) (l : List α) : Prop :=
  ∃ g, Buckets.Of (before side) (fun a => (order a).price) g l ∧ m = g.map (Prod.map id (levelHolding addr order))

theorem sumLeaves_append (l : List α) (a : α) : sumLeaves order (l ++ [a]) = sumLeaves order l + (order a).leavesQty := by
  simp [sumLeaves]

theorem sumLeaves_cons (a : α) (l : List α) : sumLeaves order (a :: l) = (order a).leavesQty + sumLeaves order l := by
  simp [sumLeaves]

variable {addr order} {side : Side} {m m' : SideMap} {l : List α} {a : α} {heap : Heap}

theorem Ladder.nil : Ladder addr order side [] [] := ⟨[], .nil _ _, rfl⟩

/-- A list has one ladder. -/
theorem Ladder.unique (h : Ladder addr order side m l) (h' : Ladder addr order side m' l) : m = m' := by
  obtain ⟨g, buckets, rfl⟩ := h
  obtain ⟨g', buckets', rfl⟩ := h'
  rw [buckets.unique buckets']

/-- Placing an unlinked node puts its order at the end. -/
theorem Ladder.place (h : Ladder addr order side m l) (slot : heap (addr a) = some ⟨false, order a⟩) :
    ∃ m', placeInto side m heap (addr a) = .ok (m', Function.update heap (addr a) (some ⟨true, order a⟩)) ∧
      Ladder addr order side m' (l ++ [a]) := by
  obtain ⟨g, buckets, rfl⟩ := h
  refine ⟨_, ?_, _, buckets.snoc a, rfl⟩
  have append : ∀ b : List α, levelHolding addr order (b ++ [a]) =
      PriceLevel.append (addr a) (order a).leavesQty (levelHolding addr order b) := by
    intro b
    simp only [levelHolding, PriceLevel.append, List.map_append, List.map_singleton, sumLeaves_append]
  rw [SortedMap.upsert_map (levelHolding addr order) rfl append g]
  simp only [placeInto, deref, link, slot, bind, Except.bind, pure, Except.pure, Bool.false_eq_true, if_false]
  rfl

/-- All orders but the one at an address. -/
def butAt (addr : α → Addr) (node : Addr) (l : List α) : List α := l.filter fun b => addr b ≠ node

theorem butAt_cons (b : α) (l : List α) (node : Addr) :
    butAt addr node (b :: l) = if addr b = node then butAt addr node l else b :: butAt addr node l := by
  by_cases same : addr b = node <;> simp [butAt, same]

theorem butAt_absent {node : Addr} (absent : node ∉ l.map addr) : butAt addr node l = l := by
  rw [butAt, List.filter_eq_self]
  intro b member
  exact decide_eq_true fun same => absent (List.mem_map.2 ⟨b, member, same⟩)

theorem sumLeaves_butAt (distinct : (l.map addr).Nodup) (member : a ∈ l) :
    sumLeaves order l = (order a).leavesQty + sumLeaves order (butAt addr (addr a) l) := by
  induction l with
  | nil => cases member
  | cons b l ih =>
    obtain ⟨absent, distinct⟩ := List.nodup_cons.1 distinct
    rw [butAt_cons]
    rcases List.mem_cons.1 member with rfl | member
    · rw [if_pos rfl, butAt_absent absent, sumLeaves_cons]
    · have apart : addr b ≠ addr a := fun same => absent (List.mem_map.2 ⟨a, member, same.symm⟩)
      rw [if_neg apart, sumLeaves_cons, sumLeaves_cons, ih distinct member, ← UInt64.add_assoc, ← UInt64.add_assoc,
        UInt64.add_comm (order b).leavesQty]

theorem erase_butAt {node : Addr} (distinct : (l.map addr).Nodup) : (l.map addr).erase node = (butAt addr node l).map addr := by
  rw [List.Nodup.erase_eq_filter distinct, butAt, List.filter_map]
  congr 1
  apply List.filter_congr
  intro b _
  by_cases same : addr b = node <;> simp [same]

variable (addr) in
/-- The level of a price is found. -/
theorem lookup_levelHolding {g : List (Price × List α)} {price : Price} {bucket : List α}
    (h : Buckets.Of (before side) (fun a => (order a).price) g l) (inside : (price, bucket) ∈ g) :
    (g.map (Prod.map id (levelHolding addr order))).lookup price = some (levelHolding addr order bucket) := by
  have keys : (g.map (Prod.map id (levelHolding addr order))).map Prod.fst = g.map Prod.fst := by
    rw [List.map_map]
    rfl
  rw [SortedMap.lookup_eq_some (by rw [keys]; exact h.sorted.nodup)]
  exact List.mem_map.2 ⟨_, inside, rfl⟩

/-- **Cancelling a linked node** takes its order out, and unlinks it. -/
theorem Ladder.cancel (h : Ladder addr order side m l) (distinct : (l.map addr).Nodup) (member : a ∈ l)
    (slot : heap (addr a) = some ⟨true, order a⟩) :
    ∃ m', cancelFrom m heap (addr a) = .ok (m', Function.update heap (addr a) (some ⟨false, order a⟩)) ∧
      Ladder addr order side m' (butAt addr (addr a) l) := by
  obtain ⟨g, buckets, rfl⟩ := h
  have inside := buckets.lookup member
  have found := lookup_levelHolding addr buckets inside
  have inBucket := (buckets.mem inside).2 ⟨member, rfl⟩
  have sub := buckets.sublist inside
  generalize l.filter (fun c => (order c).price = (order a).price) = bucket at inside found inBucket sub
  have distinctHere : (bucket.map addr).Nodup := distinct.sublist (sub.map _)
  -- only the bucket of the order's price changes
  have only : ∀ b ∈ l, decide (addr b ≠ addr a) = false → (order b).price = (order a).price := by
    intro b inside same
    rw [List.inj_on_of_nodup_map distinct inside member (by simpa using same)]
  have node : addr a ∈ (levelHolding addr order bucket).orders := List.mem_map_of_mem inBucket
  have orders : (levelHolding addr order bucket).orders.erase (addr a) = (butAt addr (addr a) bucket).map addr :=
    erase_butAt distinctHere
  have total : (levelHolding addr order bucket).totalRemaining - (order a).leavesQty =
      sumLeaves order (butAt addr (addr a) bucket) := by
    rw [levelHolding, sumLeaves_butAt distinctHere inBucket, UInt64.add_comm, UInt64.add_sub_cancel]
  simp only [cancelFrom, deref, slot, bind, Except.bind, found, node, not_true_eq_false, if_false, unlink, if_true, orders, total,
    List.map_eq_nil_iff]
  by_cases empty : butAt addr (addr a) bucket = []
  · refine ⟨SortedMap.drop (order a).price (g.map (Prod.map id (levelHolding addr order))), by simp only [empty, if_true]; rfl, _,
      buckets.empty only inside empty, ?_⟩
    simp only [SortedMap.drop, List.filter_map]
    rfl
  · refine ⟨SortedMap.put (order a).price (levelHolding addr order (butAt addr (addr a) bucket))
      (g.map (Prod.map id (levelHolding addr order))), by simp only [empty, if_false]; rfl, _, buckets.shrink only inside empty, ?_⟩
    simp only [SortedMap.put, List.map_map]
    apply List.map_congr_left
    intro x _
    simp only [Function.comp, Prod.map, id]
    split <;> rfl

/-- What taking an order out leaves of every level: the others in their order, and no level of which it was the last. -/
theorem Ladder.levels_butAt {node : Addr} (h : Ladder addr order side m l) (h' : Ladder addr order side m' (butAt addr node l)) :
    m'.map (Prod.map id PriceLevel.orders) =
      ((m.map (Prod.map id PriceLevel.orders)).map (Prod.map id (List.filter fun a => a ≠ node))).filter fun x => x.2 ≠ [] := by
  obtain ⟨g, buckets, rfl⟩ := h
  obtain ⟨g', buckets', rfl⟩ := h'
  have addresses : ∀ g : List (Price × List α), (g.map (Prod.map id (levelHolding addr order))).map (Prod.map id PriceLevel.orders) =
      g.map (Prod.map id (List.map addr)) := by
    intro g
    rw [List.map_map]
    rfl
  have shrunk : (g.map (Prod.map id (List.map addr))).map (Prod.map id (List.filter fun a => a ≠ node)) =
      (g.map (Prod.map id (List.filter fun b => addr b ≠ node))).map (Prod.map id (List.map addr)) := by
    rw [List.map_map, List.map_map]
    apply List.map_congr_left
    intro x _
    simp only [Function.comp, Prod.map, id, List.filter_map]
    rfl
  rw [addresses, addresses, buckets'.unique (buckets.filter fun b => addr b ≠ node), shrunk]
  generalize g.map (Prod.map id (List.filter fun b => addr b ≠ node)) = kept
  rw [List.filter_map]
  congr 1
  apply List.filter_congr
  intro x _
  simp only [Function.comp, Prod.map, id, ne_eq, List.map_eq_nil_iff]

/-- The orders at a price. -/
def atPrice (order : α → OrderState) (price : Price) (l : List α) : List α := l.filter fun a => (order a).price = price

theorem mem_buckets {g : List (Price × List α)} (h : Buckets.Of (before side) (fun a => (order a).price) g l) {price : Price}
    {b : List α} : (price, b) ∈ g ↔ atPrice order price l ≠ [] ∧ b = atPrice order price l := by
  constructor
  · intro inside
    have bucket : b = atPrice order price l := h.bucket _ inside
    exact ⟨bucket ▸ h.nonempty _ inside, bucket⟩
  · rintro ⟨some, rfl⟩
    obtain ⟨a, member⟩ := List.exists_mem_of_ne_nil _ some
    obtain ⟨member, priced⟩ := List.mem_filter.1 member
    have inside := h.lookup member
    simp only [of_decide_eq_true priced] at inside
    exact inside

/-- The first level is the best one. -/
theorem best_iff {g : List (Price × List α)} {first price : Price} {b : List α}
    (h : Buckets.Of (before side) (fun a => (order a).price) ((first, b) :: g) l) :
    first = price ↔ atPrice order price l ≠ [] ∧ ∀ a ∈ l, ¬ before side (order a).price price := by
  obtain ⟨some, front⟩ := (mem_buckets h).1 List.mem_cons_self
  constructor
  · rintro rfl
    refine ⟨some, fun a member better => ?_⟩
    rcases h.least member with same | behind
    · rw [same] at better
      exact irrefl _ better
    · exact irrefl _ (Trans.trans better behind)
  · rintro ⟨priced, least⟩
    obtain ⟨a, member⟩ := List.exists_mem_of_ne_nil _ priced
    obtain ⟨member, priced⟩ := List.mem_filter.1 member
    rcases h.least member with same | behind
    · rw [← same]
      exact of_decide_eq_true priced
    · obtain ⟨c, member⟩ := List.exists_mem_of_ne_nil _ some
      obtain ⟨member, there⟩ := List.mem_filter.1 member
      rw [of_decide_eq_true priced, ← of_decide_eq_true there] at behind
      exact absurd behind (least c member)

theorem Ladder.sorted (h : Ladder addr order side m l) : SortedMap.Sorted (before side) m := by
  obtain ⟨g, buckets, rfl⟩ := h
  rw [SortedMap.Sorted, List.pairwise_map]
  exact buckets.sorted

/-- The levels are those of the prices that some order has. -/
theorem Ladder.mem_levels (h : Ladder addr order side m l) (price : Price) (level : PriceLevel) :
    (price, level) ∈ m ↔ atPrice order price l ≠ [] ∧ level = levelHolding addr order (atPrice order price l) := by
  obtain ⟨g, buckets, rfl⟩ := h
  rw [List.mem_map]
  constructor
  · rintro ⟨⟨_, b⟩, inside, ⟨⟩⟩
    obtain ⟨some, same⟩ := (mem_buckets buckets).1 inside
    exact ⟨some, congrArg _ same⟩
  · rintro ⟨some, rfl⟩
    exact ⟨_, (mem_buckets buckets).2 ⟨some, rfl⟩, rfl⟩

theorem Ladder.best_none (h : Ladder addr order side m l) : bestPrice m = none ↔ l = [] := by
  obtain ⟨g, buckets, rfl⟩ := h
  match g with
  | [] => exact iff_of_true rfl buckets.eq_nil
  | (first, b) :: g =>
    apply iff_of_false nofun
    rintro rfl
    exact ((mem_buckets buckets).1 List.mem_cons_self).1 rfl

/-- **The best price** is that of an order that no other is before. -/
theorem Ladder.best_some (h : Ladder addr order side m l) (price : Price) :
    bestPrice m = some price ↔ atPrice order price l ≠ [] ∧ ∀ a ∈ l, ¬ before side (order a).price price := by
  obtain ⟨g, buckets, rfl⟩ := h
  match g with
  | [] =>
    obtain rfl := buckets.eq_nil
    exact iff_of_false nofun fun best => best.1 rfl
  | (first, b) :: g =>
    rw [← best_iff buckets]
    exact Option.some_inj

/-- What is left at the best price. -/
theorem Ladder.best_level (h : Ladder addr order side m l) :
    bestLevelOf m = (bestPrice m).map fun price => ⟨price, sumLeaves order (atPrice order price l)⟩ := by
  obtain ⟨g, buckets, rfl⟩ := h
  match g with
  | [] => rfl
  | (first, b) :: g =>
    obtain ⟨-, rfl⟩ := (mem_buckets buckets).1 List.mem_cons_self
    rfl

end Ladder

end DemoExchange.MatchingEngine
