import DemoExchange.MatchingEngine.Ladder
import DemoExchange.Refinement.Tracking

/-!
# Side maps and live orders

A side map `Renders` a list of items when it is the list sorted into buckets
by price, a level being the addresses of its bucket and the sum of what is
left of its orders. `place`, `cancel` and the best-price accessors of such a
map are an append, a removal and the best live order of the list.
-/

namespace DemoExchange.Refinement
set_option autoImplicit false
open OrderEntry MatchingEngine Reference

def itemPrice (i : Item) : Price := i.2.order.price

/-- What is left of the orders of a level, in the arithmetic of the total. -/
def leavesSum (items : List Item) : Quantity := (items.map fun i => i.2.order.leavesQty).sum

/-- The level that holds these items. -/
def levelOf (items : List Item) : PriceLevel := ⟨items.map Prod.fst, leavesSum items⟩

def render (g : List (Price × List Item)) : SideMap := g.map (Prod.map id levelOf)

/-- The side map holds exactly `items`, by price and then by arrival. -/
def Renders (side : Side) (m : SideMap) (items : List Item) : Prop :=
  ∃ g, Buckets.Of (before side) itemPrice g items ∧ m = render g

/-- The items of one side of one symbol. -/
def sideItems (items : List Item) (symbol : Symbol) (side : Side) : List Item :=
  items.filter fun i => OnSide symbol side i.2.order

theorem sideItems_live (items : List Item) (symbol : Symbol) (side : Side) :
    (sideItems items symbol side).map Prod.snd = sideOf (items.map Prod.snd) symbol side := by
  rw [sideOf, List.filter_map]
  rfl

theorem mem_sideItems {items : List Item} {symbol : Symbol} {side : Side} {i : Item} :
    i ∈ sideItems items symbol side ↔ i ∈ items ∧ OnSide symbol side i.2.order := by
  simp [sideItems]

theorem sideItems_without (arrival : Nat) (items : List Item) (symbol : Symbol) (side : Side) :
    sideItems (without arrival items) symbol side = without arrival (sideItems items symbol side) := by
  simp only [sideItems, without, List.filter_filter, Bool.and_comm]

theorem toNat_sum (quantities : List Quantity) : quantities.sum.toNat = (quantities.map UInt64.toNat).sum % 2 ^ 64 := by
  induction quantities with
  | nil => rfl
  | cons q quantities ih =>
    rw [List.sum_cons, UInt64.toNat_add, ih, List.map_cons, List.sum_cons, Nat.add_mod_mod]

/-- The total is the sum of the quantities modulo `2^64`. -/
theorem leavesSum_toNat (items : List Item) :
    (leavesSum items).toNat = (items.map fun i => i.2.order.leavesQty.toNat).sum % 2 ^ 64 := by
  rw [leavesSum, toNat_sum, List.map_map]
  rfl

@[simp] theorem leavesSum_cons (i : Item) (items : List Item) :
    leavesSum (i :: items) = i.2.order.leavesQty + leavesSum items := by
  simp [leavesSum]

/-! ## The best level -/

theorem before_iff_rank {side : Side} {p q : Price} : before side p q ↔ priceRank side p < priceRank side q := by
  have hp := UInt64.toNat_lt p
  have hq := UInt64.toNat_lt q
  cases side with
  | buy =>
    simp only [before, priceRank, UInt64.lt_iff_toNat_lt]
    unfold UInt64.size
    omega
  | sell => simp only [before, priceRank, UInt64.lt_iff_toNat_lt]

theorem rank_le_of_before {o c : LiveOrder} (same : o.order.side = c.order.side)
    (ahead : before o.order.side o.order.price c.order.price) : rank o ≤ rank c := by
  rw [rank, rank, Prod.Lex.toLex_le_toLex]
  left
  simpa only [same] using before_iff_rank.1 ahead

theorem rank_le_of_arrival {o c : LiveOrder} (same : o.order.side = c.order.side)
    (price : o.order.price = c.order.price) (earlier : o.arrival ≤ c.arrival) : rank o ≤ rank c := by
  rw [rank, rank, Prod.Lex.toLex_le_toLex]
  exact .inr ⟨by simp only [same, price], earlier⟩

section Best

variable {items : List Item} {symbol : Symbol} {side : Side} {price : Price} {i : Item} {bucket : List Item}
  {g : List (Price × List Item)}

/-- **The head of the first bucket is the best live order** of its side. -/
theorem best_of_buckets (arrivals : items.Pairwise fun i j => i.2.arrival < j.2.arrival)
    (h : Buckets.Of (before side) itemPrice ((price, i :: bucket) :: g) (sideItems items symbol side)) :
    bestOn (items.map Prod.snd) symbol side = some i.2 := by
  have first := (h.mem List.mem_cons_self).1 (List.mem_cons_self (a := i) (l := bucket))
  have inside := (mem_sideItems.1 first.1).2
  have member : i.2 ∈ sideOf (items.map Prod.snd) symbol side := by
    rw [← sideItems_live]
    exact List.mem_map_of_mem first.1
  have least : ∀ o ∈ sideOf (items.map Prod.snd) symbol side, rank i.2 ≤ rank o := by
    intro o ho
    rw [← sideItems_live] at ho
    obtain ⟨j, hj, rfl⟩ := List.mem_map.1 ho
    have sides : i.2.order.side = j.2.order.side := inside.2.trans (mem_sideItems.1 hj).2.2.symm
    rcases h.least hj with same | behind
    · refine rank_le_of_arrival sides (first.2.trans same.symm) ?_
      have ordered : (i :: bucket).Pairwise fun i j => i.2.arrival < j.2.arrival := by
        rw [show i :: bucket = _ from h.bucket _ List.mem_cons_self]
        exact (arrivals.filter _).filter _
      rcases List.mem_cons.1 ((h.mem List.mem_cons_self).2 ⟨hj, same⟩) with rfl | later
      · exact Nat.le_refl _
      · exact Nat.le_of_lt ((List.pairwise_cons.1 ordered).1 j later)
    · refine rank_le_of_before sides ?_
      rw [inside.2, show i.2.order.price = price from first.2]
      exact behind
  obtain ⟨o, best⟩ : ∃ o, bestOn (items.map Prod.snd) symbol side = some o := by
    rw [← Option.ne_none_iff_exists']
    intro none
    rw [List.argmin_eq_none.1 none] at member
    cases member
  have inside' := List.argmin_mem (Option.mem_def.2 best)
  have tie : rank o = rank i.2 := le_antisymm (List.le_of_mem_argmin member best) (least o inside')
  have arrival : o.arrival = i.2.arrival := congrArg (fun r => (ofLex r).2) tie
  rw [← sideItems_live] at inside'
  obtain ⟨j, hj, rfl⟩ := List.mem_map.1 inside'
  have distinct : (items.map fun i => i.2.arrival).Nodup := by
    rw [List.Nodup, List.pairwise_map]
    exact arrivals.imp Nat.ne_of_lt
  rw [best, List.inj_on_of_nodup_map distinct (mem_sideItems.1 hj).1 (mem_sideItems.1 first.1).1 arrival]

theorem best_of_empty (h : Buckets.Of (before side) itemPrice [] (sideItems items symbol side)) :
    bestOn (items.map Prod.snd) symbol side = none := by
  rw [bestOn, List.argmin_eq_none, ← sideItems_live, h.eq_nil]
  rfl

/-- The accessor of the best level reads the top of the live orders. -/
theorem Renders.bestLevel {m : SideMap} (arrivals : items.Pairwise fun i j => i.2.arrival < j.2.arrival)
    (h : Renders side m (sideItems items symbol side)) :
    bestLevelOf m = topOfBook (items.map Prod.snd) symbol side := by
  obtain ⟨g, buckets, rfl⟩ := h
  match g with
  | [] => simp only [render, List.map_nil, bestLevelOf, topOfBook, best_of_empty buckets, Option.map_none]
  | (_, []) :: _ => exact absurd rfl (buckets.nonempty _ List.mem_cons_self)
  | (price, i :: bucket) :: g =>
    have first := (buckets.mem List.mem_cons_self).1 (List.mem_cons_self (a := i) (l := bucket))
    have whole := buckets.bucket _ List.mem_cons_self
    simp only at whole
    simp only [render, List.map_cons, bestLevelOf, topOfBook, best_of_buckets arrivals buckets, Option.map_some,
      Prod.map, id]
    rw [show i.2.order.price = price from first.2, whole, ← sideItems_live, List.filter_map, List.map_map]
    rfl

theorem Renders.bestPrice {m : SideMap} (arrivals : items.Pairwise fun i j => i.2.arrival < j.2.arrival)
    (h : Renders side m (sideItems items symbol side)) :
    bestPrice m = bestPriceOn (items.map Prod.snd) symbol side := by
  obtain ⟨g, buckets, rfl⟩ := h
  match g with
  | [] => simp only [render, List.map_nil, MatchingEngine.bestPrice, bestPriceOn, best_of_empty buckets, Option.map_none]
  | (_, []) :: _ => exact absurd rfl (buckets.nonempty _ List.mem_cons_self)
  | (price, i :: bucket) :: g =>
    have first := (buckets.mem List.mem_cons_self).1 (List.mem_cons_self (a := i) (l := bucket))
    simp only [render, List.map_cons, MatchingEngine.bestPrice, bestPriceOn, best_of_buckets arrivals buckets,
      Option.map_some, Prod.map, id]
    rw [show i.2.order.price = price from first.2]

end Best

theorem OrderBook.best_eq (book : OrderBook) (side : Side) : book.best side = bestPrice (book.sideMap side) := by
  cases side <;> rfl

/-! ## Placing and cancelling -/

/-- A side map that renders items is their ladder. -/
theorem renders_iff {side : Side} {m : SideMap} {items : List Item} :
    Renders side m items ↔ Ladder Prod.fst (fun i : Item => i.2.order) side m items := Iff.rfl

/-- Placing an unlinked node appends it to the items. -/
theorem Renders.place {side : Side} {m : SideMap} {items : List Item} (h : Renders side m items) {heap : Heap}
    {node : Addr} {o : LiveOrder} (slot : heap node = some ⟨false, o.order⟩) :
    ∃ m', placeInto side m heap node = .ok (m', Function.update heap node (some ⟨true, o.order⟩)) ∧
      Renders side m' (items ++ [(node, o)]) :=
  (renders_iff.1 h).place (a := (node, o)) slot

section Cancel

variable {heap : Heap} {core : Core} {items : List Item} {i : Item}

/-- An item is taken out by its address as by its arrival. -/
theorem Tracks.butAt_eq (h : Tracks heap core items) (hi : i ∈ items) {l : List Item} (sub : l ⊆ items) :
    butAt Prod.fst i.1 l = without i.2.arrival l := by
  apply List.filter_congr
  intro j hj
  by_cases same : j = i
  · simp [same]
  · have addr : j.1 ≠ i.1 := fun e => same (h.addr_inj (sub hj) hi e)
    have arrival : j.2.arrival ≠ i.2.arrival := fun e => same (h.arrival_inj (sub hj) hi e)
    simp [addr, arrival]

/-- Taking an item out does not touch the other sides. -/
theorem sideItems_without_other {symbol symbol' : Symbol} {side side' : Side} (tracks : Tracks heap core items)
    (hi : i ∈ sideItems items symbol side) (apart : ¬(symbol' = symbol ∧ side' = side)) :
    sideItems (without i.2.arrival items) symbol' side' = sideItems items symbol' side' := by
  rw [sideItems_without, without, List.filter_eq_self]
  intro j hj
  refine decide_eq_true fun same => apart ?_
  have here := (mem_sideItems.1 hi).2
  rw [← tracks.arrival_inj (mem_sideItems.1 hj).1 (mem_sideItems.1 hi).1 same] at here
  have there := (mem_sideItems.1 hj).2
  exact ⟨there.1.symm.trans here.1, there.2.symm.trans here.2⟩

/-- Cancelling a node of the side takes its item out, and unlinks it. -/
theorem Renders.cancel {m : SideMap} {symbol : Symbol} {side : Side} (tracks : Tracks heap core items)
    (h : Renders side m (sideItems items symbol side)) (hi : i ∈ sideItems items symbol side) :
    ∃ m', cancelFrom m heap i.1 = .ok (m', Function.update heap i.1 (some ⟨false, i.2.order⟩)) ∧
      Renders side m' (sideItems (without i.2.arrival items) symbol side) := by
  have sub : List.Sublist (sideItems items symbol side) items := List.filter_sublist
  have member := (mem_sideItems.1 hi).1
  rw [sideItems_without, ← tracks.butAt_eq member sub.subset]
  exact (renders_iff.1 h).cancel (tracks.nodup.sublist (sub.map _)) hi (tracks.heap_eq member)

end Cancel

end DemoExchange.Refinement
