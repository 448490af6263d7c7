import DemoExchange.Reference.Orderly
import Mathlib.Algebra.Order.BigOperators.Group.List
import Mathlib.Algebra.Order.Ring.Nat

/-!
# What the fills of a sweep add up to

`total live symbol side weight` weighs the orders of one side of one symbol.
An aggressor takes that side from its best price outward, so it takes the
lesser of what it has and what crosses, everything priced better than its last
fill, and nothing priced worse. All sums are of natural numbers: no quantity
wraps.
-/

namespace DemoExchange.Reference
set_option autoImplicit false
open OrderEntry MatchingEngine

/-- The sum of a weight over one side of one symbol. -/
def total (live : List LiveOrder) (symbol : Symbol) (side : Side) (weight : OrderState → Nat) : Nat :=
  ((sideOf live symbol side).map fun o => weight o.order).sum

/-- The quantity of some fills. -/
def filledTotal (fills : List Fill) : Nat := (fills.map (·.quantity.toNat)).sum

/-- What is left of an order, if it is counted. -/
def leavesIf (counted : OrderState → Bool) (order : OrderState) : Nat :=
  if counted order then order.leavesQty.toNat else 0

section Totals

variable {live : List LiveOrder} {symbol : Symbol} {side : Side} {maker : LiveOrder} {weight weight' : OrderState → Nat}

theorem total_eq_zero (zero : ∀ o ∈ sideOf live symbol side, weight o.order = 0) : total live symbol side weight = 0 := by
  unfold total
  rw [List.map_congr_left zero, List.map_const', List.sum_replicate]
  simp

theorem total_mono (less : ∀ o ∈ sideOf live symbol side, weight o.order ≤ weight' o.order) :
    total live symbol side weight ≤ total live symbol side weight' :=
  List.sum_le_sum less

/-- An order leaves with its weight. -/
theorem total_remove (orderly : Orderly live) (member : maker ∈ sideOf live symbol side) (weight : OrderState → Nat) :
    total live symbol side weight =
      weight maker.order + total (live.filter fun o => o.arrival ≠ maker.arrival) symbol side weight := by
  have distinct : (sideOf live symbol side).Nodup := (orderly.arrivals.filter _).imp fun before same => by
    rw [same] at before
    exact Nat.lt_irrefl _ before
  have others : sideOf (live.filter fun o => o.arrival ≠ maker.arrival) symbol side = (sideOf live symbol side).erase maker := by
    rw [distinct.erase_eq_filter]
    simp only [sideOf, List.filter_filter]
    refine List.filter_congr fun o ho => ?_
    have apart : (o != maker) = decide (o.arrival ≠ maker.arrival) := by
      by_cases same : o = maker
      · simp [same]
      · have other : o.arrival ≠ maker.arrival := fun e => same (orderly.arrival_inj ho (mem_sideOf.1 member).1 e)
        simp [same, other]
    rw [apart, Bool.and_comm]
  rw [total, total, others, ((List.perm_cons_erase member).map fun o => weight o.order).sum_eq]
  exact List.sum_cons

theorem weight_le_total (member : maker ∈ sideOf live symbol side) (weight : OrderState → Nat) :
    weight maker.order ≤ total live symbol side weight :=
  List.le_sum_of_mem (List.mem_map_of_mem member)

end Totals

section Crossing

variable {live : List LiveOrder} {taker : OrderState} {p q : Price}

/-- Whatever is priced better than what crosses, crosses. -/
theorem crosses_of_better (hit : Crosses taker p)
    (better : priceRank (otherSide taker.side) q ≤ priceRank (otherSide taker.side) p) : Crosses taker q := by
  by_cases priced : taker.price = 0
  · exact .inl priced
  have hp := UInt64.toNat_lt p
  have hq := UInt64.toNat_lt q
  cases side : taker.side with
  | buy =>
    rw [crosses_buy priced side] at hit ⊢
    simp only [side, otherSide, priceRank, UInt64.le_iff_toNat_le] at hit better ⊢
    omega
  | sell =>
    rw [crosses_sell priced side] at hit ⊢
    simp only [side, otherSide, priceRank, UInt64.le_iff_toNat_le] at hit better ⊢
    unfold UInt64.size at better
    omega

/-- A sweep with a fill started with something left. -/
theorem sweep_some {f : Fill} (last : (sweep live taker).fills.getLast? = some f) : taker.leavesQty ≠ 0 := by
  intro empty
  rw [sweep_empty empty] at last
  cases last

/-- What an aggressor has traded and what it has left are what it had. -/
theorem sweep_quantity (live : List LiveOrder) (taker : OrderState) :
    filledTotal (sweep live taker).fills + (sweep live taker).taker.leavesQty.toNat = taker.leavesQty.toNat := by
  refine sweep_rule (P := fun _ taker' fills => filledTotal fills + taker'.leavesQty.toNat = taker.leavesQty.toNat)
    ?_ live taker [] (by simp [filledTotal])
  intro _ taker' fills maker _ before
  have less := toNat_sub_min_left taker'.leavesQty maker.order.leavesQty
  have quantity : filledTotal (fills ++ [⟨taker', maker.order⟩]) =
      filledTotal fills + min taker'.leavesQty.toNat maker.order.leavesQty.toNat := by
    simp [filledTotal, Fill.quantity, toNat_min]
  rw [quantity]
  show _ + (taker'.leavesQty - min taker'.leavesQty maker.order.leavesQty).toNat = _
  omega

/-- **A sweep takes the lesser of what the aggressor has and what crosses.** -/
theorem sweep_total (live : List LiveOrder) (taker : OrderState) : Orderly live →
    filledTotal (sweep live taker).fills = min taker.leavesQty.toNat
      (total live taker.symbol (otherSide taker.side) (leavesIf fun o => Crosses taker o.price)) := by
  induction live, taker using sweep.induct with
  | case1 live taker empty =>
    intro _
    rw [sweep_empty empty, empty]
    simp [filledTotal]
  | case2 live taker some none =>
    intro _
    rw [sweep_none none, total, best_none.1 none]
    simp [filledTotal]
  | case3 live taker some maker best hit fill ih =>
    intro orderly
    have ih := ih (orderly.settle ⟨some, best, hit⟩)
    have inside : maker ∈ sideOf live taker.symbol (otherSide taker.side) := mem_sideOf.2 (best_mem best)
    have less := toNat_sub_min_left taker.leavesQty maker.order.leavesQty
    have counted : leavesIf (fun o => Crosses taker o.price) maker.order = maker.order.leavesQty.toNat :=
      if_pos (decide_eq_true hit)
    have quantity : ∀ fills, filledTotal ([⟨taker, maker.order⟩] ++ fills) =
        min taker.leavesQty.toNat maker.order.leavesQty.toNat + filledTotal fills := by
      intro fills
      simp [filledTotal, Fill.quantity, toNat_min]
    rw [sweep_fill some best hit]
    simp only [Sweep.after, quantity]
    by_cases used : maker.order.leavesQty - min taker.leavesQty maker.order.leavesQty = 0
    · have whole : min taker.leavesQty.toNat maker.order.leavesQty.toNat = maker.order.leavesQty.toNat := by
        have left := toNat_sub_min_right taker.leavesQty maker.order.leavesQty
        rw [used, UInt64.toNat_zero] at left
        omega
      have rest : filledTotal (sweep (settle live maker (min taker.leavesQty maker.order.leavesQty))
          (fillOrder taker (min taker.leavesQty maker.order.leavesQty))).fills =
          min (taker.leavesQty - min taker.leavesQty maker.order.leavesQty).toNat
            (total (live.filter fun o => o.arrival ≠ maker.arrival) taker.symbol (otherSide taker.side)
              (leavesIf fun o => Crosses taker o.price)) := by
        rw [← settle_used used]
        exact ih
      rw [rest, total_remove orderly inside, counted, less]
      omega
    · -- the aggressor is used up
      have empty : (fillOrder taker (min taker.leavesQty maker.order.leavesQty)).leavesQty = 0 := fill_exhausts used
      have bound := weight_le_total inside (leavesIf fun o => Crosses taker o.price)
      have none := congrArg UInt64.toNat empty
      simp only [fillOrder, less, UInt64.toNat_zero] at none
      rw [sweep_empty empty]
      rw [counted] at bound
      simp only [filledTotal, List.map_nil, List.sum_nil]
      omega
  | case4 live taker some maker best miss =>
    intro _
    have nothing : ∀ o ∈ sideOf live taker.symbol (otherSide taker.side),
        leavesIf (fun o => Crosses taker o.price) o.order = 0 :=
      fun o ho => if_neg fun hit => miss (crosses_of_better (of_decide_eq_true hit) (best_rank best ho))
    rw [sweep_miss best miss, total_eq_zero nothing]
    simp [filledTotal]

/-- The makers of a sweep were on the side it consumes. -/
theorem sweep_sides (live : List LiveOrder) (taker : OrderState) :
    ∀ f ∈ (sweep live taker).fills, ∃ o ∈ sideOf live taker.symbol (otherSide taker.side), Reduces o.order f.maker := by
  have sides := sweep_rule
    (P := fun _ taker' fills => Reduces taker taker' ∧ ∀ f ∈ fills, OnSide taker.symbol (otherSide taker.side) f.maker)
    ?_ live taker [] ⟨Reduces.refl taker, by simp⟩
  · intro f hf
    obtain ⟨o, inside, terms⟩ := sweep_makers live taker f hf
    have here := sides.2 f hf
    refine ⟨o, mem_sideOf.2 ⟨inside, ?_⟩, terms⟩
    obtain ⟨q, same⟩ := terms
    rw [same] at here
    exact here
  · rintro live' taker' fills maker hits ⟨terms, sides⟩
    refine ⟨terms.fill _, fun f hf => ?_⟩
    rcases List.mem_append.1 hf with hf | hf
    · exact sides f hf
    · rw [List.mem_singleton.1 hf]
      obtain ⟨q, rfl⟩ := terms
      exact (best_mem hits.best).2

/-- What fills that ended at the rank `r` took of a side: everything priced
better than that, something at it and nothing beyond. -/
structure TakenTo (live : List LiveOrder) (symbol : Symbol) (side : Side) (fills : List Fill) (r : Nat) : Prop where
  beyond : total live symbol side (leavesIf fun o => priceRank side o.price < r) < filledTotal fills
  within : filledTotal fills ≤ total live symbol side (leavesIf fun o => priceRank side o.price ≤ r)
  /-- each weighed by how much better it was than the last -/
  weighed : (fills.map fun f => f.quantity.toNat * (r - priceRank side f.maker.price)).sum =
    total live symbol side fun o => o.leavesQty.toNat * (r - priceRank side o.price)
  ordered : ∀ f ∈ fills, priceRank side f.maker.price ≤ r

section Taking

variable {symbol : Symbol} {side : Side} {maker : LiveOrder} {f : Fill} {fills : List Fill} {r : Nat}

/-- One fill, of the best order. -/
theorem TakenTo.single (inside : maker ∈ sideOf live symbol side)
    (least : ∀ o ∈ sideOf live symbol side, priceRank side maker.order.price ≤ priceRank side o.order.price)
    (of : f.maker = maker.order) (some : f.quantity.toNat ≠ 0) (bound : f.quantity.toNat ≤ maker.order.leavesQty.toNat) :
    TakenTo live symbol side [f] (priceRank side maker.order.price) := by
  have whole : filledTotal [f] = f.quantity.toNat := by simp [filledTotal]
  refine ⟨?_, ?_, ?_, ?_⟩
  · have nothing : ∀ o ∈ sideOf live symbol side,
        leavesIf (fun o => priceRank side o.price < priceRank side maker.order.price) o.order = 0 := by
      intro o ho
      refine if_neg ?_
      simpa using least o ho
    rw [total_eq_zero nothing, whole]
    omega
  · have most := weight_le_total inside (leavesIf fun o => priceRank side o.price ≤ priceRank side maker.order.price)
    have counted : leavesIf (fun o => priceRank side o.price ≤ priceRank side maker.order.price) maker.order =
        maker.order.leavesQty.toNat := if_pos (decide_eq_true (Nat.le_refl _))
    rw [counted] at most
    omega
  · have nothing : ∀ o ∈ sideOf live symbol side,
        o.order.leavesQty.toNat * (priceRank side maker.order.price - priceRank side o.order.price) = 0 := by
      intro o ho
      rw [Nat.sub_eq_zero_of_le (least o ho), Nat.mul_zero]
    rw [total_eq_zero nothing]
    simp [of]
  · simp [of]

/-- A fill that uses its maker up, and those after it. -/
theorem TakenTo.cons (orderly : Orderly live) (inside : maker ∈ sideOf live symbol side) (of : f.maker = maker.order)
    (whole : f.quantity = maker.order.leavesQty) (first : priceRank side maker.order.price ≤ r)
    (h : TakenTo (live.filter fun o => o.arrival ≠ maker.arrival) symbol side fills r) :
    TakenTo live symbol side (f :: fills) r := by
  have sum : filledTotal (f :: fills) = maker.order.leavesQty.toNat + filledTotal fills := by
    rw [← whole]
    exact List.sum_cons
  refine ⟨?_, ?_, ?_, ?_⟩
  · have most : leavesIf (fun o => priceRank side o.price < r) maker.order ≤ maker.order.leavesQty.toNat := by
      unfold leavesIf
      split <;> omega
    have beyond := h.beyond
    rw [total_remove orderly inside, sum]
    omega
  · have counted : leavesIf (fun o => priceRank side o.price ≤ r) maker.order = maker.order.leavesQty.toNat :=
      if_pos (decide_eq_true first)
    have within := h.within
    rw [total_remove orderly inside, sum, counted]
    omega
  · rw [total_remove orderly inside, List.map_cons, List.sum_cons, h.weighed, of, whole]
  · intro g hg
    obtain rfl | hg := List.mem_cons.1 hg
    · rw [of]
      exact first
    · exact h.ordered g hg

end Taking

/-- **A sweep takes its side from the best price outward.** -/
theorem sweep_takenTo (live : List LiveOrder) (taker : OrderState) : Orderly live →
    ∀ last, (sweep live taker).fills.getLast? = some last →
      TakenTo live taker.symbol (otherSide taker.side) (sweep live taker).fills
        (priceRank (otherSide taker.side) last.maker.price) := by
  induction live, taker using sweep.induct with
  | case1 live taker empty =>
    intro _ last found
    rw [sweep_empty empty] at found
    cases found
  | case2 live taker some none =>
    intro _ last found
    rw [sweep_none none] at found
    cases found
  | case3 live taker some maker best hit fill ih =>
    intro orderly last found
    have ih := ih (orderly.settle ⟨some, best, hit⟩)
    have inside : maker ∈ sideOf live taker.symbol (otherSide taker.side) := mem_sideOf.2 (best_mem best)
    have least := fun o => best_rank (p := o) best
    have quantity : fill.quantity.toNat = min taker.leavesQty.toNat maker.order.leavesQty.toNat := toNat_min _ _
    have fills : (sweep live taker).fills =
        fill :: (sweep (settle live maker fill.quantity) (fillOrder taker fill.quantity)).fills := by
      rw [sweep_fill some best hit]
      rfl
    rw [fills] at found ⊢
    cases later : (sweep (settle live maker fill.quantity) (fillOrder taker fill.quantity)).fills.getLast? with
    | none =>
      -- the only fill
      rw [List.getLast?_eq_none_iff.1 later] at found ⊢
      cases found
      have some' : taker.leavesQty.toNat ≠ 0 := fun zero => some (UInt64.toNat_inj.1 zero)
      have positive : maker.order.leavesQty.toNat ≠ 0 :=
        fun zero => (orderly.left maker (best_mem best).1).1 (UInt64.toNat_inj.1 zero)
      exact TakenTo.single inside least rfl (by omega) (by omega)
    | some final =>
      rw [List.getLast?_cons, later] at found
      cases found
      -- the aggressor went on, so this maker was used up
      have used : maker.order.leavesQty - fill.quantity = 0 :=
        Classical.byContradiction fun left => sweep_some later (fill_exhausts left)
      have whole : fill.quantity = maker.order.leavesQty := by
        rw [← UInt64.toNat_inj, quantity]
        have left := toNat_sub_min_right taker.leavesQty maker.order.leavesQty
        rw [show maker.order.leavesQty - min taker.leavesQty maker.order.leavesQty = 0 from used, UInt64.toNat_zero] at left
        omega
      have next := ih final later
      have first : priceRank (otherSide taker.side) maker.order.price ≤ priceRank (otherSide taker.side) final.maker.price := by
        obtain ⟨o, ho, terms⟩ := sweep_sides _ _ final (List.mem_of_getLast? later)
        obtain ⟨inside', here⟩ := mem_sideOf.1 ho
        rw [settle_used used] at inside'
        rw [terms.price]
        exact least o (mem_sideOf.2 ⟨(List.mem_filter.1 inside').1, here⟩)
      refine TakenTo.cons orderly inside rfl whole first ?_
      rw [← settle_used used]
      exact next
  | case4 live taker some maker best miss =>
    intro _ last found
    rw [sweep_miss best miss] at found
    cases found

end Crossing

end DemoExchange.Reference
