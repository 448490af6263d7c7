import DemoExchange.Reference.Orderly

/-!
# What changes the top of a side

A step changes the top of a side only through the orders of that side, and
only if it touches the best price: an order that rests behind the best or
leaves from behind it changes nothing, and a sweep only touches the side it
consumes.
-/

namespace DemoExchange.Reference
set_option autoImplicit false
open OrderEntry MatchingEngine

section Sides

variable {live live' : List LiveOrder} {symbol : Symbol} {side : Side} {o m : LiveOrder}

theorem topOfBook_of_sideOf (same : sideOf live' symbol side = sideOf live symbol side) :
    topOfBook live' symbol side = topOfBook live symbol side := by
  simp only [topOfBook, bestOn, same]

/-- Any order that no order of its side is priced better than shows the top. -/
theorem topOfBook_of_least (member : o ∈ sideOf live symbol side)
    (least : ∀ p ∈ sideOf live symbol side, priceRank side o.order.price ≤ priceRank side p.order.price) :
    topOfBook live symbol side = some ⟨o.order.price,
      (((sideOf live symbol side).filter fun p => p.order.price = o.order.price).map (·.order.leavesQty)).sum⟩ := by
  unfold topOfBook
  cases best : bestOn live symbol side with
  | none =>
    rw [best_none.1 best] at member
    cases member
  | some m =>
    have inside : m ∈ sideOf live symbol side := mem_sideOf.2 (best_mem best)
    have same : m.order.price = o.order.price :=
      priceRank_inj (Nat.le_antisymm (best_rank best member) (least m inside))
    rw [Option.map_some, same]

/-- **Orders behind the best do not show.** A part of a side that has all the
orders at the best price has the same top. -/
theorem topOfBook_of_part (best : bestOn live symbol side = some m)
    (part : ∀ p ∈ sideOf live' symbol side, p ∈ sideOf live symbol side)
    (same : (sideOf live' symbol side).filter (fun p => p.order.price = m.order.price) =
      (sideOf live symbol side).filter fun p => p.order.price = m.order.price) :
    topOfBook live' symbol side = topOfBook live symbol side := by
  have inside : m ∈ sideOf live symbol side := mem_sideOf.2 (best_mem best)
  have kept : m ∈ sideOf live' symbol side := by
    have here : m ∈ (sideOf live symbol side).filter fun p => p.order.price = m.order.price :=
      List.mem_filter.2 ⟨inside, decide_eq_true rfl⟩
    rw [← same] at here
    exact (List.mem_filter.1 here).1
  rw [topOfBook_of_least inside fun p hp => best_rank best hp,
    topOfBook_of_least kept fun p hp => best_rank best (part p hp), same]

theorem sideOf_append : sideOf (live ++ [o]) symbol side =
    sideOf live symbol side ++ if OnSide symbol side o.order then [o] else [] := by
  rw [sideOf, List.filter_append]
  congr 1
  by_cases here : OnSide symbol side o.order <;> simp [here]

theorem sideOf_append_other (apart : ¬OnSide symbol side o.order) :
    sideOf (live ++ [o]) symbol side = sideOf live symbol side := by
  rw [sideOf_append, if_neg apart, List.append_nil]

/-- An order that comes to rest behind the best price does not show. -/
theorem topOfBook_append (here : OnSide symbol side o.order)
    (behind : bestPriceOn (live ++ [o]) symbol side ≠ some o.order.price) :
    topOfBook (live ++ [o]) symbol side = topOfBook live symbol side := by
  have sides : sideOf (live ++ [o]) symbol side = sideOf live symbol side ++ [o] := by
    rw [sideOf_append, if_pos here]
  cases best : bestOn (live ++ [o]) symbol side with
  | none =>
    rw [best_none, sides] at best
    exact absurd best (by simp)
  | some m =>
    have ne : o.order.price ≠ m.order.price := by
      intro same
      refine behind ?_
      rw [bestPriceOn, best, same]
      rfl
    refine (topOfBook_of_part best ?_ ?_).symm
    · intro p hp
      rw [sides]
      exact List.mem_append_left _ hp
    · rw [sides, List.filter_append]
      simp [ne]

/-- A residual does not touch the sides it is not on. -/
theorem sideOf_rest_other (x : Exchange) {order : OrderState} (apart : ¬OnSide symbol side order) :
    sideOf (x.rest live order).live symbol side = sideOf live symbol side := by
  unfold Exchange.rest
  split
  · exact sideOf_append_other (o := ⟨x.nextArrival, order⟩) apart
  · rfl

/-- A residual shows only if it rests at the best price of its side. -/
theorem topOfBook_rest (x : Exchange) (live : List LiveOrder) (order : OrderState) (behind : ¬(Exchange.Rests order ∧
    bestPriceOn (x.rest live order).live order.symbol order.side = some order.price)) :
    topOfBook (x.rest live order).live order.symbol order.side = topOfBook live order.symbol order.side := by
  unfold Exchange.rest at behind ⊢
  split
  · rename_i rests
    rw [if_pos rests] at behind
    exact topOfBook_append (o := ⟨x.nextArrival, order⟩) ⟨rfl, rfl⟩ fun best => behind ⟨rests, best⟩
  · rfl

/-- An order that leaves from behind the best price did not show. -/
theorem topOfBook_remove (orderly : Orderly live) (member : o ∈ live)
    (behind : bestPriceOn live o.order.symbol o.order.side ≠ some o.order.price) :
    topOfBook (live.filter fun p => p.order.key ≠ o.order.key) o.order.symbol o.order.side =
      topOfBook live o.order.symbol o.order.side := by
  cases best : bestOn live o.order.symbol o.order.side with
  | none =>
    have here : o ∈ sideOf live o.order.symbol o.order.side := mem_sideOf.2 ⟨member, rfl, rfl⟩
    rw [best_none.1 best] at here
    cases here
  | some m =>
    have ne : o.order.price ≠ m.order.price := by
      intro same
      refine behind ?_
      rw [bestPriceOn, best, same]
      rfl
    refine topOfBook_of_part best ?_ ?_
    · intro p hp
      obtain ⟨inside, here⟩ := mem_sideOf.1 hp
      exact mem_sideOf.2 ⟨(List.mem_filter.1 inside).1, here⟩
    · simp only [sideOf, List.filter_filter]
      refine List.filter_congr fun p hp => ?_
      by_cases same : p.order.key = o.order.key
      · cases orderly.key_inj hp member same
        simp [ne]
      · simp [same]

/-- Taking an order out does not touch the other sides. -/
theorem sideOf_remove_other (orderly : Orderly live) (member : o ∈ live) (apart : ¬OnSide symbol side o.order) :
    sideOf (live.filter fun p => p.order.key ≠ o.order.key) symbol side = sideOf live symbol side := by
  simp only [sideOf, List.filter_filter]
  refine List.filter_congr fun p hp => ?_
  by_cases same : p.order.key = o.order.key
  · cases orderly.key_inj hp member same
    simp [apart]
  · simp [same]

/-- A fill keeps every order on its side. -/
theorem sideOf_filled (live : List LiveOrder) (maker : LiveOrder) (quantity : Quantity) (symbol : Symbol) (side : Side) :
    sideOf (live.map (filled maker quantity)) symbol side = (sideOf live symbol side).map (filled maker quantity) := by
  rw [sideOf, List.filter_map]
  congr 1
  refine List.filter_congr fun o _ => ?_
  simp only [Function.comp, filled]
  split <;> rfl

/-- A fill does not touch the sides its maker is not on. -/
theorem sideOf_settle_other (orderly : Orderly live) (member : m ∈ live) (apart : ¬OnSide symbol side m.order)
    (quantity : Quantity) : sideOf (settle live m quantity) symbol side = sideOf live symbol side := by
  by_cases used : m.order.leavesQty - quantity = 0
  · rw [settle_used used]
    simp only [sideOf, List.filter_filter]
    refine List.filter_congr fun p hp => ?_
    by_cases same : p.arrival = m.arrival
    · cases orderly.arrival_inj hp member same
      simp [apart]
    · simp [same]
  · rw [settle_left used, sideOf_filled]
    conv_rhs => rw [← List.map_id (sideOf live symbol side)]
    refine List.map_congr_left fun p hp => if_neg fun same => apart ?_
    obtain ⟨inside, here⟩ := mem_sideOf.1 hp
    cases orderly.arrival_inj inside member same
    exact here

/-- **A sweep touches the side it consumes only.** -/
theorem sideOf_sweep_other (orderly : Orderly live) (taker : OrderState)
    (apart : ¬(taker.symbol = symbol ∧ otherSide taker.side = side)) :
    sideOf (sweep live taker).live symbol side = sideOf live symbol side := by
  have kept := sweep_rule
    (P := fun live' taker' _ => Orderly live' ∧ Reduces taker taker' ∧ sideOf live' symbol side = sideOf live symbol side)
    ?_ live taker [] ⟨orderly, Reduces.refl taker, rfl⟩
  · exact kept.2.2
  · rintro live' taker' fills maker hits ⟨orderly', terms, same⟩
    refine ⟨orderly'.settle hits, terms.fill _, ?_⟩
    obtain ⟨member, here⟩ := best_mem hits.best
    rw [sideOf_settle_other orderly' member, same]
    intro there
    obtain ⟨_, rfl⟩ := terms
    exact apart ⟨here.1.symm.trans there.1, here.2.symm.trans there.2⟩

end Sides

end DemoExchange.Reference
