import DemoExchange.Reference.Exchange

/-!
# What a sweep does

The equations of `sweep`: it stops when the aggressor has nothing left, when
nothing rests opposite, or when the best order opposite does not cross, and
else takes one fill and goes on. `sweep_rule` is the induction over the fills;
what a sweep keeps is derived from it.
-/

namespace DemoExchange.Reference
set_option autoImplicit false
open OrderEntry MatchingEngine

variable {live : List LiveOrder} {taker : OrderState} {maker : LiveOrder}

theorem sweep_empty (empty : taker.leavesQty = 0) : sweep live taker = ⟨[], live, taker⟩ := by
  rw [sweep]
  simp only [empty, dif_pos]

theorem sweep_none (none : bestOn live taker.symbol (otherSide taker.side) = Option.none) :
    sweep live taker = ⟨[], live, taker⟩ := by
  rw [sweep]
  split
  · rfl
  · split
    · rfl
    · rename_i found
      rw [none] at found
      cases found

theorem sweep_miss (best : bestOn live taker.symbol (otherSide taker.side) = some maker)
    (miss : ¬Crosses taker maker.order.price) : sweep live taker = ⟨[], live, taker⟩ := by
  rw [sweep]
  split
  · rfl
  · split
    · rfl
    · rename_i other found
      cases best.symm.trans found
      simp only [miss, if_false]

/-- The sweep `s` after the trades `fills`. -/
def Sweep.after (fills : List Fill) (s : Sweep) : Sweep := { s with fills := fills ++ s.fills }

theorem Sweep.after_after (fills fills' : List Fill) (s : Sweep) :
    (s.after fills').after fills = s.after (fills ++ fills') := by
  simp only [Sweep.after, List.append_assoc]

theorem sweep_fill (some : taker.leavesQty ≠ 0)
    (best : bestOn live taker.symbol (otherSide taker.side) = Option.some maker)
    (hit : Crosses taker maker.order.price) :
    sweep live taker =
      (sweep (settle live maker (min taker.leavesQty maker.order.leavesQty))
        (fillOrder taker (min taker.leavesQty maker.order.leavesQty))).after [⟨taker, maker.order⟩] := by
  rw [sweep]
  split
  · rename_i empty
    exact absurd empty some
  · split
    · rename_i found
      cases best.symm.trans found
    · rename_i other found
      cases best.symm.trans found
      simp only [hit, if_true]
      rfl

/-- The aggressor's next trade is with `maker`. -/
structure Hits (live : List LiveOrder) (taker : OrderState) (maker : LiveOrder) : Prop where
  some : taker.leavesQty ≠ 0
  best : bestOn live taker.symbol (otherSide taker.side) = Option.some maker
  hit : Crosses taker maker.order.price

/-- **What one fill keeps, a sweep keeps.** -/
theorem sweep_rule {P : List LiveOrder → OrderState → List Fill → Prop}
    (step : ∀ live taker fills maker, Hits live taker maker → P live taker fills →
      P (settle live maker (min taker.leavesQty maker.order.leavesQty))
        (fillOrder taker (min taker.leavesQty maker.order.leavesQty)) (fills ++ [⟨taker, maker.order⟩]))
    (live : List LiveOrder) (taker : OrderState) :
    ∀ fills, P live taker fills → P (sweep live taker).live (sweep live taker).taker (fills ++ (sweep live taker).fills) := by
  induction live, taker using sweep.induct with
  | case1 live taker empty =>
    intro fills start
    rw [sweep_empty empty, List.append_nil]
    exact start
  | case2 live taker some none =>
    intro fills start
    rw [sweep_none none, List.append_nil]
    exact start
  | case3 live taker some maker best hit fill ih =>
    intro fills start
    have next := ih _ (step live taker fills maker ⟨some, best, hit⟩ start)
    rw [List.append_assoc] at next
    rw [sweep_fill some best hit]
    exact next
  | case4 live taker some maker best miss =>
    intro fills start
    rw [sweep_miss best miss, List.append_nil]
    exact start

/-- The orders that `settle` leaves, and what they were. -/
theorem mem_settle {quantity : Quantity} {o : LiveOrder} (member : o ∈ settle live maker quantity) :
    (o ∈ live ∧ o.arrival ≠ maker.arrival) ∨
      ∃ o' ∈ live, o'.arrival = maker.arrival ∧ o = { o' with order := fillOrder o'.order quantity } ∧
        maker.order.leavesQty - quantity ≠ 0 := by
  unfold settle at member
  split at member
  · rw [List.mem_filter] at member
    exact .inl ⟨member.1, of_decide_eq_true member.2⟩
  · rename_i left
    obtain ⟨o', inside, rfl⟩ := List.mem_map.1 member
    unfold filled
    by_cases same : o'.arrival = maker.arrival
    · exact .inr ⟨o', inside, same, if_pos same, left⟩
    · rw [if_neg same]
      exact .inl ⟨inside, same⟩

/-- An order with less left to trade, and otherwise the same. -/
def Reduces (order order' : OrderState) : Prop := ∃ quantity, order' = { order with leavesQty := quantity }

theorem Reduces.refl (order : OrderState) : Reduces order order := ⟨_, rfl⟩

section Reducing

variable {order order' order'' : OrderState}

theorem Reduces.trans (h : Reduces order order') (h' : Reduces order' order'') : Reduces order order'' := by
  obtain ⟨q, rfl⟩ := h
  obtain ⟨q', rfl⟩ := h'
  exact ⟨q', rfl⟩

theorem Reduces.fill (h : Reduces order order') (quantity : Quantity) : Reduces order (fillOrder order' quantity) := by
  obtain ⟨q, rfl⟩ := h
  exact ⟨_, rfl⟩

theorem Reduces.key (h : Reduces order order') : order'.key = order.key := by
  obtain ⟨q, rfl⟩ := h
  rfl

theorem Reduces.symbol (h : Reduces order order') : order'.symbol = order.symbol := by
  obtain ⟨q, rfl⟩ := h
  rfl

theorem Reduces.side (h : Reduces order order') : order'.side = order.side := by
  obtain ⟨q, rfl⟩ := h
  rfl

theorem Reduces.price (h : Reduces order order') : order'.price = order.price := by
  obtain ⟨q, rfl⟩ := h
  rfl

theorem Reduces.onSide (h : Reduces order order') {symbol : Symbol} {side : Side} :
    OnSide symbol side order' ↔ OnSide symbol side order := by
  rw [OnSide, OnSide, h.symbol, h.side]

end Reducing

/-- The aggressor keeps its terms. -/
theorem sweep_taker (live : List LiveOrder) (taker : OrderState) : Reduces taker (sweep live taker).taker :=
  sweep_rule (P := fun _ taker' _ => Reduces taker taker') (fun _ _ _ _ _ before => before.fill _) live taker []
    (Reduces.refl taker)

/-- What is live after a sweep was live before it, under the same terms. -/
theorem sweep_live (live : List LiveOrder) (taker : OrderState) :
    ∀ o ∈ (sweep live taker).live, ∃ o' ∈ live, o'.arrival = o.arrival ∧ Reduces o'.order o.order := by
  refine sweep_rule (P := fun live' _ _ => ∀ o ∈ live', ∃ o' ∈ live, o'.arrival = o.arrival ∧ Reduces o'.order o.order)
    ?_ live taker [] fun o ho => ⟨o, ho, rfl, Reduces.refl _⟩
  intro live' taker' fills maker _ before o ho
  obtain ⟨inside, -⟩ | ⟨o', inside, -, rfl, -⟩ := mem_settle ho
  · exact before o inside
  · obtain ⟨origin, member, arrival, terms⟩ := before o' inside
    exact ⟨origin, member, arrival, terms.fill _⟩

/-- The makers of a sweep were live before it. -/
theorem sweep_makers (live : List LiveOrder) (taker : OrderState) :
    ∀ f ∈ (sweep live taker).fills, ∃ o ∈ live, Reduces o.order f.maker := by
  have both := sweep_rule
    (P := fun live' _ fills => (∀ o ∈ live', ∃ o' ∈ live, Reduces o'.order o.order) ∧
      ∀ f ∈ fills, ∃ o ∈ live, Reduces o.order f.maker)
    ?_ live taker [] ⟨fun o ho => ⟨o, ho, Reduces.refl _⟩, by simp⟩
  · exact both.2
  · rintro live' taker' fills maker hits ⟨origins, makers⟩
    constructor
    · intro o ho
      obtain ⟨inside, -⟩ | ⟨o', inside, -, rfl, -⟩ := mem_settle ho
      · exact origins o inside
      · obtain ⟨origin, member, terms⟩ := origins o' inside
        exact ⟨origin, member, terms.fill _⟩
    · intro f hf
      rcases List.mem_append.1 hf with hf | hf
      · exact makers f hf
      · rw [List.mem_singleton.1 hf]
        exact origins maker (best_mem hits.best).1

/-- A sweep without a fill changes nothing. -/
theorem sweep_of_no_fills (live : List LiveOrder) (taker : OrderState) (none : (sweep live taker).fills = []) :
    sweep live taker = ⟨[], live, taker⟩ := by
  have same := sweep_rule (P := fun live' taker' fills => fills = [] → live' = live ∧ taker' = taker)
    (fun _ _ fills _ _ _ empty => absurd empty (by simp)) live taker [] (fun _ => ⟨rfl, rfl⟩) none
  obtain ⟨sameLive, sameTaker⟩ := same
  cases s : sweep live taker with
  | mk fills live' taker' =>
    rw [s] at none sameLive sameTaker
    cases none
    cases sameLive
    cases sameTaker
    rfl

/-- A sweep ends when the aggressor is used up or nothing opposite crosses. -/
theorem sweep_stops (live : List LiveOrder) (taker : OrderState) :
    (sweep live taker).taker.leavesQty = 0 ∨
      ∀ maker, bestOn (sweep live taker).live taker.symbol (otherSide taker.side) = some maker →
        ¬Crosses taker maker.order.price := by
  induction live, taker using sweep.induct with
  | case1 live taker empty =>
    rw [sweep_empty empty]
    exact .inl empty
  | case2 live taker some none =>
    rw [sweep_none none]
    refine .inr fun maker best => ?_
    rw [none] at best
    cases best
  | case3 live taker some maker best hit fill ih =>
    rw [sweep_fill some best hit]
    exact ih
  | case4 live taker some maker best miss =>
    rw [sweep_miss best miss]
    refine .inr fun other found => ?_
    rw [← Option.some.inj (best.symm.trans found)]
    exact miss

/-- What is live after a new order was live before it or is its residual. -/
theorem accept_live {x : Exchange} {sent : NewOrderSingle} {o : LiveOrder}
    (member : o ∈ (x.accept sent).1.live) :
    (∃ o' ∈ x.live, Reduces o'.order o.order) ∨ Reduces (orderFor sent) o.order := by
  have origins := sweep_live x.live (orderFor sent)
  simp only [Exchange.accept, Exchange.rest] at member
  split at member
  · rcases List.mem_append.1 member with member | member
    · obtain ⟨o', inside, -, terms⟩ := origins o member
      exact .inl ⟨o', inside, terms⟩
    · rw [List.mem_singleton.1 member]
      exact .inr (sweep_taker _ _)
  · obtain ⟨o', inside, -, terms⟩ := origins o member
    exact .inl ⟨o', inside, terms⟩

end DemoExchange.Reference
