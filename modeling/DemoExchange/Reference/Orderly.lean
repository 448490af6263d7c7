import DemoExchange.Reference.Steps
import DemoExchange.Reference.Sweep
import Mathlib.Data.List.Nodup

/-!
# The invariant of the reference exchange

`Orderly live`: arrival numbers increase along the list, no two orders share a
key, every order has some of its quantity left and a price, and no buy of a
symbol is priced at or above a sell of it. A fill, a residual coming to rest
and an order leaving each keep it, and so does every step.
-/

namespace DemoExchange.Reference
set_option autoImplicit false
open OrderEntry MatchingEngine

structure Orderly (live : List LiveOrder) : Prop where
  arrivals : live.Pairwise fun o p => o.arrival < p.arrival
  keys : live.Pairwise fun o p => o.order.key ≠ p.order.key
  left : ∀ o ∈ live, o.order.leavesQty ≠ 0 ∧ o.order.leavesQty ≤ o.order.orderQty
  priced : ∀ o ∈ live, o.order.price ≠ 0
  uncrossed : ∀ b ∈ live, ∀ a ∈ live, b.order.symbol = a.order.symbol → b.order.side = .buy → a.order.side = .sell →
    b.order.price < a.order.price

section Best

variable {live : List LiveOrder} {symbol : Symbol} {side : Side} {o p : LiveOrder}

theorem mem_sideOf : o ∈ sideOf live symbol side ↔ o ∈ live ∧ OnSide symbol side o.order := by
  simp [sideOf]

theorem priceRank_inj {p q : Price} (same : priceRank side p = priceRank side q) : p = q := by
  have hp := UInt64.toNat_lt p
  have hq := UInt64.toNat_lt q
  rw [← UInt64.toNat_inj]
  cases side with
  | buy =>
    simp only [priceRank] at same
    unfold UInt64.size at same
    omega
  | sell => exact same

/-- No order of a side is priced better than its best order. -/
theorem best_rank (best : bestOn live symbol side = some o) (member : p ∈ sideOf live symbol side) :
    priceRank side o.order.price ≤ priceRank side p.order.price := by
  have least := List.le_of_mem_argmin member (Option.mem_def.2 best)
  rw [rank, rank, (best_mem best).2.2, (mem_sideOf.1 member).2.2, Prod.Lex.toLex_le_toLex] at least
  obtain less | ⟨same, -⟩ := least
  · exact Nat.le_of_lt less
  · exact Nat.le_of_eq same

theorem best_none : bestOn live symbol side = none ↔ sideOf live symbol side = [] :=
  List.argmin_eq_none

end Best

section Kept

variable {live : List LiveOrder} {taker : OrderState} {maker : LiveOrder}

theorem Orderly.filter (h : Orderly live) (q : LiveOrder → Bool) : Orderly (live.filter q) where
  arrivals := h.arrivals.filter q
  keys := h.keys.filter q
  left := fun o ho => h.left o (List.mem_filter.1 ho).1
  priced := fun o ho => h.priced o (List.mem_filter.1 ho).1
  uncrossed := fun b hb a ha => h.uncrossed b (List.mem_filter.1 hb).1 a (List.mem_filter.1 ha).1

/-- An order is known by its arrival number. -/
theorem Orderly.arrival_inj (h : Orderly live) {o p : LiveOrder} (ho : o ∈ live) (hp : p ∈ live)
    (same : o.arrival = p.arrival) : o = p := by
  have distinct : (live.map LiveOrder.arrival).Nodup := by
    rw [List.Nodup, List.pairwise_map]
    exact h.arrivals.imp Nat.ne_of_lt
  exact List.inj_on_of_nodup_map distinct ho hp same

/-- An order is known by its key. -/
theorem Orderly.key_inj (h : Orderly live) {o p : LiveOrder} (ho : o ∈ live) (hp : p ∈ live)
    (same : o.order.key = p.order.key) : o = p := by
  have distinct : (live.map fun o => o.order.key).Nodup := by
    rw [List.Nodup, List.pairwise_map]
    exact h.keys
  exact List.inj_on_of_nodup_map distinct ho hp same

theorem min_le_left' (a b : UInt64) : min a b ≤ a := by
  rw [UInt64.le_iff_toNat_le, toNat_min]
  exact Nat.min_le_left _ _

theorem min_le_right' (a b : UInt64) : min a b ≤ b := by
  rw [UInt64.le_iff_toNat_le, toNat_min]
  exact Nat.min_le_right _ _

theorem sub_le_of_le {a b c : UInt64} (less : b ≤ a) (bound : a ≤ c) : a - b ≤ c := by
  rw [UInt64.le_iff_toNat_le, UInt64.toNat_sub_of_le _ _ less]
  rw [UInt64.le_iff_toNat_le] at bound
  omega

/-- **A fill keeps the invariant.** -/
theorem Orderly.settle (h : Orderly live) (hits : Hits live taker maker) :
    Orderly (settle live maker (min taker.leavesQty maker.order.leavesQty)) := by
  have member := (best_mem hits.best).1
  by_cases used : maker.order.leavesQty - min taker.leavesQty maker.order.leavesQty = 0
  · rw [settle_used used]
    exact h.filter _
  have origin : ∀ o ∈ Reference.settle live maker (min taker.leavesQty maker.order.leavesQty), ∃ o' ∈ live,
      Reduces o'.order o.order ∧ o.order.leavesQty ≠ 0 ∧ o.order.leavesQty ≤ o.order.orderQty := by
    intro o ho
    obtain ⟨inside, -⟩ | ⟨o', inside, same, rfl, left⟩ := mem_settle ho
    · exact ⟨o, inside, Reduces.refl _, h.left o inside⟩
    · cases h.arrival_inj inside member same
      exact ⟨maker, member, (Reduces.refl _).fill _, left, sub_le_of_le (min_le_right' _ _) (h.left _ member).2⟩
  refine ⟨?_, ?_, ?_, ?_, ?_⟩
  · rw [settle_left used, List.pairwise_map]
    simpa using h.arrivals
  · rw [settle_left used, List.pairwise_map]
    simpa using h.keys
  · intro o ho
    obtain ⟨o', -, -, left⟩ := origin o ho
    exact left
  · intro o ho
    obtain ⟨o', inside, terms, -⟩ := origin o ho
    rw [terms.price]
    exact h.priced o' inside
  · intro b hb a ha
    obtain ⟨b', insideB, ⟨_, termsB⟩, -⟩ := origin b hb
    obtain ⟨a', insideA, ⟨_, termsA⟩, -⟩ := origin a ha
    rw [termsB, termsA]
    exact h.uncrossed b' insideB a' insideA

/-- A maker that is used up leaves no order under its key. -/
theorem Orderly.settle_used (h : Orderly live) (member : maker ∈ live) {quantity : Quantity}
    (used : maker.order.leavesQty - quantity = 0) : ∀ o ∈ Reference.settle live maker quantity, o.order.key ≠ maker.order.key := by
  rw [Reference.settle_used used]
  intro o ho same
  obtain ⟨inside, ne⟩ := List.mem_filter.1 ho
  rw [h.key_inj inside member same] at ne
  simp at ne

/-- A maker that is not used up is the order under its key, with less left. -/
theorem Orderly.settle_left (h : Orderly live) (member : maker ∈ live) {quantity : Quantity} {o : LiveOrder}
    (ho : o ∈ Reference.settle live maker quantity) (keyed : o.order.key = maker.order.key) :
    o.order = fillOrder maker.order quantity := by
  obtain ⟨inside, ne⟩ | ⟨o', inside, same, rfl, -⟩ := mem_settle ho
  · exact absurd (by rw [h.key_inj inside member keyed]) ne
  · cases h.arrival_inj inside member same
    rfl

/-- A fill does not touch the orders under other keys. -/
theorem Orderly.mem_settle_other (h : Orderly live) (member : maker ∈ live) {quantity : Quantity} {o : LiveOrder}
    (other : maker.order.key ≠ o.order.key) : o ∈ Reference.settle live maker quantity ↔ o ∈ live := by
  constructor
  · intro ho
    obtain ⟨inside, -⟩ | ⟨o', inside, same, rfl, -⟩ := mem_settle ho
    · exact inside
    · cases h.arrival_inj inside member same
      exact absurd rfl other
  · intro ho
    have apart : o.arrival ≠ maker.arrival := by
      intro same
      rw [h.arrival_inj ho member same] at other
      exact other rfl
    unfold Reference.settle
    split
    · exact List.mem_filter.2 ⟨ho, decide_eq_true apart⟩
    · exact List.mem_map.2 ⟨o, ho, if_neg apart⟩

theorem Orderly.sweep (h : Orderly live) (taker : OrderState) : Orderly (sweep live taker).live :=
  sweep_rule (P := fun live' _ _ => Orderly live') (fun _ _ _ _ hits before => before.settle hits) live taker [] h

/-- The aggressor never has more left than it was sent with. -/
theorem sweep_taker_le (live : List LiveOrder) (taker : OrderState) (bound : taker.leavesQty ≤ taker.orderQty) :
    (Reference.sweep live taker).taker.leavesQty ≤ (Reference.sweep live taker).taker.orderQty :=
  sweep_rule (P := fun _ taker' _ => taker'.leavesQty ≤ taker'.orderQty)
    (fun _ _ _ _ _ before => sub_le_of_le (min_le_left' _ _) before) live taker [] bound

/-- **A residual that does not cross comes to rest.** -/
theorem Orderly.rest (h : Orderly live) {o : LiveOrder} (last : ∀ p ∈ live, p.arrival < o.arrival)
    (absent : ∀ p ∈ live, p.order.key ≠ o.order.key) (rests : Exchange.Rests o.order)
    (bound : o.order.leavesQty ≤ o.order.orderQty)
    (misses : ∀ maker, bestOn live o.order.symbol (otherSide o.order.side) = some maker →
      ¬Crosses o.order maker.order.price) :
    Orderly (live ++ [o]) := by
  -- nothing opposite crosses, for the best order opposite does not
  have clear : ∀ p ∈ sideOf live o.order.symbol (otherSide o.order.side), ¬Crosses o.order p.order.price := by
    intro p hp
    cases best : bestOn live o.order.symbol (otherSide o.order.side) with
    | none =>
      rw [best_none.1 best] at hp
      cases hp
    | some maker =>
      have miss := misses maker best
      have behind := best_rank best hp
      have hm := UInt64.toNat_lt maker.order.price
      have hp := UInt64.toNat_lt p.order.price
      cases side : o.order.side with
      | buy =>
        rw [crosses_buy rests.2 side] at miss ⊢
        simp only [side, otherSide, priceRank, UInt64.le_iff_toNat_le] at behind miss ⊢
        omega
      | sell =>
        rw [crosses_sell rests.2 side] at miss ⊢
        simp only [side, otherSide, priceRank, UInt64.le_iff_toNat_le] at behind miss ⊢
        unfold UInt64.size at behind
        omega
  refine ⟨?_, ?_, ?_, ?_, ?_⟩
  · refine List.pairwise_append.2 ⟨h.arrivals, List.pairwise_singleton _ _, fun p hp q hq => ?_⟩
    rw [List.mem_singleton.1 hq]
    exact last p hp
  · refine List.pairwise_append.2 ⟨h.keys, List.pairwise_singleton _ _, fun p hp q hq => ?_⟩
    rw [List.mem_singleton.1 hq]
    exact absent p hp
  · intro p hp
    rcases List.mem_append.1 hp with hp | hp
    · exact h.left p hp
    · rw [List.mem_singleton.1 hp]
      exact ⟨rests.1, bound⟩
  · intro p hp
    rcases List.mem_append.1 hp with hp | hp
    · exact h.priced p hp
    · rw [List.mem_singleton.1 hp]
      exact rests.2
  · intro b hb a ha same buy sell
    rcases List.mem_append.1 hb with hb | hb
    · rcases List.mem_append.1 ha with ha | ha
      · exact h.uncrossed b hb a ha same buy sell
      · rw [List.mem_singleton.1 ha] at same sell ⊢
        have miss := clear b (mem_sideOf.2 ⟨hb, same, by rw [buy, sell]; rfl⟩)
        rw [crosses_sell rests.2 sell, UInt64.not_le] at miss
        exact miss
    · rw [List.mem_singleton.1 hb] at same buy ⊢
      rcases List.mem_append.1 ha with ha | ha
      · have miss := clear a (mem_sideOf.2 ⟨ha, same.symm, by rw [buy, sell]; rfl⟩)
        rw [crosses_buy rests.2 buy, UInt64.not_le] at miss
        exact miss
      · rw [List.mem_singleton.1 ha, buy] at sell
        cases sell

end Kept

/-- The invariant of an exchange: its live orders are orderly, of configured
symbols, and older than the next. -/
structure Valid (x : Exchange) : Prop where
  orderly : Orderly x.live
  known : ∀ o ∈ x.live, o.order.symbol ∈ x.configured
  arrivals : ∀ o ∈ x.live, o.arrival < x.nextArrival

section Steps

variable {x : Exchange}

/-- A key that is free before a sweep is free after it. -/
theorem find_sweep {key : OrderKey} (absent : x.find? key = none) (taker : OrderState) :
    { x with live := (sweep x.live taker).live }.find? key = none := by
  refine List.find?_eq_none.2 fun o ho => ?_
  obtain ⟨o', member, -, terms⟩ := sweep_live _ _ o ho
  rw [terms.key]
  exact List.find?_eq_none.1 absent o' member

theorem Valid.empty (configured : List Symbol) (nextArrival : Nat) : Valid ⟨configured, [], nextArrival⟩ :=
  ⟨⟨List.Pairwise.nil, List.Pairwise.nil, by simp, by simp, by simp⟩, by simp, by simp⟩

theorem Valid.remove (h : Valid x) (key : OrderKey) : Valid (x.remove key) :=
  ⟨h.orderly.filter _, fun o ho => h.known o (List.mem_filter.1 ho).1, fun o ho => h.arrivals o (List.mem_filter.1 ho).1⟩

/-- The state in the middle of a new order: swept, nothing rested yet. -/
theorem Valid.swept (h : Valid x) (taker : OrderState) : Valid { x with live := (sweep x.live taker).live } where
  orderly := h.orderly.sweep taker
  known := by
    intro o ho
    obtain ⟨o', member, -, terms⟩ := sweep_live _ _ o ho
    rw [terms.symbol]
    exact h.known o' member
  arrivals := by
    intro o ho
    obtain ⟨o', member, arrival, -⟩ := sweep_live _ _ o ho
    rw [← arrival]
    exact h.arrivals o' member

/-- **A new order keeps the invariant.** -/
theorem Valid.accept (h : Valid x) {request : NewOrderSingle} (known : request.symbol ∈ x.configured)
    (absent : x.find? ⟨request.clientId, request.clOrdId⟩ = none) : Valid (x.accept request).1 := by
  have swept := h.swept (orderFor request)
  have stops := sweep_stops x.live (orderFor request)
  have bound := sweep_taker_le x.live (orderFor request) (UInt64.le_refl _)
  have free := Exchange.find?_none.1 (find_sweep absent (orderFor request))
  obtain ⟨q, terms⟩ := sweep_taker x.live (orderFor request)
  simp only [Exchange.accept, Exchange.rest]
  generalize sweep x.live (orderFor request) = s at *
  obtain ⟨fills, live, taker⟩ := s
  simp only at *
  subst terms
  split
  · rename_i rests
    refine ⟨swept.orderly.rest swept.arrivals free rests bound (stops.resolve_left rests.1), ?_, ?_⟩
    · intro o ho
      rcases List.mem_append.1 ho with ho | ho
      · exact swept.known o ho
      · rw [List.mem_singleton.1 ho]
        exact known
    · intro o ho
      rcases List.mem_append.1 ho with ho | ho
      · exact Nat.lt_succ_of_lt (swept.arrivals o ho)
      · rw [List.mem_singleton.1 ho]
        exact Nat.lt_succ_self _
  · exact swept

/-- **Every step keeps the invariant.** -/
theorem Valid.step (h : Valid x) (request : Request) : Valid (x.step request).1 := by
  have outcome := step_outcome x request
  generalize x.step request = next at outcome ⊢
  cases outcome with
  | refused => exact h
  | accepted request absent known => exact h.accept known absent
  | cancelled => exact h.remove _
  | replaced incoming o member keyed absent known => exact (h.remove _).accept known absent
  | lost => exact h.remove _
  | flushed => exact Valid.empty _ _

/-- No step changes the configured symbols. -/
theorem step_configured (x : Exchange) (request : Request) : (x.step request).1.configured = x.configured := by
  have accept : ∀ (x : Exchange) request, (x.accept request).1.configured = x.configured := by
    intro x request
    simp only [Exchange.accept, Exchange.rest]
    split <;> rfl
  have outcome := step_outcome x request
  generalize x.step request = next at outcome ⊢
  cases outcome with
  | refused => rfl
  | accepted request => exact accept x request
  | cancelled => rfl
  | replaced incoming o => exact accept (x.remove o.order.key) _
  | lost => rfl
  | flushed => rfl

theorem run_configured (configuration : EngineConfig) (requests : List Request) :
    (run configuration requests).1.configured = configuration.validSymbols :=
  Run.drive_rule (P := fun x _ => x.configured = configuration.validSymbols) (Q := fun _ => True) rfl
    (fun x _ request before _ => (step_configured x request).trans before) requests fun _ _ => trivial

/-- Every exchange that a run reaches is valid. -/
theorem run_valid (configuration : EngineConfig) (requests : List Request) : Valid (run configuration requests).1 :=
  Run.drive_rule (P := fun x _ => Valid x) (Q := fun _ => True) (Valid.empty _ _)
    (fun _ _ request valid _ => valid.step request) requests fun _ _ => trivial

end Steps

end DemoExchange.Reference
