import DemoExchange.Reference.Orderly

/-!
# Arrival numbers count from anywhere

Arrival numbers are compared and never read, so an exchange whose arrivals are
all later by the same number does the same and stays later by that number. An
emptied exchange is a new one, later.
-/

namespace DemoExchange.Reference
set_option autoImplicit false
open OrderEntry MatchingEngine

/-- The order with a later arrival number. -/
def later (k : Nat) (o : LiveOrder) : LiveOrder := { o with arrival := o.arrival + k }

/-- The exchange with later arrivals. -/
def Exchange.later (k : Nat) (x : Exchange) : Exchange :=
  { x with live := x.live.map (Reference.later k), nextArrival := x.nextArrival + k }

/-- The sweep with later arrivals. -/
def Sweep.later (k : Nat) (s : Sweep) : Sweep := { s with live := s.live.map (Reference.later k) }

section Later

variable {k : Nat} {live : List LiveOrder} {symbol : Symbol} {side : Side} {maker : LiveOrder}

theorem rank_later (o p : LiveOrder) : rank (later k o) < rank (later k p) ↔ rank o < rank p := by
  simp only [rank, later, Prod.Lex.toLex_lt_toLex]
  omega

/-- The least of a list is the least of it under a map that keeps the order. -/
theorem argmin_later (queue : List LiveOrder) : (queue.map (later k)).argmin rank = (queue.argmin rank).map (later k) := by
  induction queue using List.reverseRecOn with
  | nil => rfl
  | append_singleton queue o ih =>
    rw [List.map_append, List.map_singleton, List.argmin_concat, List.argmin_concat, ih]
    cases queue.argmin rank with
    | none => rfl
    | some p =>
      simp only [Option.map_some, rank_later]
      split <;> rfl

theorem filter_later (q : OrderState → Bool) :
    (live.map (later k)).filter (fun o => q o.order) = (live.filter fun o => q o.order).map (later k) := by
  rw [List.filter_map]
  rfl

theorem sideOf_later : sideOf (live.map (later k)) symbol side = (sideOf live symbol side).map (later k) :=
  filter_later fun o => OnSide symbol side o

theorem bestOn_later : bestOn (live.map (later k)) symbol side = (bestOn live symbol side).map (later k) := by
  rw [bestOn, sideOf_later, argmin_later]
  rfl

theorem settle_later (quantity : Quantity) :
    settle (live.map (later k)) (later k maker) quantity = (settle live maker quantity).map (later k) := by
  have same : ∀ o : LiveOrder, (later k o).arrival = (later k maker).arrival ↔ o.arrival = maker.arrival :=
    fun _ => Nat.add_right_cancel_iff
  by_cases used : maker.order.leavesQty - quantity = 0
  · rw [settle_used used, @settle_used _ (later k maker) _ used, List.filter_map]
    congr 1
    apply List.filter_congr
    intro o _
    simp [Function.comp, same]
  · rw [settle_left used, @settle_left _ (later k maker) _ used, List.map_map, List.map_map]
    apply List.map_congr_left
    intro o _
    simp only [Function.comp, filled, same]
    split <;> rfl

/-- **A sweep** of later orders is the sweep, later. -/
theorem sweep_later (live : List LiveOrder) (taker : OrderState) :
    sweep (live.map (later k)) taker = (sweep live taker).later k := by
  induction live, taker using sweep.induct with
  | case1 live taker empty =>
    rw [sweep_empty empty, sweep_empty empty]
    rfl
  | case2 live taker some none =>
    have none' := @bestOn_later k live taker.symbol (otherSide taker.side)
    rw [none] at none'
    rw [sweep_none none, sweep_none none']
    rfl
  | case3 live taker some maker best hit fill ih =>
    have best' := @bestOn_later k live taker.symbol (otherSide taker.side)
    rw [best] at best'
    rw [sweep_fill some best hit, sweep_fill some best' hit]
    rw [show min taker.leavesQty (later k maker).order.leavesQty = fill.quantity from rfl, settle_later, ih]
    rfl
  | case4 live taker some maker best miss =>
    have best' := @bestOn_later k live taker.symbol (otherSide taker.side)
    rw [best] at best'
    rw [sweep_miss best miss, sweep_miss best' miss]
    rfl

theorem topOfBook_later : topOfBook (live.map (later k)) symbol side = topOfBook live symbol side := by
  rw [topOfBook, bestOn_later, Option.map_map, topOfBook, sideOf_later]
  congr 1
  funext best
  simp only [Function.comp, List.filter_map, List.map_map]
  rfl

theorem bestPriceOn_later : bestPriceOn (live.map (later k)) symbol side = bestPriceOn live symbol side := by
  rw [bestPriceOn, bestOn_later, Option.map_map]
  rfl

theorem bookUpdate_later (securityId : SecurityId) :
    bookUpdate (live.map (later k)) symbol side securityId = bookUpdate live symbol side securityId := by
  rw [bookUpdate, topOfBook_later]
  rfl

end Later

section Steps

variable {k : Nat} {x : Exchange}

theorem live_later (x : Exchange) : (x.later k).live = x.live.map (later k) := rfl

theorem find_later (key : OrderKey) : (x.later k).find? key = (x.find? key).map (later k) := by
  rw [Exchange.find?, Exchange.later, List.find?_map]
  rfl

theorem remove_later (key : OrderKey) : (x.later k).remove key = (x.remove key).later k := by
  simp only [Exchange.remove, Exchange.later]
  congr 1
  exact filter_later fun o => o.key ≠ key

theorem removalUpdate_later (o : LiveOrder) : (x.later k).removalUpdate (later k o) = x.removalUpdate o := by
  unfold Exchange.removalUpdate
  rw [live_later, bestPriceOn_later, show (later k o).order = o.order from rfl, remove_later]
  split
  · exact congrArg ([·]) (bookUpdate_later _)
  · rfl

theorem rest_later (live : List LiveOrder) (order : OrderState) :
    (x.later k).rest (live.map (later k)) order = (x.rest live order).later k := by
  unfold Exchange.rest
  split
  · simp only [Exchange.later, List.map_append, List.map_singleton, later, Nat.add_right_comm]
  · rfl

theorem accept_later (sent : NewOrderSingle) :
    (x.later k).accept sent = ((x.accept sent).1.later k, (x.accept sent).2) := by
  simp only [Exchange.accept, live_later, sweep_later, Sweep.later, rest_later, bookUpdate_later, bestPriceOn_later]

/-- **A step** of a later exchange is the step, later. -/
theorem step_later (request : Request) : (x.later k).step request = ((x.step request).1.later k, (x.step request).2) := by
  have configured : (x.later k).configured = x.configured := rfl
  cases request with
  | newOrderSingle sent =>
    simp only [Exchange.step, Exchange.newOrderSingle, find_later, Option.isSome_map, configured, accept_later]
    split
    · rfl
    · split <;> rfl
  | replaceOrder incoming =>
    simp only [Exchange.step, Exchange.replaceOrder, find_later, Option.isSome_map, configured]
    cases x.find? ⟨incoming.clientId, incoming.origClOrdId⟩ with
    | none => rfl
    | some o =>
      have order : (later k o).order = o.order := rfl
      simp only [Option.map_some, order, remove_later, removalUpdate_later, accept_later]
      split
      · rfl
      · split <;> rfl
  | cancelOrder incoming =>
    simp only [Exchange.step, Exchange.cancelOrder, find_later]
    cases x.find? ⟨incoming.clientId, incoming.origClOrdId⟩ with
    | none => rfl
    | some o =>
      have order : (later k o).order = o.order := rfl
      simp only [Option.map_some, order, remove_later, removalUpdate_later]
  | flush => rfl

end Steps

/-- **Emptied, an exchange is a new one**, later. -/
theorem flush_later (configuration : EngineConfig) (requests : List Request) :
    ((run configuration requests).1.step .flush).1 =
      (Exchange.init configuration).later (run configuration requests).1.nextArrival := by
  have configured := run_configured configuration requests
  simp only [Exchange.step, Exchange.later, Exchange.init, List.map_nil, Nat.zero_add, ← configured]

end DemoExchange.Reference
