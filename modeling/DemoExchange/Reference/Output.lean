import DemoExchange.Reference.Ledger

/-!
# How much an exchange says

A trade uses up its maker, which then is live no more, or its taker, which then
does not rest. So each accepted order pays for one trade: the trades of a run
and the orders that are live after it are no more than the orders accepted. All
other events of a request are a fixed number at most.
-/

namespace DemoExchange.Reference
set_option autoImplicit false
open OrderEntry MatchingEngine

section Counting

def isTrade : Emission → Bool
  | .trade _ => true
  | _ => false

/-- The report of an order that was accepted. -/
def isAccepted : Emission → Bool
  | .orderEntry (.executionReport r) => r.execType = .newOrder
  | _ => false

/-- The trades among some events. -/
def tradeCount (events : List Emission) : Nat := events.countP isTrade

/-- The orders accepted among some events. -/
def acceptedCount (events : List Emission) : Nat := events.countP isAccepted

@[simp] theorem tradeCount_append (events more : List Emission) :
    tradeCount (events ++ more) = tradeCount events + tradeCount more := List.countP_append

@[simp] theorem acceptedCount_append (events more : List Emission) :
    acceptedCount (events ++ more) = acceptedCount events + acceptedCount more := List.countP_append

/-- So many events at most, of which none is a trade or accepts an order. -/
structure Aside (n : Nat) (events : List Emission) : Prop where
  trades : tradeCount events = 0
  accepted : acceptedCount events = 0
  length : events.length ≤ n

theorem Aside.append {n m : Nat} {events more : List Emission} (aside : Aside n events) (aside' : Aside m more) :
    Aside (n + m) (events ++ more) := by
  refine ⟨?_, ?_, ?_⟩
  · rw [tradeCount_append, aside.trades, aside'.trades]
  · rw [acceptedCount_append, aside.accepted, aside'.accepted]
  · rw [List.length_append]
    exact Nat.add_le_add aside.length aside'.length

theorem aside_nil {n : Nat} : Aside n [] := ⟨rfl, rfl, Nat.zero_le n⟩

theorem aside_one {event : Emission} (trade : isTrade event = false) (accepted : isAccepted event = false) : Aside 1 [event] :=
  ⟨by simp [tradeCount, trade], by simp [acceptedCount, accepted], Nat.le_refl 1⟩

end Counting

section Sweeping

/-- One more order that can be live: the aggressor while it has some left. -/
def pending (order : OrderState) : Nat := if order.leavesQty = 0 then 0 else 1

theorem pending_some {order : OrderState} (some : order.leavesQty ≠ 0) : pending order = 1 := if_neg some

theorem pending_le (order : OrderState) : pending order ≤ 1 := by
  unfold pending
  split
  · exact Nat.zero_le 1
  · exact Nat.le_refl 1

/-- **A trade** uses up its maker or its taker. -/
theorem settle_pays {live : List LiveOrder} {taker : OrderState} {maker : LiveOrder} (hits : Hits live taker maker) :
    (settle live maker (min taker.leavesQty maker.order.leavesQty)).length +
        pending (fillOrder taker (min taker.leavesQty maker.order.leavesQty)) + 1 ≤ live.length + pending taker := by
  rw [pending_some hits.some]
  by_cases used : maker.order.leavesQty - min taker.leavesQty maker.order.leavesQty = 0
  · have shorter : (live.filter fun o => o.arrival ≠ maker.arrival).length < live.length := by
      refine List.length_filter_lt_length_iff_exists.2 ⟨maker, (best_mem hits.best).1, ?_⟩
      simp
    have last := pending_le (fillOrder taker (min taker.leavesQty maker.order.leavesQty))
    rw [settle_used used]
    omega
  · have done : pending (fillOrder taker (min taker.leavesQty maker.order.leavesQty)) = 0 := by
      rw [pending, fillOrder, fill_exhausts used, if_pos rfl]
    rw [settle_left used, List.length_map, done]

theorem sweep_pays (live : List LiveOrder) (taker : OrderState) :
    (sweep live taker).fills.length + (sweep live taker).live.length + pending (sweep live taker).taker ≤ live.length + pending taker := by
  have rule := sweep_rule (P := fun live' taker' fills => fills.length + live'.length + pending taker' ≤ live.length + pending taker)
    (fun live' taker' fills maker hits paid => by
      have pays := settle_pays hits
      rw [List.length_append, List.length_singleton]
      omega) live taker [] (by simp)
  simpa using rule

end Sweeping

section Stepping

variable {x : Exchange}

theorem rest_pays (x : Exchange) (live : List LiveOrder) (order : OrderState) :
    (x.rest live order).live.length ≤ live.length + pending order := by
  unfold Exchange.rest
  split
  · rename_i rests
    rw [pending_some rests.1, List.length_append, List.length_singleton]
  · exact Nat.le_add_right _ _

theorem trades_of_fills (fills : List Fill) : tradeCount (fills.map fun f => Emission.trade f.call) = fills.length ∧
    acceptedCount (fills.map fun f => Emission.trade f.call) = 0 := by
  induction fills with
  | nil => exact ⟨rfl, rfl⟩
  | cons f fills ih =>
    obtain ⟨trades, accepted⟩ := ih
    rw [tradeCount, acceptedCount] at *
    rw [List.map_cons, List.countP_cons_of_pos rfl, List.countP_cons_of_neg Bool.false_ne_true, trades, accepted]
    exact ⟨rfl, rfl⟩

theorem aside_tradeReports (request : NewOrderSingle) (taker : OrderState) (fills : List Fill) :
    Aside 2 (tradeReports request taker fills) := by
  unfold tradeReports
  split
  · exact aside_nil
  · exact ⟨rfl, rfl, Nat.le_refl 2⟩

theorem aside_removalUpdate (x : Exchange) (o : LiveOrder) : Aside 1 (x.removalUpdate o) := by
  unfold Exchange.removalUpdate
  split
  · exact aside_one rfl rfl
  · exact aside_nil

/-- **A new order** is accepted once, and its events other than trades are five at most. -/
theorem accept_pays (x : Exchange) (request : NewOrderSingle) :
    tradeCount (x.accept request).2 + (x.accept request).1.live.length ≤ x.live.length + 1 ∧
      acceptedCount (x.accept request).2 = 1 ∧ (x.accept request).2.length ≤ tradeCount (x.accept request).2 + 5 := by
  have swept := sweep_pays x.live (orderFor request)
  have first := pending_le (orderFor request)
  simp only [Exchange.accept]
  generalize sweep x.live (orderFor request) = s at swept ⊢
  have rested := rest_pays x s.live s.taker
  generalize x.rest s.live s.taker = x' at rested ⊢
  obtain ⟨trades, traded⟩ := trades_of_fills s.fills
  have consumed : Aside 1 (if s.fills = [] then [] else
      [bookUpdate x'.live request.symbol (otherSide request.side) request.securityId]) := by
    split
    · exact aside_nil
    · exact aside_one rfl rfl
  have placed : Aside 1 (if Exchange.Rests s.taker ∧ bestPriceOn x'.live request.symbol request.side = some request.price then
      [bookUpdate x'.live request.symbol request.side request.securityId] else []) := by
    split
    · exact aside_one rfl rfl
    · exact aside_nil
  have rest := ((aside_tradeReports request s.taker s.fills).append consumed).append placed
  rw [List.append_assoc, List.append_assoc, List.cons_append, ← List.append_assoc (tradeReports request s.taker s.fills)]
  generalize tradeReports request s.taker s.fills ++ _ ++ _ = others at rest ⊢
  have accepts : ∀ events, tradeCount (report (orderFor request) .newOrder .newOrder :: events) = tradeCount events ∧
      acceptedCount (report (orderFor request) .newOrder .newOrder :: events) = acceptedCount events + 1 :=
    fun events => ⟨List.countP_cons_of_neg Bool.false_ne_true, List.countP_cons_of_pos rfl⟩
  rw [(accepts _).1, (accepts _).2, tradeCount_append, acceptedCount_append, trades, traded, rest.trades, rest.accepted,
    List.length_cons, List.length_append, List.length_map]
  have short := rest.length
  omega

/-- What comes of a request: trades are paid for, at most one order is accepted,
and the other events are six at most. -/
structure Pays (x : Exchange) (next : Exchange × List Emission) : Prop where
  trades : tradeCount next.2 + next.1.live.length ≤ x.live.length + acceptedCount next.2
  accepted : acceptedCount next.2 ≤ 1
  others : next.2.length ≤ tradeCount next.2 + 6

/-- Events without trades and acceptances, while orders leave. -/
theorem Aside.pays {n : Nat} {x x' : Exchange} {events : List Emission} (aside : Aside n events) (few : n ≤ 6)
    (leave : x'.live.length ≤ x.live.length) : Pays x (x', events) := by
  obtain ⟨trades, accepted, length⟩ := aside
  refine ⟨?_, ?_, ?_⟩
  · simpa only [trades, accepted, Nat.zero_add, Nat.add_zero] using leave
  · simp only [accepted, Nat.zero_le]
  · exact (length.trans few).trans (Nat.le_add_left 6 _)

theorem remove_length (x : Exchange) (key : OrderKey) : (x.remove key).live.length ≤ x.live.length := List.length_filter_le _ _

/-- **One request.** -/
theorem step_pays (x : Exchange) (request : Request) : Pays x (x.step request) := by
  have silent : Pays x (x, []) := Aside.pays aside_nil (Nat.zero_le 6) (Nat.le_refl _)
  have rejected : ∀ cancel reason text, Pays x (x, [reject cancel reason text]) := fun _ _ _ =>
    (aside_one rfl rfl).pays (by decide) (Nat.le_refl _)
  cases request with
  | newOrderSingle request =>
    simp only [Exchange.step, Exchange.newOrderSingle]
    split
    · exact silent
    · split
      · obtain ⟨trades, accepted, others⟩ := accept_pays x request
        exact ⟨by rw [accepted]; exact trades, by rw [accepted], others.trans (Nat.le_succ _)⟩
      · exact silent
  | replaceOrder incoming =>
    simp only [Exchange.step, Exchange.replaceOrder]
    split
    · exact rejected _ _ _
    · rename_i o found
      split
      · exact rejected _ _ _
      · have left := remove_length x o.order.key
        split
        · obtain ⟨trades, accepted, others⟩ := accept_pays (x.remove o.order.key) (replacementOf incoming)
          obtain ⟨none, neither, short⟩ := aside_removalUpdate x o
          refine ⟨?_, ?_, ?_⟩
          · rw [tradeCount_append, acceptedCount_append, none, neither, accepted, Nat.zero_add, Nat.zero_add]
            exact trades.trans (Nat.add_le_add_right left 1)
          · rw [acceptedCount_append, neither, accepted]
          · rw [tradeCount_append, none, List.length_append]
            omega
        · have said : Aside 1 [reject (cancelOf incoming) .unknownSymbol "unknown symbol"] := aside_one rfl rfl
          exact ((aside_removalUpdate x o).append said).pays (by decide) left
  | cancelOrder incoming =>
    simp only [Exchange.step, Exchange.cancelOrder]
    split
    · exact rejected _ _ _
    · rename_i o found
      have said : Aside 1 [report o.order .canceled .canceled (some incoming.origClOrdId)] := aside_one rfl rfl
      exact (said.append (aside_removalUpdate x o)).pays (by decide) (remove_length x _)
  | flush => exact Aside.pays aside_nil (Nat.zero_le 6) (Nat.zero_le _)

end Stepping

/-- The trades of a run are paid for by the orders it accepted, and its other events are six a request at most. -/
structure Paid (x : Exchange) (trace : List (Request × List Emission)) : Prop where
  trades : tradeCount (logOf trace) + x.live.length ≤ acceptedCount (logOf trace)
  accepted : acceptedCount (logOf trace) ≤ trace.length
  others : (logOf trace).length ≤ tradeCount (logOf trace) + 6 * trace.length

theorem Paid.start (configuration : EngineConfig) : Paid (Exchange.init configuration) [] :=
  ⟨Nat.le_refl 0, Nat.le_refl 0, Nat.le_refl 0⟩

theorem Paid.step {x : Exchange} {trace : List (Request × List Emission)} (paid : Paid x trace) (request : Request) :
    Paid (x.step request).1 (trace ++ [(request, (x.step request).2)]) := by
  obtain ⟨trades, accepted, others⟩ := paid
  obtain ⟨trades', accepted', others'⟩ := step_pays x request
  refine ⟨?_, ?_, ?_⟩
  · rw [logOf_snoc, tradeCount_append, acceptedCount_append]
    omega
  · rw [logOf_snoc, acceptedCount_append, List.length_append, List.length_singleton]
    omega
  · rw [logOf_snoc, tradeCount_append, List.length_append, List.length_append, List.length_singleton]
    omega

/-- **Output is linear** in the requests of a run. -/
theorem run_paid (configuration : EngineConfig) (requests : List Request) :
    Paid (run configuration requests).1 (run configuration requests).2 :=
  Run.drive_rule (P := Paid) (Q := fun _ => True) (Paid.start configuration)
    (fun _ _ request paid _ => paid.step request) requests fun _ _ => trivial

end DemoExchange.Reference
