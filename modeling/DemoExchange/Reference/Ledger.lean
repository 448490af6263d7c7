import DemoExchange.Lib.Log
import DemoExchange.Reference.Orderly

/-!
# The account of an order

Read off the events alone, `traded key log` is what the order under `key` has
traded since it was last accepted under that key: a report of acceptance opens
an account, and a trade is booked to both its parties. What a live order has
left and what it has traded make up what it was sent with, through every fill,
cancel, replace and reuse of its key.
-/

namespace DemoExchange.Reference
set_option autoImplicit false
open OrderEntry MatchingEngine Log

/-- The key of the order that a report is about. -/
def reportKey (r : ExecutionReport) : OrderKey := ⟨r.clientId, r.clOrdId⟩

/-- The account of `key` after one more event. -/
def account (key : OrderKey) (total : Nat) : Emission → Nat
  | .orderEntry (.executionReport r) => if r.execType = .newOrder ∧ reportKey r = key then 0 else total
  | .trade call => if call.taker.key = key ∨ call.maker.key = key then total + call.event.quantity.toNat else total
  | _ => total

/-- The quantity traded under `key` since the last acceptance of an order with that key. -/
def traded (key : OrderKey) (log : List Emission) : Nat := log.foldl (account key) 0

/-- What is left of the order and what it has traded are what it was sent with. -/
def Settled (log : List Emission) (order : OrderState) : Prop :=
  order.leavesQty.toNat + traded order.key log = order.orderQty.toNat

/-- The quantities an event carries agree with the events before it: a report
gives what has been traded and what is left, and a trade takes no more from
either party than it has left. -/
def Accurate (before : List Emission) : Emission → Prop
  | .orderEntry (.executionReport r) =>
    r.cumQty.toNat = traded (reportKey r) (before ++ [.orderEntry (.executionReport r)]) ∧
      r.cumQty.toNat + r.leavesQty.toNat = r.orderQty.toNat
  | .trade call => ∀ party ∈ [call.taker, call.maker], Settled before party ∧ call.event.quantity ≤ party.leavesQty
  | _ => True

theorem traded_snoc (key : OrderKey) (log : List Emission) (event : Emission) :
    traded key (log ++ [event]) = account key (traded key log) event := by
  rw [traded, List.foldl_append]
  rfl

/-- No account is opened or charged by the event. -/
def Idle (event : Emission) : Prop := ∀ key total, account key total event = total

theorem traded_idle {log events : List Emission} (idle : ∀ event ∈ events, Idle event) (key : OrderKey) :
    traded key (log ++ events) = traded key log := by
  induction events using List.reverseRecOn with
  | nil => rw [List.append_nil]
  | append_singleton events event ih =>
    rw [← List.append_assoc, traded_snoc, idle event (by simp), ih fun e he => idle e (by simp [he])]

theorem Settled.idle {log events : List Emission} {order : OrderState} (h : Settled log order)
    (idle : ∀ event ∈ events, Idle event) : Settled (log ++ events) order := by
  rw [Settled, traded_idle idle]
  exact h

section Reports

variable {log : List Emission} {order : OrderState}

theorem idle_report (order : OrderState) {execType : ExecType} (later : execType ≠ .newOrder) (ordStatus : OrdStatus)
    (origClOrdId : Option OrigClOrdId) (lastQty : Option Quantity) (lastPx : Option Price) :
    Idle (report order execType ordStatus origClOrdId lastQty lastPx) := by
  intro key total
  exact if_neg fun both => later both.1

theorem idle_marketData (message : MarketData.Message) : Idle (.marketData message) := fun _ _ => rfl

theorem idle_reject (cancel : CancelOrder) (reason : RejectReason) (text : String) :
    Idle (reject cancel reason text) := fun _ _ => rfl

theorem Settled.toNat_sub (h : Settled log order) :
    (order.orderQty - order.leavesQty).toNat = traded order.key log := by
  unfold Settled at h
  have bound : order.leavesQty ≤ order.orderQty := by
    rw [UInt64.le_iff_toNat_le]
    omega
  rw [UInt64.toNat_sub_of_le _ _ bound]
  omega

/-- A report about a settled order after its acceptance is accurate. -/
theorem accurate_report (h : Settled log order) {execType : ExecType} (later : execType ≠ .newOrder)
    (ordStatus : OrdStatus) (origClOrdId : Option OrigClOrdId) (lastQty : Option Quantity) (lastPx : Option Price) :
    Accurate log (report order execType ordStatus origClOrdId lastQty lastPx) := by
  have same := idle_report order later ordStatus origClOrdId lastQty lastPx
  have cum := h.toNat_sub
  constructor
  · show (order.orderQty - order.leavesQty).toNat = traded order.key (log ++ [report order execType ordStatus _ _ _])
    rw [traded_snoc, same, cum]
  · show (order.orderQty - order.leavesQty).toNat + order.leavesQty.toNat = order.orderQty.toNat
    unfold Settled at h
    omega

end Reports

/-! ## A new order -/

section Acceptance

variable {log : List Emission} {live : List LiveOrder} {taker : OrderState}

/-- The report of acceptance opens the account of its order. -/
theorem traded_accepted (log : List Emission) (order : OrderState) :
    traded order.key (log ++ [report order .newOrder .newOrder]) = 0 := by
  rw [traded_snoc]
  exact if_pos ⟨rfl, rfl⟩

theorem traded_accepted_ne (log : List Emission) {order : OrderState} {key : OrderKey} (ne : key ≠ order.key) :
    traded key (log ++ [report order .newOrder .newOrder]) = traded key log := by
  rw [traded_snoc]
  exact if_neg fun both => ne both.2.symm

theorem accurate_accepted (log : List Emission) {order : OrderState} (whole : order.leavesQty = order.orderQty) :
    Accurate log (report order .newOrder .newOrder) := by
  have zero : (order.orderQty - order.leavesQty).toNat = 0 := by
    rw [whole, UInt64.sub_self]
    rfl
  constructor
  · show (order.orderQty - order.leavesQty).toNat = traded order.key (log ++ [report order .newOrder .newOrder])
    rw [traded_accepted, zero]
  · show (order.orderQty - order.leavesQty).toNat + order.leavesQty.toNat = order.orderQty.toNat
    rw [zero, whole, Nat.zero_add]

/-- The trades of the fills, as they are emitted. -/
abbrev trades (fills : List Fill) : List Emission := fills.map fun f => .trade f.call

/-- In the middle of a new order: every live order and the aggressor are
settled, and so far every event was accurate. -/
structure Balanced (log : List Emission) (live : List LiveOrder) (taker : OrderState) : Prop where
  orderly : Orderly live
  absent : ∀ o ∈ live, o.order.key ≠ taker.key
  live : ∀ o ∈ live, Settled log o.order
  taker : Settled log taker
  accurate : Each Accurate log

/-- A party to a trade, after it. -/
theorem Settled.fill {order : OrderState} (h : Settled log order) {f : Fill} (party : order.key = f.taker.key ∨ order.key = f.maker.key)
    (bound : f.quantity ≤ order.leavesQty) : Settled (log ++ [.trade f.call]) (fillOrder order f.quantity) := by
  unfold Settled at h ⊢
  rw [traded_snoc]
  have charged : account (fillOrder order f.quantity).key (traded (fillOrder order f.quantity).key log) (.trade f.call) =
      traded order.key log + f.quantity.toNat := by
    refine if_pos ?_
    obtain same | same := party
    · exact .inl same.symm
    · exact .inr same.symm
  rw [charged]
  show (order.leavesQty - f.quantity).toNat + _ = order.orderQty.toNat
  rw [UInt64.toNat_sub_of_le _ _ bound]
  rw [UInt64.le_iff_toNat_le] at bound
  omega

/-- An order that is no party to a trade is settled after it. -/
theorem Settled.other {order : OrderState} (h : Settled log order) {f : Fill} (taker : order.key ≠ f.taker.key)
    (maker : order.key ≠ f.maker.key) : Settled (log ++ [.trade f.call]) order := by
  unfold Settled at h ⊢
  rw [traded_snoc]
  have uncharged : account order.key (traded order.key log) (.trade f.call) = traded order.key log := by
    refine if_neg fun party => ?_
    obtain same | same := party
    · exact taker same.symm
    · exact maker same.symm
  rw [uncharged]
  exact h

/-- **One fill** is booked to both its parties. -/
theorem Balanced.fill (h : Balanced log live taker) {maker : LiveOrder} (hits : Hits live taker maker) :
    Balanced (log ++ [.trade (Fill.call ⟨taker, maker.order⟩)])
      (settle live maker (min taker.leavesQty maker.order.leavesQty))
      (fillOrder taker (min taker.leavesQty maker.order.leavesQty)) := by
  have member := (best_mem hits.best).1
  have apart := h.absent maker member
  have makerSettled := h.live maker member
  have outside : ∀ o ∈ live, o.arrival ≠ maker.arrival →
      Settled (log ++ [.trade (Fill.call ⟨taker, maker.order⟩)]) o.order := by
    intro o ho ne
    refine (h.live o ho).other (h.absent o ho) fun same => ne ?_
    rw [h.orderly.key_inj ho member same]
  refine ⟨h.orderly.settle hits, ?_, ?_, h.taker.fill (f := ⟨taker, maker.order⟩) (.inl rfl) (min_le_left' _ _),
    h.accurate.snoc ?_⟩
  · intro o ho
    obtain ⟨inside, -⟩ | ⟨o', inside, -, rfl, -⟩ := mem_settle ho
    · exact h.absent o inside
    · exact h.absent o' inside
  · intro o ho
    obtain ⟨inside, ne⟩ | ⟨o', inside, same, rfl, -⟩ := mem_settle ho
    · exact outside o inside ne
    · cases h.orderly.arrival_inj inside member same
      exact makerSettled.fill (f := ⟨taker, maker.order⟩) (.inr rfl) (min_le_right' _ _)
  · intro party inside
    obtain rfl | inside := List.mem_cons.1 inside
    · exact ⟨h.taker, min_le_left' _ _⟩
    · rw [List.mem_singleton.1 inside]
      exact ⟨makerSettled, min_le_right' _ _⟩

/-- **A whole sweep**, by the rule of its fills. -/
theorem Balanced.sweep (h : Balanced log live taker) :
    Balanced (log ++ trades (sweep live taker).fills) (sweep live taker).live (sweep live taker).taker := by
  refine sweep_rule (P := fun live taker fills => Balanced (log ++ trades fills) live taker) ?_ live taker [] ?_
  · intro live taker fills maker hits before
    have after := before.fill hits
    rw [List.append_assoc] at after
    simpa only [trades, List.map_append, List.map_singleton] using after
  · simpa only [trades, List.map_nil, List.append_nil] using h

theorem Balanced.snoc (h : Balanced log live taker) {event : Emission} (idle : Idle event)
    (accurate : Accurate log event) : Balanced (log ++ [event]) live taker := by
  have only : ∀ e ∈ [event], Idle e := fun e he => by rw [List.mem_singleton.1 he]; exact idle
  exact ⟨h.orderly, h.absent, fun o ho => (h.live o ho).idle only, h.taker.idle only, h.accurate.snoc accurate⟩

/-- The summary of an aggressor's trades and its report. -/
theorem Balanced.tradeReports (h : Balanced log live taker) (request : NewOrderSingle) (fills : List Fill) :
    Balanced (log ++ tradeReports request taker fills) live taker := by
  unfold Reference.tradeReports
  split
  · rwa [List.append_nil]
  · rename_i last _
    have summed := h.snoc (idle_marketData (.executionSummary (summaryOf request last.maker.price
      (request.orderQty - taker.leavesQty)))) trivial
    have later : ExecType.trade ≠ .newOrder := by decide
    have reported := summed.snoc (idle_report taker later _ _ _ _) (accurate_report summed.taker later
      (if taker.leavesQty = 0 then OrdStatus.filled else .partiallyFilled) none
      (some (request.orderQty - taker.leavesQty)) (some last.maker.price))
    rw [List.append_assoc] at reported
    exact reported

end Acceptance

/-! ## Runs -/

/-- Every live order is settled and every event so far was accurate. -/
structure Ledger (x : Exchange) (log : List Emission) : Prop where
  valid : Valid x
  live : ∀ o ∈ x.live, Settled log o.order
  accurate : Each Accurate log

/-- Events that open and charge no account and carry no quantity to check. -/
def Quiet (event : Emission) : Prop := Idle event ∧ ∀ before, Accurate before event

section Runs

variable {x : Exchange} {log events : List Emission}

theorem quiet_marketData (message : MarketData.Message) : Quiet (.marketData message) :=
  ⟨idle_marketData _, fun _ => trivial⟩

theorem quiet_reject (cancel : CancelOrder) (reason : RejectReason) (text : String) : Quiet (reject cancel reason text) :=
  ⟨idle_reject _ _ _, fun _ => trivial⟩

theorem quiet_removalUpdate (x : Exchange) (o : LiveOrder) : ∀ event ∈ x.removalUpdate o, Quiet event := by
  intro event member
  obtain ⟨message, rfl⟩ := mem_removalUpdate member
  exact quiet_marketData _

theorem Ledger.quiet (h : Ledger x log) (quiet : ∀ event ∈ events, Quiet event) : Ledger x (log ++ events) :=
  ⟨h.valid, fun o ho => (h.live o ho).idle fun e he => (quiet e he).1,
    h.accurate.append_of_forall fun e he => (quiet e he).2⟩

theorem Ledger.remove (h : Ledger x log) (key : OrderKey) : Ledger (x.remove key) log :=
  ⟨h.valid.remove key, fun o ho => h.live o (List.mem_filter.1 ho).1, h.accurate⟩

/-- **A new order keeps the accounts.** -/
theorem Ledger.accept (h : Ledger x log) {request : NewOrderSingle} (known : request.symbol ∈ x.configured)
    (absent : x.find? ⟨request.clientId, request.clOrdId⟩ = none) :
    Ledger (x.accept request).1 (log ++ (x.accept request).2) := by
  have valid := h.valid.accept known absent
  have free := Exchange.find?_none.1 absent
  -- accepted: its account is open
  have accepted : Balanced (log ++ [report (orderFor request) .newOrder .newOrder]) x.live
      (orderFor request) := by
    refine ⟨h.valid.orderly, free, fun o ho => ?_, ?_, h.accurate.snoc (accurate_accepted log rfl)⟩
    · rw [Settled, traded_accepted_ne log (free o ho)]
      exact h.live o ho
    · rw [Settled, traded_accepted]
      rfl
  have done := accepted.sweep.tradeReports request (sweep x.live (orderFor request)).fills
  simp only [Exchange.accept] at valid ⊢
  generalize sweep x.live (orderFor request) = s at *
  have rested : Ledger (x.rest s.live s.taker)
      (log ++ [report (orderFor request) .newOrder .newOrder] ++ trades s.fills ++
        tradeReports request s.taker s.fills) := by
    refine ⟨valid, fun o ho => ?_, done.accurate⟩
    unfold Exchange.rest at ho
    split at ho
    · rcases List.mem_append.1 ho with ho | ho
      · exact done.live o ho
      · rw [List.mem_singleton.1 ho]
        exact done.taker
    · exact done.live o ho
  have updates : ∀ event ∈ (if s.fills = [] then [] else
        [bookUpdate (x.rest s.live s.taker).live request.symbol (otherSide request.side) request.securityId]) ++
      if Exchange.Rests s.taker ∧
          bestPriceOn (x.rest s.live s.taker).live request.symbol request.side = some request.price then
        [bookUpdate (x.rest s.live s.taker).live request.symbol request.side request.securityId] else [], Quiet event := by
    intro event member
    obtain ⟨side, rfl⟩ := mem_updates member
    exact quiet_marketData _
  have published := rested.quiet updates
  simpa only [List.append_assoc, List.cons_append, List.nil_append] using published

/-- **Every step keeps the accounts.** -/
theorem Ledger.step (h : Ledger x log) (request : Request) :
    Ledger (x.step request).1 (log ++ (x.step request).2) := by
  have outcome := step_outcome x request
  generalize x.step request = next at outcome ⊢
  cases outcome with
  | refused request events rejects =>
    refine h.quiet fun event member => ?_
    obtain ⟨cancel, reason, text, rfl⟩ := rejects event member
    exact quiet_reject _ _ _
  | accepted request absent known => exact h.accept known absent
  | cancelled incoming o member keyed =>
    have settled := h.live o member
    have later : ExecType.canceled ≠ .newOrder := by decide
    have idle := idle_report o.order later .canceled (some incoming.origClOrdId) none none
    have reported : Ledger x (log ++ [report o.order .canceled .canceled (some incoming.origClOrdId)]) :=
      ⟨h.valid, fun p hp => (h.live p hp).idle (by simpa using idle), h.accurate.snoc (accurate_report settled later _ _ _ _)⟩
    have updated := (reported.remove o.order.key).quiet (quiet_removalUpdate x o)
    rw [List.append_assoc] at updated
    exact updated
  | replaced incoming o member keyed absent known =>
    have removed := (h.remove o.order.key).quiet (quiet_removalUpdate x o)
    rw [← List.append_assoc]
    exact removed.accept known absent
  | lost incoming o =>
    have removed := (h.remove o.order.key).quiet (quiet_removalUpdate x o)
    rw [← List.append_assoc]
    exact removed.quiet (by simpa using quiet_reject _ _ _)
  | flushed =>
    rw [List.append_nil]
    exact ⟨Valid.empty _ _, by simp, h.accurate⟩

/-- Everything emitted in a run, in order. -/
def logOf (trace : List (Request × List Emission)) : List Emission := trace.flatMap Prod.snd

theorem logOf_snoc (trace : List (Request × List Emission)) (request : Request) (events : List Emission) :
    logOf (trace ++ [(request, events)]) = logOf trace ++ events := by
  simp [logOf]

theorem run_ledger (configuration : EngineConfig) (requests : List Request) :
    Ledger (run configuration requests).1 (logOf (run configuration requests).2) :=
  Run.drive_rule (P := fun x trace => Ledger x (logOf trace)) (Q := fun _ => True)
    ⟨Valid.empty _ _, by simp, Each.nil⟩
    (fun x trace request before _ => by rw [logOf_snoc]; exact before.step request) requests fun _ _ => trivial

end Runs

end DemoExchange.Reference
