import DemoExchange.Reference.Ledger

/-!
# What the reports say about an order

Reports go to the aggressor and to the sender of a cancel. An order that is
traded against, whose market residual is dropped or that is replaced gets
none, so the last report for a key says whether the order is live only
together with the price of the request it answered, the trades the order was
the maker of since, and whether a replace of it was accepted since. `Standing`
collects these from the trace; `Tells` is what it then says.
-/

namespace DemoExchange.Reference
set_option autoImplicit false
open OrderEntry MatchingEngine

/-- The last report for a key, the price of the request that it answered, and
since then what the order has traded as a maker and whether it was replaced. -/
structure Standing where
  report : ExecutionReport
  price : Price
  makerTraded : Nat
  replaced : Bool

/-- The status of an order that can still trade. -/
def NonTerminal (status : OrdStatus) : Prop := status = .newOrder ∨ status = .partiallyFilled

instance (status : OrdStatus) : Decidable (NonTerminal status) := inferInstanceAs (Decidable (_ ∨ _))

/-- The price of an order request; a cancel has none. -/
def requestPrice : Request → Price
  | .newOrderSingle request => request.price
  | .replaceOrder request => request.price
  | .cancelOrder _ => 0
  | .flush => 0

/-- The standing of `key` after one more event made while handling `request`. -/
def hear (key : OrderKey) (request : Request) (standing : Option Standing) : Emission → Option Standing
  | .orderEntry (.executionReport r) =>
    if reportKey r = key then some ⟨r, requestPrice request, 0, false⟩ else standing
  | .trade call =>
    if call.maker.key = key then
      standing.map fun s => { s with makerTraded := s.makerTraded + call.event.quantity.toNat }
    else standing
  | _ => standing

def isReport : Emission → Bool
  | .orderEntry (.executionReport _) => true
  | _ => false

/-- The request is a replace of the order under `key` that was accepted. -/
def Replaces (key : OrderKey) (request : Request) (events : List Emission) : Prop :=
  match request with
  | .replaceOrder incoming => OrderKey.mk incoming.clientId incoming.origClOrdId = key ∧ events.any isReport = true
  | _ => False

instance (key : OrderKey) (request : Request) (events : List Emission) : Decidable (Replaces key request events) :=
  match request with
  | .replaceOrder _ => inferInstanceAs (Decidable (_ ∧ _))
  | .newOrderSingle _ => inferInstanceAs (Decidable False)
  | .cancelOrder _ => inferInstanceAs (Decidable False)
  | .flush => inferInstanceAs (Decidable False)

/-- The standing of `key` after one more request. -/
def hearAll (key : OrderKey) (standing : Option Standing) (entry : Request × List Emission) : Option Standing :=
  entry.2.foldl (hear key entry.1)
    (if Replaces key entry.1 entry.2 then standing.map fun s => { s with replaced := true } else standing)

def standing (key : OrderKey) (trace : List (Request × List Emission)) : Option Standing :=
  trace.foldl (hearAll key) none

/-- The standing of an order that is live: its last report is not terminal, it
had a price, it was not replaced, and it has not been used up as a maker. -/
def Standing.Live (s : Standing) : Prop :=
  NonTerminal s.report.ordStatus ∧ s.price ≠ 0 ∧ s.replaced = false ∧ s.makerTraded < s.report.leavesQty.toNat

/-- The standing tells whether an order with the key is live, and what it has left. -/
def Tells (key : OrderKey) (standing : Option Standing) (live : List LiveOrder) : Prop :=
  match standing with
  | none => ∀ o ∈ live, o.order.key ≠ key
  | some s => (s.Live ↔ ∃ o ∈ live, o.order.key = key) ∧
      ∀ o ∈ live, o.order.key = key → o.order.leavesQty.toNat + s.makerTraded = s.report.leavesQty.toNat

section Hearing

variable {key : OrderKey} {request : Request} {standing : Option Standing} {live : List LiveOrder}

/-- The event says nothing about the order under `key`. -/
def Deaf (key : OrderKey) (event : Emission) : Prop :=
  ∀ request standing, hear key request standing event = standing

theorem hear_deaf {events : List Emission} (deaf : ∀ event ∈ events, Deaf key event) :
    events.foldl (hear key request) standing = standing := by
  induction events using List.reverseRecOn with
  | nil => rfl
  | append_singleton events event ih =>
    rw [List.foldl_append, ih fun e he => deaf e (by simp [he])]
    exact deaf event (by simp) _ _

theorem deaf_report {order : OrderState} (ne : order.key ≠ key) (execType : ExecType) (ordStatus : OrdStatus)
    (origClOrdId : Option OrigClOrdId) (lastQty : Option Quantity) (lastPx : Option Price) :
    Deaf key (report order execType ordStatus origClOrdId lastQty lastPx) :=
  fun _ _ => if_neg ne

theorem deaf_trade {call : TradeCall} (ne : call.maker.key ≠ key) : Deaf key (.trade call) :=
  fun _ _ => if_neg ne

theorem deaf_marketData (message : MarketData.Message) : Deaf key (.marketData message) := fun _ _ => rfl

theorem deaf_reject (cancel : CancelOrder) (reason : RejectReason) (text : String) :
    Deaf key (reject cancel reason text) := fun _ _ => rfl

theorem deaf_removalUpdate (x : Exchange) (o : LiveOrder) : ∀ event ∈ x.removalUpdate o, Deaf key event := by
  intro event member
  obtain ⟨message, rfl⟩ := mem_removalUpdate member
  exact deaf_marketData _

theorem deaf_tradeReports {taker : OrderState} (ne : taker.key ≠ key) (request : NewOrderSingle) (fills : List Fill) :
    ∀ event ∈ tradeReports request taker fills, Deaf key event := by
  intro event member
  obtain ⟨message, rfl⟩ | ⟨ordStatus, lastQty, lastPx, rfl⟩ := mem_tradeReports member
  · exact deaf_marketData _
  · exact deaf_report ne _ _ _ _ _

/-- Orders with other keys do not matter. -/
theorem Tells.congr {live' : List LiveOrder} (h : Tells key standing live)
    (same : ∀ o, o.order.key = key → (o ∈ live' ↔ o ∈ live)) : Tells key standing live' := by
  cases standing with
  | none => exact fun o ho keyed => h o ((same o keyed).1 ho) keyed
  | some s =>
    obtain ⟨alive, left⟩ := h
    refine ⟨alive.trans ⟨?_, ?_⟩, fun o ho keyed => left o ((same o keyed).1 ho) keyed⟩
    · rintro ⟨o, ho, keyed⟩
      exact ⟨o, (same o keyed).2 ho, keyed⟩
    · rintro ⟨o, ho, keyed⟩
      exact ⟨o, (same o keyed).1 ho, keyed⟩

/-- **One fill**: its maker's standing counts it, and falls when it is used up. -/
theorem Tells.fill (request : Request) {taker : OrderState} {maker : LiveOrder} (orderly : Orderly live)
    (hits : Hits live taker maker) (h : Tells key standing live) :
    Tells key (hear key request standing (.trade (Fill.call ⟨taker, maker.order⟩)))
      (settle live maker (min taker.leavesQty maker.order.leavesQty)) := by
  have member := (best_mem hits.best).1
  by_cases mine : maker.order.key = key
  · subst mine
    cases standing with
    | none => exact absurd rfl (h maker member)
    | some s =>
      obtain ⟨alive, left⟩ := h
      have whole := left maker member rfl
      obtain ⟨status, priced, kept, -⟩ := alive.2 ⟨maker, member, rfl⟩
      have less := toNat_sub_min_right taker.leavesQty maker.order.leavesQty
      have quantity := toNat_min taker.leavesQty maker.order.leavesQty
      have heard : hear maker.order.key request (some s) (.trade (Fill.call ⟨taker, maker.order⟩)) =
          some { s with makerTraded := s.makerTraded + (min taker.leavesQty maker.order.leavesQty).toNat } := if_pos rfl
      rw [heard]
      by_cases used : maker.order.leavesQty - min taker.leavesQty maker.order.leavesQty = 0
      · have gone := orderly.settle_used member used
        rw [used, UInt64.toNat_zero] at less
        refine ⟨⟨?_, ?_⟩, fun o ho keyed => absurd keyed (gone o ho)⟩
        · rintro ⟨-, -, -, room⟩
          simp only at room
          omega
        · rintro ⟨o, ho, keyed⟩
          exact absurd keyed (gone o ho)
      · have positive : (maker.order.leavesQty - min taker.leavesQty maker.order.leavesQty).toNat ≠ 0 :=
          fun zero => used (UInt64.toNat_inj.1 zero)
        refine ⟨⟨fun _ => ?_, fun _ => ⟨status, priced, kept, ?_⟩⟩, ?_⟩
        · refine ⟨filled maker (min taker.leavesQty maker.order.leavesQty) maker, ?_, filled_key _ _ _⟩
          rw [settle_left used]
          exact List.mem_map_of_mem member
        · simp only
          omega
        · intro o ho keyed
          rw [orderly.settle_left member ho keyed]
          simp only [fillOrder]
          omega
  · rw [deaf_trade mine]
    refine h.congr fun o keyed => orderly.mem_settle_other member ?_
    rw [keyed]
    exact mine

/-- **A whole sweep**, by the rule of its fills. -/
theorem Tells.sweep (request : Request) (orderly : Orderly live) (taker : OrderState) (h : Tells key standing live) :
    Tells key ((trades (sweep live taker).fills).foldl (hear key request) standing) (sweep live taker).live := by
  have both := sweep_rule
    (P := fun live' _ fills => Orderly live' ∧ Tells key ((trades fills).foldl (hear key request) standing) live')
    ?_ live taker [] ⟨orderly, h⟩
  · exact both.2
  · rintro live' taker' fills maker hits ⟨orderly', before⟩
    refine ⟨orderly'.settle hits, ?_⟩
    rw [trades, List.map_append, List.foldl_append]
    exact before.fill request orderly' hits

end Hearing

section Steps

variable {key : OrderKey} {heard : Option Standing} {x : Exchange}

/-- The updates that a new order ends with say nothing about any order. -/
theorem deaf_updates (live : List LiveOrder) (request : NewOrderSingle) (fills : List Fill) (taker : OrderState) :
    ∀ event ∈ (if fills = [] then [] else
        [bookUpdate live request.symbol (otherSide request.side) request.securityId]) ++
      if Exchange.Rests taker ∧ bestPriceOn live request.symbol request.side = some request.price then
        [bookUpdate live request.symbol request.side request.securityId] else [], Deaf key event := by
  intro event member
  obtain ⟨side, rfl⟩ := mem_updates member
  exact deaf_marketData _

/-- What the aggressor's reports say of it: what it has left, and that it can
still trade if that is anything. -/
theorem hear_reports (request : Request) (sent : NewOrderSingle) (s : Sweep)
    (terms : Reduces (orderFor sent) s.taker) (idle : s.fills = [] → s.taker = orderFor sent) :
    ∃ r, (tradeReports sent s.taker s.fills).foldl (hear (orderFor sent).key request)
        (some ⟨reportOf (orderFor sent) .newOrder .newOrder none none none, requestPrice request, 0, false⟩) =
        some ⟨r, requestPrice request, 0, false⟩ ∧
      r.leavesQty = s.taker.leavesQty ∧ (r.leavesQty ≠ 0 → NonTerminal r.ordStatus) := by
  unfold tradeReports
  split
  · rename_i none
    rw [List.getLast?_eq_none_iff] at none
    refine ⟨_, rfl, ?_, fun _ => .inl rfl⟩
    rw [idle none]
    rfl
  · rename_i last _
    refine ⟨reportOf s.taker .trade (if s.taker.leavesQty = 0 then .filled else .partiallyFilled) none
      (some (sent.orderQty - s.taker.leavesQty)) (some last.maker.price), ?_, rfl, fun some => ?_⟩
    · exact if_pos terms.key
    · exact .inr (if_neg some)

/-- The last report of an aggressor tells of its residual. -/
theorem tells_residual {s : Sweep} {r : ExecutionReport} {price : Price} (own : s.taker.key = key)
    (free : ∀ o ∈ s.live, o.order.key ≠ key) (left : r.leavesQty = s.taker.leavesQty)
    (status : r.leavesQty ≠ 0 → NonTerminal r.ordStatus) (priced : price = s.taker.price) :
    Tells key (some ⟨r, price, 0, false⟩) (x.rest s.live s.taker).live := by
  have resting : ∀ o ∈ (x.rest s.live s.taker).live, o.order.key = key → o.order = s.taker ∧ Exchange.Rests s.taker := by
    intro o ho keyed
    unfold Exchange.rest at ho
    split at ho
    · rename_i rests
      rcases List.mem_append.1 ho with ho | ho
      · exact absurd keyed (free o ho)
      · rw [List.mem_singleton.1 ho]
        exact ⟨rfl, rests⟩
    · exact absurd keyed (free o ho)
  refine ⟨⟨?_, ?_⟩, ?_⟩
  · rintro ⟨-, some, -, room⟩
    have rests : Exchange.Rests s.taker := by
      refine ⟨fun zero => ?_, by rw [← priced]; exact some⟩
      rw [left, zero] at room
      exact absurd room (Nat.lt_irrefl 0)
    refine ⟨⟨x.nextArrival, s.taker⟩, ?_, own⟩
    unfold Exchange.rest
    rw [if_pos rests]
    exact List.mem_append_right _ (List.mem_singleton_self _)
  · rintro ⟨o, ho, keyed⟩
    obtain ⟨-, some, pricedTaker⟩ := resting o ho keyed
    rw [← left] at some
    refine ⟨status some, by rw [priced]; exact pricedTaker, rfl, ?_⟩
    exact Nat.pos_of_ne_zero fun zero => some (UInt64.toNat_inj.1 zero)
  · intro o ho keyed
    rw [(resting o ho keyed).1, left]
    rfl

/-- **A new order** is reported to its own key and tells the makers nothing. -/
theorem Tells.accept (valid : Valid x) {request : Request} {sent : NewOrderSingle}
    (absent : x.find? ⟨sent.clientId, sent.clOrdId⟩ = none) (price : requestPrice request = sent.price)
    (h : Tells key heard x.live) :
    Tells key ((x.accept sent).2.foldl (hear key request) heard) (x.accept sent).1.live := by
  have terms := sweep_taker x.live (orderFor sent)
  have idle := fun none => congrArg Sweep.taker (sweep_of_no_fills x.live (orderFor sent) none)
  have free := Exchange.find?_none.1 (find_sweep absent (orderFor sent))
  have makers := sweep_makers x.live (orderFor sent)
  have swept := h.sweep request valid.orderly (orderFor sent)
  simp only [Exchange.accept, List.cons_append, List.foldl_cons, List.append_assoc, List.foldl_append]
  generalize Reference.sweep x.live (orderFor sent) = s at *
  rw [← List.foldl_append, hear_deaf (deaf_updates _ _ _ _)]
  have own : s.taker.key = (orderFor sent).key := terms.key
  by_cases mine : (orderFor sent).key = key
  · subst mine
    have deaf : ∀ event ∈ trades s.fills, Deaf (orderFor sent).key event := by
      intro event member
      obtain ⟨f, hf, rfl⟩ := List.mem_map.1 member
      obtain ⟨o, ho, _, same⟩ := makers f hf
      refine deaf_trade ?_
      rw [show (Fill.call f).maker = f.maker from rfl, same]
      exact Exchange.find?_none.1 absent o ho
    have accepted : hear (orderFor sent).key request heard (report (orderFor sent) .newOrder .newOrder) =
        some ⟨reportOf (orderFor sent) .newOrder .newOrder none none none, requestPrice request, 0, false⟩ :=
      if_pos rfl
    rw [accepted, hear_deaf deaf]
    obtain ⟨r, reports, left, status⟩ := hear_reports request sent s terms idle
    have priced : requestPrice request = s.taker.price := by
      rw [price, terms.price]
      rfl
    rw [reports]
    exact tells_residual own free left status priced
  · rw [deaf_report mine, hear_deaf (deaf_tradeReports (by rw [own]; exact mine) _ _)]
    refine swept.congr fun o keyed => ?_
    unfold Exchange.rest
    split
    · rw [List.mem_append, List.mem_singleton]
      refine ⟨fun member => member.resolve_right ?_, .inl⟩
      rintro rfl
      exact mine (own.symm.trans keyed)
    · exact Iff.rfl

theorem hearAll_of_not {request : Request} {events : List Emission} (not : ¬Replaces key request events) :
    hearAll key heard (request, events) = events.foldl (hear key request) heard := by
  unfold hearAll
  exact congrArg (fun s => events.foldl (hear key request) s) (if_neg not)

/-- Without a report no replace was accepted. -/
theorem not_replaces_of_silent {request : Request} {events : List Emission} (silent : events.any isReport = false) :
    ¬Replaces key request events := by
  cases request with
  | replaceOrder incoming =>
    rintro ⟨-, reported⟩
    rw [silent] at reported
    cases reported
  | newOrderSingle request => exact id
  | cancelOrder incoming => exact id
  | flush => exact id

theorem hearAll_of_replaces {request : Request} {events : List Emission} (replaces : Replaces key request events) :
    hearAll key heard (request, events) =
      events.foldl (hear key request) (heard.map fun s => { s with replaced := true }) := by
  unfold hearAll
  exact congrArg (fun s => events.foldl (hear key request) s) (if_pos replaces)

/-- Another order leaving says nothing. -/
theorem Tells.remove_other (h : Tells key heard x.live) {gone : OrderKey} (ne : gone ≠ key) :
    Tells key heard (x.remove gone).live := by
  refine h.congr fun o keyed => ?_
  rw [Exchange.remove, List.mem_filter]
  exact ⟨fun both => both.1, fun member => ⟨member, decide_eq_true fun same => ne (same.symm.trans keyed)⟩⟩

/-- With no order under the key left, a standing that is not live tells so. -/
theorem tells_gone {live : List LiveOrder} (gone : ∀ o ∈ live, o.order.key ≠ key)
    (dead : ∀ s, heard = some s → ¬s.Live) : Tells key heard live := by
  cases heard with
  | none => exact gone
  | some s =>
    refine ⟨⟨fun alive => absurd alive (dead s rfl), ?_⟩, fun o ho keyed => absurd keyed (gone o ho)⟩
    rintro ⟨o, ho, keyed⟩
    exact absurd keyed (gone o ho)

theorem not_mem_remove {key : OrderKey} : ∀ o ∈ (x.remove key).live, o.order.key ≠ key :=
  fun _ ho => of_decide_eq_true (List.mem_filter.1 ho).2

theorem accept_isReport (x : Exchange) (request : NewOrderSingle) : (x.accept request).2.any isReport = true :=
  List.any_eq_true.2 ⟨report (orderFor request) .newOrder .newOrder, by simp [Exchange.accept], rfl⟩

/-- The request is no replace that takes the order under `key` out and is then
refused: if it replaces that order under a free key, its symbol is configured. -/
def Keeps (x : Exchange) (key : OrderKey) (request : Request) : Prop :=
  ∀ incoming, request = .replaceOrder incoming → OrderKey.mk incoming.clientId incoming.origClOrdId = key →
    (x.find? key).isSome = true → x.find? ⟨incoming.clientId, incoming.clOrdId⟩ = none → incoming.symbol ∈ x.configured

/-- **Every step but a flush** keeps the standing telling. -/
theorem Tells.step (valid : Valid x) (h : Tells key heard x.live) {request : Request} (audible : request ≠ .flush)
    (keeps : Keeps x key request) :
    Tells key (hearAll key heard (request, (x.step request).2)) (x.step request).1.live := by
  have outcome := step_outcome x request
  generalize x.step request = next at outcome ⊢
  cases outcome with
  | refused request events rejects =>
    have deaf : ∀ event ∈ events, Deaf key event := by
      intro event member
      obtain ⟨cancel, reason, text, rfl⟩ := rejects event member
      exact deaf_reject _ _ _
    have silent : events.any isReport = false := by
      rw [List.any_eq_false]
      intro event member
      obtain ⟨cancel, reason, text, rfl⟩ := rejects event member
      exact Bool.false_ne_true
    rw [hearAll_of_not (not_replaces_of_silent silent), hear_deaf deaf]
    exact h
  | accepted request absent known =>
    rw [hearAll_of_not id]
    exact h.accept valid absent rfl
  | cancelled incoming o member keyed =>
    rw [hearAll_of_not id, List.foldl_cons, hear_deaf (deaf_removalUpdate x o)]
    by_cases mine : o.order.key = key
    · subst mine
      refine tells_gone not_mem_remove fun s same alive => ?_
      have reported : hear o.order.key (.cancelOrder incoming) heard
          (report o.order .canceled .canceled (some incoming.origClOrdId)) =
          some ⟨reportOf o.order .canceled .canceled (some incoming.origClOrdId) none none, 0, 0, false⟩ :=
        if_pos rfl
      rw [reported] at same
      cases same
      obtain status | status := alive.1
      · cases status
      · cases status
    · rw [deaf_report mine]
      exact h.remove_other mine
  | replaced incoming o member keyed absent known =>
    have apart : ∀ {events}, o.order.key ≠ key → ¬Replaces key (.replaceOrder incoming) events :=
      fun other both => other (keyed.trans both.1)
    by_cases mine : o.order.key = key
    · subst mine
      have replaces : Replaces o.order.key (.replaceOrder incoming)
          (x.removalUpdate o ++ ((x.remove o.order.key).accept (replacementOf incoming)).2) := by
        refine ⟨keyed.symm, ?_⟩
        rw [List.any_append, accept_isReport, Bool.or_true]
      rw [hearAll_of_replaces replaces, List.foldl_append, hear_deaf (deaf_removalUpdate x o)]
      refine Tells.accept (valid.remove _) absent rfl (tells_gone not_mem_remove fun s same alive => ?_)
      obtain ⟨t, -, rfl⟩ := Option.map_eq_some_iff.1 same
      cases alive.2.2.1
    · rw [hearAll_of_not (apart mine), List.foldl_append, hear_deaf (deaf_removalUpdate x o)]
      exact Tells.accept (valid.remove _) absent rfl (h.remove_other mine)
  | lost incoming o member keyed unknown free =>
    have other : o.order.key ≠ key := by
      intro mine
      have live : (x.find? key).isSome = true := by
        refine Option.isSome_iff_ne_none.2 fun absent => ?_
        exact Exchange.find?_none.1 absent o member mine
      exact unknown (keeps incoming rfl (keyed.symm.trans mine) live free)
    have apart : ∀ {events}, ¬Replaces key (.replaceOrder incoming) events := fun both => other (keyed.trans both.1)
    rw [hearAll_of_not apart, List.foldl_append, hear_deaf (deaf_removalUpdate x o)]
    exact h.remove_other other
  | flushed => exact absurd rfl audible

theorem run_tells (configuration : EngineConfig) (requests : List Request) (key : OrderKey)
    (audible : ∀ request ∈ requests, request ≠ .flush)
    (keeps : ∀ before request, before ++ [request] <+: requests → Keeps (run configuration before).1 key request) :
    Tells key (standing key (run configuration requests).2) (run configuration requests).1.live := by
  refine Run.prefix_rule (P := fun before => Tells key (standing key (run configuration before).2) (run configuration before).1.live)
    (fun o ho => absurd ho List.not_mem_nil) ?_ requests (List.prefix_refl _)
  intro before request part tells
  have member : request ∈ requests := part.subset (List.mem_append_right _ (List.mem_singleton_self _))
  rw [run, Run.drive_snoc, standing, List.foldl_append]
  exact tells.step (run_valid configuration before) (audible request member) (keeps before request part)

end Steps

end DemoExchange.Reference
