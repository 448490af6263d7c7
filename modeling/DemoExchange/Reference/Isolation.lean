import DemoExchange.Reference.Terms
import Mathlib.Data.List.Find

/-!
# One symbol among others

`ordersOf live symbol` is what one symbol sees of the exchange: its orders by
arrival, without their arrival numbers. Every part of a step is a function of
the orders of its own symbol, and leaves those of the others alone; with keys
that each belong to one symbol, a request does the same in any two exchanges
that look alike to its symbol.
-/

namespace DemoExchange.Reference
set_option autoImplicit false
open OrderEntry MatchingEngine

/-- The orders of one symbol, by arrival. -/
def ordersOf (live : List LiveOrder) (symbol : Symbol) : List OrderState :=
  (live.map (·.order)).filter fun o => o.symbol = symbol

/-- The order of a side that trades first. -/
def bestOrder (orders : List OrderState) (side : Side) : Option OrderState :=
  (orders.filter fun o => o.side = side).argmin fun o => priceRank side o.price

/-- The orders after `maker` traded `quantity`. -/
def settleOrders (orders : List OrderState) (maker : OrderState) (quantity : Quantity) : List OrderState :=
  if (fillOrder maker quantity).leavesQty = 0 then orders.filter fun o => o.key ≠ maker.key
  else orders.map fun o => if o.key = maker.key then fillOrder o quantity else o

section Seeing

variable {live live' : List LiveOrder} {symbol : Symbol} {side : Side} {maker : LiveOrder} {quantity : Quantity}

theorem mem_ordersOf {order : OrderState} : order ∈ ordersOf live symbol ↔ ∃ o ∈ live, o.order = order ∧ order.symbol = symbol := by
  simp only [ordersOf, List.mem_filter, List.mem_map, decide_eq_true_eq]
  constructor
  · rintro ⟨⟨o, ho, rfl⟩, here⟩
    exact ⟨o, ho, rfl, here⟩
  · rintro ⟨o, ho, rfl, here⟩
    exact ⟨⟨o, ho, rfl⟩, here⟩

theorem ordersOf_append (o : LiveOrder) :
    ordersOf (live ++ [o]) symbol = ordersOf live symbol ++ if o.order.symbol = symbol then [o.order] else [] := by
  rw [ordersOf, List.map_append, List.filter_append]
  congr 1
  by_cases here : o.order.symbol = symbol <;> simp [here]

/-- A removal that looks at the orders only. -/
theorem ordersOf_filter (q : OrderState → Bool) :
    ordersOf (live.filter fun o => q o.order) symbol = (ordersOf live symbol).filter q := by
  have orders : (live.filter fun o => q o.order).map (·.order) = (live.map (·.order)).filter q := List.filter_map.symm
  rw [ordersOf, ordersOf, orders, List.filter_filter, List.filter_filter]
  congr 1
  funext o
  exact Bool.and_comm _ _

theorem sideOf_orders : (sideOf live symbol side).map (·.order) = (ordersOf live symbol).filter fun o => o.side = side := by
  rw [ordersOf, List.filter_filter, List.filter_map, sideOf]
  congr 1
  apply List.filter_congr
  intro o _
  simp [OnSide, Function.comp, and_comm]

/-- Arrival numbers only say which order of a price is first. -/
theorem argmin_rank {queue : List LiveOrder} (arrivals : queue.Pairwise fun o p => o.arrival < p.arrival)
    (sides : ∀ o ∈ queue, o.order.side = side) :
    (queue.argmin rank).map (·.order) = (queue.map (·.order)).argmin fun o => priceRank side o.price := by
  induction queue using List.reverseRecOn with
  | nil => rfl
  | append_singleton queue o ih =>
    obtain ⟨ordered, -, earlier⟩ := List.pairwise_append.1 arrivals
    have ih := ih ordered fun p hp => sides p (List.mem_append_left _ hp)
    rw [List.argmin_concat, List.map_append, List.map_singleton, List.argmin_concat, ← ih]
    cases best : queue.argmin rank with
    | none => rfl
    | some p =>
      have member : p ∈ queue := List.argmin_mem (Option.mem_def.2 best)
      have before := earlier p member o (List.mem_singleton_self _)
      have better : rank o < rank p ↔ priceRank side o.order.price < priceRank side p.order.price := by
        rw [rank, rank, Prod.Lex.toLex_lt_toLex, sides p (List.mem_append_left _ member),
          sides o (List.mem_append_right _ (List.mem_singleton_self _))]
        omega
      by_cases less : rank o < rank p
      · simp [less, better.1 less]
      · simp [less, mt better.2 less]

theorem bestOn_order (orderly : Orderly live) (symbol : Symbol) (side : Side) :
    (bestOn live symbol side).map (·.order) = bestOrder (ordersOf live symbol) side := by
  rw [bestOn, bestOrder, ← sideOf_orders]
  exact argmin_rank (orderly.arrivals.filter _) fun o ho => (mem_sideOf.1 ho).2.2

/-- An order is its maker exactly when it has its key. -/
theorem arrival_iff_key (orderly : Orderly live) (member : maker ∈ live) {o : LiveOrder} (inside : o ∈ live) :
    o.arrival = maker.arrival ↔ o.order.key = maker.order.key := by
  constructor
  · intro same
    rw [orderly.arrival_inj inside member same]
  · intro same
    rw [orderly.key_inj inside member same]

theorem settle_orders (orderly : Orderly live) (member : maker ∈ live) :
    ordersOf (settle live maker quantity) symbol = settleOrders (ordersOf live symbol) maker.order quantity := by
  unfold settle settleOrders
  split
  · rw [← ordersOf_filter]
    congr 1
    apply List.filter_congr
    intro o ho
    simp [arrival_iff_key orderly member ho]
  · have orders : (live.map (filled maker quantity)).map (·.order) =
        (live.map (·.order)).map fun o => if o.key = maker.order.key then fillOrder o quantity else o := by
      rw [List.map_map, List.map_map]
      refine List.map_congr_left fun o ho => ?_
      simp only [Function.comp, filled, arrival_iff_key orderly member ho]
      split <;> rfl
    rw [ordersOf, orders, ordersOf, List.filter_map]
    congr 1
    apply List.filter_congr
    intro o _
    simp only [Function.comp]
    split <;> rfl

/-- A fill of another symbol does not show. -/
theorem settle_orders_other (orderly : Orderly live) (member : maker ∈ live) (apart : maker.order.symbol ≠ symbol) :
    ordersOf (settle live maker quantity) symbol = ordersOf live symbol := by
  have absent : ∀ o ∈ ordersOf live symbol, o.key ≠ maker.order.key := by
    intro order ho same
    obtain ⟨o, inside, rfl, here⟩ := mem_ordersOf.1 ho
    rw [orderly.key_inj inside member same] at here
    exact apart here
  rw [settle_orders orderly member]
  unfold settleOrders
  split
  · exact List.filter_eq_self.2 fun o ho => decide_eq_true (absent o ho)
  · conv_rhs => rw [← List.map_id (ordersOf live symbol)]
    exact List.map_congr_left fun o ho => if_neg (absent o ho)

theorem topOfBook_orders (orderly : Orderly live) (orderly' : Orderly live')
    (same : ordersOf live symbol = ordersOf live' symbol) : topOfBook live symbol side = topOfBook live' symbol side := by
  have top : ∀ {live}, Orderly live → topOfBook live symbol side = (bestOrder (ordersOf live symbol) side).map fun best =>
      ⟨best.price, ((((ordersOf live symbol).filter fun o => o.side = side).filter fun o => o.price = best.price).map
        (·.leavesQty)).sum⟩ := by
    intro live orderly
    rw [topOfBook, ← bestOn_order orderly, Option.map_map, ← sideOf_orders]
    congr 1
    funext best
    simp only [Function.comp, List.filter_map, List.map_map]
    rfl
  rw [top orderly, top orderly', same]

theorem bestPriceOn_orders (orderly : Orderly live) (orderly' : Orderly live')
    (same : ordersOf live symbol = ordersOf live' symbol) : bestPriceOn live symbol side = bestPriceOn live' symbol side := by
  have best : ∀ {live}, Orderly live → bestPriceOn live symbol side = (bestOrder (ordersOf live symbol) side).map (·.price) := by
    intro live orderly
    rw [bestPriceOn, ← bestOn_order orderly, Option.map_map]
    rfl
  rw [best orderly, best orderly', same]

/-- **An aggressor sees the orders of its symbol only.** -/
theorem sweep_orders (orderly : Orderly live) (taker : OrderState) : ∀ live', Orderly live' →
    ordersOf live taker.symbol = ordersOf live' taker.symbol →
      (sweep live taker).fills = (sweep live' taker).fills ∧ (sweep live taker).taker = (sweep live' taker).taker ∧
        ordersOf (sweep live taker).live taker.symbol = ordersOf (sweep live' taker).live taker.symbol := by
  induction live, taker using sweep.induct with
  | case1 live taker empty =>
    intro live' _ same
    rw [sweep_empty empty, sweep_empty empty]
    exact ⟨rfl, rfl, same⟩
  | case2 live taker some none =>
    intro live' orderly' same
    have none' := bestOn_order orderly' taker.symbol (otherSide taker.side)
    rw [← same, ← bestOn_order orderly, none, Option.map_none, Option.map_eq_none_iff] at none'
    rw [sweep_none none, sweep_none none']
    exact ⟨rfl, rfl, same⟩
  | case3 live taker some maker best hit fill ih =>
    intro live' orderly' same
    have best' := bestOn_order orderly' taker.symbol (otherSide taker.side)
    rw [← same, ← bestOn_order orderly, best, Option.map_some, Option.map_eq_some_iff] at best'
    obtain ⟨maker', best', twin⟩ := best'
    have hits : Hits live taker maker := ⟨some, best, hit⟩
    have hits' : Hits live' taker maker' := ⟨some, best', by rw [twin]; exact hit⟩
    have settled : ordersOf (settle live maker (min taker.leavesQty maker.order.leavesQty)) taker.symbol =
        ordersOf (settle live' maker' (min taker.leavesQty maker'.order.leavesQty)) taker.symbol := by
      rw [settle_orders orderly (best_mem best).1, settle_orders orderly' (best_mem best').1, same, twin]
    obtain ⟨fills, left, seen⟩ := ih (orderly.settle hits) _ (orderly'.settle hits') settled
    rw [sweep_fill hits.some hits.best hits.hit, sweep_fill hits'.some hits'.best hits'.hit]
    rw [twin] at fills left seen ⊢
    exact ⟨congrArg (_ :: ·) fills, left, seen⟩
  | case4 live taker some maker best miss =>
    intro live' orderly' same
    have best' := bestOn_order orderly' taker.symbol (otherSide taker.side)
    rw [← same, ← bestOn_order orderly, best, Option.map_some, Option.map_eq_some_iff] at best'
    obtain ⟨maker', best', twin⟩ := best'
    rw [sweep_miss best miss, sweep_miss best' (by rw [twin]; exact miss)]
    exact ⟨rfl, rfl, same⟩

/-- An aggressor of another symbol does not show. -/
theorem sweep_orders_other (orderly : Orderly live) {taker : OrderState} (apart : taker.symbol ≠ symbol) :
    ordersOf (sweep live taker).live symbol = ordersOf live symbol := by
  have kept := sweep_rule
    (P := fun live' taker' _ => Orderly live' ∧ Reduces taker taker' ∧ ordersOf live' symbol = ordersOf live symbol)
    ?_ live taker [] ⟨orderly, Reduces.refl _, rfl⟩
  · exact kept.2.2
  · rintro live' taker' fills maker hits ⟨orderly', terms, same⟩
    refine ⟨orderly'.settle hits, terms.fill _, ?_⟩
    have inside := (best_mem hits.best).2.1
    obtain ⟨q, rfl⟩ := terms
    rw [settle_orders_other orderly' (best_mem hits.best).1 (by rw [inside]; exact apart), same]

end Seeing

/-- Every live order is of the symbol that its key belongs to. -/
def Assigned (sym : OrderKey → Symbol) (live : List LiveOrder) : Prop := ∀ o ∈ live, o.order.symbol = sym o.order.key

/-- The key that a request is about: the original, for a cancel or a replace. -/
def requestKey : Request → Option OrderKey
  | .newOrderSingle request => some ⟨request.clientId, request.clOrdId⟩
  | .replaceOrder incoming => some ⟨incoming.clientId, incoming.origClOrdId⟩
  | .cancelOrder incoming => some ⟨incoming.clientId, incoming.origClOrdId⟩
  | .flush => none

/-- The request is assigned to `symbol`, or is a flush. -/
def concerns (sym : OrderKey → Symbol) (symbol : Symbol) (request : Request) : Bool :=
  (requestKey request).all fun key => sym key = symbol

/-- The request names the symbol that its keys belong to. -/
def Keyed (sym : OrderKey → Symbol) : Request → Prop
  | .newOrderSingle request => request.symbol = sym ⟨request.clientId, request.clOrdId⟩
  | .replaceOrder incoming =>
    incoming.symbol = sym ⟨incoming.clientId, incoming.clOrdId⟩ ∧
      sym ⟨incoming.clientId, incoming.clOrdId⟩ = sym ⟨incoming.clientId, incoming.origClOrdId⟩
  | .cancelOrder _ => True
  | .flush => True

section Steps

variable {sym : OrderKey → Symbol} {symbol : Symbol} {x y : Exchange} {request : Request}

theorem Assigned.step (assigned : Assigned sym x.live) (keyed : Keyed sym request) :
    Assigned sym (x.step request).1.live := by
  intro o ho
  obtain ⟨o', inside, _, terms⟩ | ⟨request', member, sent, asked, _, terms⟩ := step_live ho
  · rw [terms]
    exact assigned o' inside
  · rw [List.mem_singleton.1 member] at asked
    rw [terms]
    cases request with
    | newOrderSingle request =>
      cases asked
      exact keyed
    | replaceOrder incoming =>
      cases asked
      exact keyed.1
    | cancelOrder incoming => cases asked
    | flush => cases asked

/-- The index of one symbol. -/
theorem find_orders (assigned : Assigned sym x.live) {key : OrderKey} (own : sym key = symbol) :
    (x.find? key).map (·.order) = (ordersOf x.live symbol).find? fun o => o.key = key := by
  rw [ordersOf, List.find?_filter, List.find?_map, Exchange.find?]
  congr 1
  refine List.find?_congr fun o ho => ?_
  by_cases keyed : o.order.key = key
  · have here : o.order.symbol = symbol := by rw [assigned o ho, keyed, own]
    simp [keyed, here]
  · simp [keyed]

theorem rest_orders (live : List LiveOrder) (order : OrderState) :
    ordersOf (x.rest live order).live symbol =
      ordersOf live symbol ++ if Exchange.Rests order ∧ order.symbol = symbol then [order] else [] := by
  unfold Exchange.rest
  by_cases rests : Exchange.Rests order
  · simp only [rests, if_true, true_and]
    exact ordersOf_append _
  · simp [rests]

/-- What a new order does to its symbol and says of it. -/
theorem accept_orders (sent : NewOrderSingle) (valid : Valid x) (valid' : Valid y) (after : Valid (x.accept sent).1)
    (after' : Valid (y.accept sent).1) (same : ordersOf x.live sent.symbol = ordersOf y.live sent.symbol) :
    (x.accept sent).2 = (y.accept sent).2 ∧
      ordersOf (x.accept sent).1.live sent.symbol = ordersOf (y.accept sent).1.live sent.symbol := by
  obtain ⟨fills, left, seen⟩ := sweep_orders valid.orderly (orderFor sent) _ valid'.orderly same
  have rested : ordersOf (x.accept sent).1.live sent.symbol = ordersOf (y.accept sent).1.live sent.symbol := by
    simp only [Exchange.accept, rest_orders, left]
    rw [show sent.symbol = (orderFor sent).symbol from rfl, seen]
  have tops : ∀ side, topOfBook (x.accept sent).1.live sent.symbol side = topOfBook (y.accept sent).1.live sent.symbol side :=
    fun side => topOfBook_orders after.orderly after'.orderly rested
  have best : ∀ side, bestPriceOn (x.accept sent).1.live sent.symbol side =
      bestPriceOn (y.accept sent).1.live sent.symbol side :=
    fun side => bestPriceOn_orders after.orderly after'.orderly rested
  refine ⟨?_, rested⟩
  simp only [Exchange.accept, fills, left] at tops best ⊢
  simp only [bookUpdate, tops, best]

theorem accept_orders_other {sent : NewOrderSingle} (valid : Valid x) (apart : sent.symbol ≠ symbol) :
    ordersOf (x.accept sent).1.live symbol = ordersOf x.live symbol := by
  have other : ¬(Exchange.Rests (sweep x.live (orderFor sent)).taker ∧
      (sweep x.live (orderFor sent)).taker.symbol = symbol) := by
    rintro ⟨-, here⟩
    exact apart ((sweep_taker x.live (orderFor sent)).symbol.symm.trans here)
  simp only [Exchange.accept, rest_orders, if_neg other, List.append_nil]
  exact sweep_orders_other valid.orderly apart

theorem remove_orders (key : OrderKey) :
    ordersOf (x.remove key).live symbol = (ordersOf x.live symbol).filter fun o => o.key ≠ key :=
  ordersOf_filter fun o => o.key ≠ key

/-- An order of another symbol leaving does not show. -/
theorem remove_orders_other (assigned : Assigned sym x.live) {key : OrderKey} (apart : sym key ≠ symbol) :
    ordersOf (x.remove key).live symbol = ordersOf x.live symbol := by
  rw [remove_orders]
  refine List.filter_eq_self.2 fun order member => decide_eq_true fun keyed => ?_
  obtain ⟨o, inside, rfl, here⟩ := mem_ordersOf.1 member
  rw [assigned o inside, keyed] at here
  exact apart here

/-- Two exchanges that look alike to one symbol. -/
structure Alike (sym : OrderKey → Symbol) (symbol : Symbol) (x y : Exchange) : Prop where
  valid : Valid x
  valid' : Valid y
  assigned : Assigned sym x.live
  assigned' : Assigned sym y.live
  configured : x.configured = y.configured
  orders : ordersOf x.live symbol = ordersOf y.live symbol

/-- They have the same order under each key of the symbol. -/
theorem Alike.find (h : Alike sym symbol x y) {key : OrderKey} (own : sym key = symbol) :
    (x.find? key = none ∧ y.find? key = none) ∨
      ∃ o p, x.find? key = some o ∧ y.find? key = some p ∧ o.order = p.order ∧ o.order.key = key ∧ o.order.symbol = symbol := by
  have same : (x.find? key).map (·.order) = (y.find? key).map (·.order) := by
    rw [find_orders h.assigned own, find_orders h.assigned' own, h.orders]
  cases found : x.find? key with
  | none =>
    rw [found, Option.map_none] at same
    exact .inl ⟨rfl, Option.map_eq_none_iff.1 same.symm⟩
  | some o =>
    rw [found, Option.map_some] at same
    obtain ⟨p, found', twin⟩ := Option.map_eq_some_iff.1 same.symm
    obtain ⟨member, keyed⟩ := Exchange.find?_some found
    exact .inr ⟨o, p, rfl, found', twin.symm, keyed, by rw [h.assigned o member, keyed, own]⟩

theorem Alike.remove (h : Alike sym symbol x y) (key : OrderKey) : Alike sym symbol (x.remove key) (y.remove key) where
  valid := h.valid.remove key
  valid' := h.valid'.remove key
  assigned := fun o ho => h.assigned o (List.mem_filter.1 ho).1
  assigned' := fun o ho => h.assigned' o (List.mem_filter.1 ho).1
  configured := h.configured
  orders := by rw [remove_orders, remove_orders, h.orders]

theorem Alike.removalUpdate (h : Alike sym symbol x y) {o p : LiveOrder} (twin : o.order = p.order)
    (here : o.order.symbol = symbol) : x.removalUpdate o = y.removalUpdate p := by
  subst here
  unfold Exchange.removalUpdate bookUpdate
  rw [bestPriceOn_orders h.valid.orderly h.valid'.orderly h.orders,
    topOfBook_orders (h.valid.remove _).orderly (h.valid'.remove _).orderly (h.remove o.order.key).orders, twin]

/-- **A request of the symbol** is answered alike and leaves the exchanges alike. -/
theorem Alike.answer (h : Alike sym symbol x y) (keyed : Keyed sym request) (mine : concerns sym symbol request = true) :
    (x.step request).2 = (y.step request).2 ∧
      ordersOf (x.step request).1.live symbol = ordersOf (y.step request).1.live symbol := by
  cases request with
  | newOrderSingle request =>
    have own : sym ⟨request.clientId, request.clOrdId⟩ = symbol := of_decide_eq_true mine
    have here : request.symbol = symbol := keyed.trans own
    simp only [Exchange.step, Exchange.newOrderSingle]
    obtain ⟨absent, absent'⟩ | ⟨o, p, found, found', -⟩ := h.find own
    · simp only [absent, absent', Option.isSome_none, Bool.false_eq_true, if_false, ← h.configured]
      by_cases known : request.symbol ∈ x.configured
      · simp only [known, if_true]
        subst here
        exact accept_orders request h.valid h.valid' (h.valid.accept known absent)
          (h.valid'.accept (h.configured ▸ known) absent') h.orders
      · simp only [known, if_false]
        exact ⟨trivial, h.orders⟩
    · simp only [found, found', Option.isSome_some, if_true]
      exact ⟨trivial, h.orders⟩
  | cancelOrder incoming =>
    have own : sym ⟨incoming.clientId, incoming.origClOrdId⟩ = symbol := of_decide_eq_true mine
    simp only [Exchange.step, Exchange.cancelOrder]
    obtain ⟨absent, absent'⟩ | ⟨o, p, found, found', twin, -, here⟩ := h.find own
    · simp only [absent, absent']
      exact ⟨trivial, h.orders⟩
    · simp only [found, found', h.removalUpdate twin here, twin]
      exact ⟨trivial, (h.remove p.order.key).orders⟩
  | replaceOrder incoming =>
    have own : sym ⟨incoming.clientId, incoming.origClOrdId⟩ = symbol := of_decide_eq_true mine
    have ownNew : sym ⟨incoming.clientId, incoming.clOrdId⟩ = symbol := keyed.2.trans own
    have here : incoming.symbol = symbol := keyed.1.trans ownNew
    simp only [Exchange.step, Exchange.replaceOrder]
    obtain ⟨absent, absent'⟩ | ⟨o, p, found, found', twin, -, there⟩ := h.find own
    · simp only [absent, absent']
      exact ⟨trivial, h.orders⟩
    · simp only [found, found']
      obtain ⟨free, free'⟩ | ⟨o', p', taken, taken', -⟩ := h.find ownNew
      · have removed := h.remove o.order.key
        simp only [free, free', Option.isSome_none, Bool.false_eq_true, if_false, ← h.configured,
          h.removalUpdate twin there, ← twin]
        by_cases known : incoming.symbol ∈ x.configured
        · simp only [known, if_true]
          subst here
          obtain ⟨events, orders⟩ := accept_orders (replacementOf incoming) removed.valid removed.valid'
            (removed.valid.accept known (find_remove free _))
            (removed.valid'.accept (h.configured ▸ known) (find_remove free' _)) removed.orders
          exact ⟨by rw [events], orders⟩
        · simp only [known, if_false]
          exact ⟨trivial, removed.orders⟩
      · simp only [taken, taken', Option.isSome_some, if_true]
        exact ⟨trivial, h.orders⟩
  | flush => exact ⟨rfl, rfl⟩

/-- **A request of another symbol** does not show. -/
theorem step_orders_other (valid : Valid x) (assigned : Assigned sym x.live) (keyed : Keyed sym request)
    (other : concerns sym symbol request = false) : ordersOf (x.step request).1.live symbol = ordersOf x.live symbol := by
  have outcome := step_outcome x request
  generalize x.step request = next at outcome ⊢
  cases outcome with
  | refused => rfl
  | accepted request =>
    exact accept_orders_other valid fun here => of_decide_eq_false other (keyed.symm.trans here)
  | cancelled incoming o member original =>
    refine remove_orders_other assigned ?_
    rw [original]
    exact of_decide_eq_false other
  | replaced incoming o member original =>
    have apart : sym o.order.key ≠ symbol := by
      rw [original]
      exact of_decide_eq_false other
    have named : (replacementOf incoming).symbol ≠ symbol := by
      intro here
      rw [original, ← keyed.2, ← keyed.1] at apart
      exact apart here
    exact (accept_orders_other (valid.remove _) named).trans (remove_orders_other assigned apart)
  | lost incoming o member original =>
    refine remove_orders_other assigned ?_
    rw [original]
    exact of_decide_eq_false other
  | flushed => cases other

/-- **Isolation.** A symbol sees the same of a run as of its own requests alone. -/
theorem run_isolated (configuration : EngineConfig) (requests : List Request)
    (keyed : ∀ request ∈ requests, Keyed sym request) :
    (run configuration requests).2.filter (fun entry => concerns sym symbol entry.1) =
        (run configuration (requests.filter (concerns sym symbol))).2 ∧
      Alike sym symbol (run configuration requests).1 (run configuration (requests.filter (concerns sym symbol))).1 := by
  have unassigned : Assigned sym (Exchange.init configuration).live := fun _ member => absurd member List.not_mem_nil
  refine Run.drive_purge (Q := Keyed sym) ?_ ?_ requests _ _ keyed
    ⟨Valid.empty _ _, Valid.empty _ _, unassigned, unassigned, rfl, rfl⟩
  · intro x y request h keyed other
    exact ⟨h.valid.step request, h.valid', h.assigned.step keyed, h.assigned',
      (step_configured x request).trans h.configured, (step_orders_other h.valid h.assigned keyed other).trans h.orders⟩
  · intro x y request h keyed mine
    obtain ⟨events, orders⟩ := h.answer keyed mine
    exact ⟨events, h.valid.step request, h.valid'.step request, h.assigned.step keyed, h.assigned'.step keyed,
      by rw [step_configured, step_configured, h.configured], orders⟩

end Steps

end DemoExchange.Reference
