import DemoExchange.Properties.Isolation
import DemoExchange.Refinement.Numbering

/-!
# A replace is a cancel and a new order

The exchange after a replace is the exchange after a cancel of the original
and a new order with the replacement's terms, and the events are the same but
for the cancel report, whose id the later reports then have.
-/

namespace DemoExchange.Properties
set_option autoImplicit false
open OrderEntry MatchingEngine Reference Refinement

/-- The cancel reject that a replace to a symbol without a book ends with. -/
def unknownSymbolReject (configured : List Symbol) (incoming : ReplaceOrder) : List Emission :=
  if incoming.symbol ∈ configured then []
  else
    [.orderEntry (.cancelReject
      { clientId := incoming.clientId
        clOrdId := incoming.clOrdId
        origClOrdId := incoming.origClOrdId
        rejectReason := .unknownSymbol
        text := "unknown symbol"
        transactTime := 0 })]

section Steps

variable {x : Exchange} {o : LiveOrder} {incoming : ReplaceOrder}

theorem cancel_step (original : x.find? ⟨incoming.clientId, incoming.origClOrdId⟩ = some o) (clOrdId : ClOrdId) :
    x.step (.cancelOrder ⟨incoming.clientId, clOrdId, incoming.origClOrdId⟩) =
      (x.remove o.order.key, report o.order .canceled .canceled (some incoming.origClOrdId) :: x.removalUpdate o) := by
  simp only [Exchange.step, Exchange.cancelOrder, original]

/-- What a replace does once the original has left is what a new order does,
and a reject if that says nothing. -/
theorem replace_step (original : x.find? ⟨incoming.clientId, incoming.origClOrdId⟩ = some o)
    (free : x.find? ⟨incoming.clientId, incoming.clOrdId⟩ = none) :
    x.step (.replaceOrder incoming) =
      (((x.remove o.order.key).step (.newOrderSingle (replacementOf incoming))).1,
        x.removalUpdate o ++ ((x.remove o.order.key).step (.newOrderSingle (replacementOf incoming))).2 ++
          unknownSymbolReject x.configured incoming) := by
  have absent : (x.remove o.order.key).find?
      ⟨(replacementOf incoming).clientId, (replacementOf incoming).clOrdId⟩ = none := find_remove free _
  by_cases known : incoming.symbol ∈ x.configured
  · have known' : (replacementOf incoming).symbol ∈ (x.remove o.order.key).configured := known
    simp only [Exchange.step, Exchange.replaceOrder, Exchange.newOrderSingle, original, free, absent, Option.isSome_none,
      Bool.false_eq_true, if_false, known, known', if_true, unknownSymbolReject, List.append_nil]
  · have known' : (replacementOf incoming).symbol ∉ (x.remove o.order.key).configured := known
    simp only [Exchange.step, Exchange.replaceOrder, Exchange.newOrderSingle, original, free, absent, Option.isSome_none,
      Bool.false_eq_true, if_false, known, known', unknownSymbolReject, List.append_nil]
    rfl

/-- An accepted order that rests is the last of the orders of its symbol, and
the only one under its key. -/
theorem accepted_last {sent : NewOrderSingle} (absent : x.find? ⟨sent.clientId, sent.clOrdId⟩ = none) (symbol : Symbol) :
    ∀ order ∈ ordersOf (x.step (.newOrderSingle sent)).1.live symbol, order.key = ⟨sent.clientId, sent.clOrdId⟩ →
      ∃ others, ordersOf (x.step (.newOrderSingle sent)).1.live symbol = others ++ [order] := by
  intro order member keyed
  have free := Exchange.find?_none.1 absent
  have outcome := step_outcome x (.newOrderSingle sent)
  generalize x.step (.newOrderSingle sent) = next at outcome member ⊢
  cases outcome with
  | refused =>
    obtain ⟨o, ho, rfl, -⟩ := mem_ordersOf.1 member
    exact absurd keyed (free o ho)
  | accepted =>
    have swept := Exchange.find?_none.1 (find_sweep absent (orderFor sent))
    simp only [Exchange.accept, rest_orders] at member ⊢
    rcases List.mem_append.1 member with member | member
    · obtain ⟨o, ho, rfl, -⟩ := mem_ordersOf.1 member
      exact absurd keyed (swept o ho)
    · split at member
      · rename_i rests
        rw [if_pos rests, List.mem_singleton.1 member]
        exact ⟨_, rfl⟩
      · cases member

end Steps

section Numbers

variable {events : List Emission}

/-- Market data other than trades leaves the counters alone. -/
theorem emitAll_marketData (data : ∀ event ∈ events, ∃ message, event = .marketData message) (out : Outbox) :
    emitAll out events = { out with events := out.events ++ events } := by
  induction events generalizing out with
  | nil => simp [emitAll]
  | cons event events ih =>
    obtain ⟨message, rfl⟩ := data event List.mem_cons_self
    rw [emitAll_cons, ih fun event member => data event (List.mem_cons_of_mem _ member)]
    simp [emit]

/-- Cancel rejects leave the counters alone. -/
theorem emitAll_unknownSymbolReject (configured : List Symbol) (incoming : ReplaceOrder) (out : Outbox) :
    (emitAll out (unknownSymbolReject configured incoming)).events =
      out.events ++ unknownSymbolReject configured incoming := by
  unfold unknownSymbolReject
  split
  · exact (List.append_nil _).symm
  · rfl

/-- Moving the ids of events on changes no market data if trades are not moved. -/
theorem message?_renumber (execs : ExecId) (event : Emission) : (renumber execs 0 event).message? = event.message? := by
  cases event with
  | marketData message => rfl
  | trade call => simp [renumber, Emission.message?]
  | orderEntry event => cases event <;> rfl

end Numbers

/-- An order that is the last of its level, wherever it rests. -/
def LastInLevel (e : Engine) (key : OrderKey) : Prop :=
  ∀ symbol book, (symbol, book) ∈ e.books → ∀ side, ∀ level ∈ e.levels book side, ∀ order,
    some order ∈ level.2.1 → order.key = key → level.2.1.getLast? = some (some order)

section Queues

variable {e : Engine} {items : List Item} {x : Exchange} {key : OrderKey}

/-- The last order of its symbol is the last of its level. -/
theorem lastInLevel (h : Holds e items x)
    (last : ∀ symbol, ∀ order ∈ ordersOf x.live symbol, order.key = key → ∃ others, ordersOf x.live symbol = others ++ [order]) :
    LastInLevel e key := by
  intro symbol book hb side level member order inside keyed
  obtain ⟨g, buckets, levels⟩ := levels_of_orders h hb side
  rw [levels] at member
  obtain ⟨entry, he, rfl⟩ := List.mem_map.1 member
  obtain ⟨order', here, same⟩ := List.mem_map.1 inside
  obtain rfl : order' = order := Option.some.inj same
  obtain ⟨onSide, atPrice⟩ := (buckets.mem he).1 here
  obtain ⟨onSymbol, side'⟩ := List.mem_filter.1 onSide
  obtain ⟨others, split⟩ := last symbol order' onSymbol keyed
  have bucket := buckets.bucket entry he
  rw [split, List.filter_append, List.filter_append] at bucket
  have kept : [order'].filter (fun o => o.side = side) = [order'] := List.filter_cons_of_pos side'
  have kept' : [order'].filter (fun o => o.price = entry.1) = [order'] := List.filter_cons_of_pos (decide_eq_true atPrice)
  rw [kept, kept'] at bucket
  show (entry.2.map some).getLast? = _
  rw [bucket, List.map_append, List.map_singleton]
  exact List.getLast?_concat

end Queues

/-- **Replace.** In every state that requests lead to, replacing a live order
under a free key leads to the same books and index as cancelling it and
sending the replacement as a new order; it emits the same events, without the
cancel report, with later `exec_id`s one lower, and with a reject if the
symbol has no book; and the replacement is last in its level. -/
theorem replace_is_cancel_and_new (alloc : Pool.Allocator) (configuration : EngineConfig) (requests : List Request)
    {e : Engine} {trace : List (Request × List Emission)} (ran : Engine.run alloc configuration requests = .ok (e, trace))
    (incoming : ReplaceOrder) (original : (e.core.restingIndex ⟨incoming.clientId, incoming.origClOrdId⟩).isSome = true)
    (free : e.core.restingIndex ⟨incoming.clientId, incoming.clOrdId⟩ = none) (clOrdId : ClOrdId) :
    ∃ e₁ e₂ e' canceled removed accepted,
      Engine.send alloc e (.cancelOrder ⟨incoming.clientId, clOrdId, incoming.origClOrdId⟩) =
        .ok (e₁, .orderEntry (.executionReport canceled) :: removed) ∧
      Engine.send alloc e₁ (.newOrderSingle
        { clientId := incoming.clientId
          clOrdId := incoming.clOrdId
          securityId := incoming.securityId
          symbol := incoming.symbol
          securityExchange := incoming.securityExchange
          side := incoming.side
          ordType := incoming.ordType
          timeInForce := incoming.timeInForce
          orderQty := incoming.orderQty
          price := incoming.price }) =
        .ok (e₂, accepted.map (renumber 1 0)) ∧
      Engine.send alloc e (.replaceOrder incoming) =
        .ok (e', removed ++ accepted ++ unknownSymbolReject configuration.validSymbols incoming) ∧
      canceled.execType = .canceled ∧ reportKey canceled = ⟨incoming.clientId, incoming.origClOrdId⟩ ∧
      (removed ++ accepted ++ unknownSymbolReject configuration.validSymbols incoming).filterMap Emission.message? =
        (.orderEntry (.executionReport canceled) :: removed ++ accepted.map (renumber 1 0)).filterMap Emission.message? ∧
      (∀ symbol, (e'.books.lookup symbol).map e'.levels = (e₂.books.lookup symbol).map e₂.levels) ∧
      (∀ key, e'.liveOrder key = e₂.liveOrder key) ∧
      LastInLevel e' ⟨incoming.clientId, incoming.clOrdId⟩ := by
  obtain ⟨items, h⟩ := reached ran
  have configured := run_configured configuration requests
  generalize (run configuration requests).1 = x at h configured
  -- both keys, as the exchange sees them
  obtain ⟨none, -⟩ | ⟨i, hi, keyed, -, original⟩ := h.find ⟨incoming.clientId, incoming.origClOrdId⟩
  · rw [none] at original
    cases original
  have absent := h.free.1 free
  -- the three requests
  obtain ⟨e₁, cancelled, h₁, out₁⟩ := send_numbered alloc ⟨items, h⟩ (.cancelOrder ⟨incoming.clientId, clOrdId, incoming.origClOrdId⟩)
  rw [cancel_step original] at cancelled h₁ out₁
  obtain ⟨e₂, sent, ⟨items₂, h₂⟩, -⟩ := send_numbered alloc h₁ (.newOrderSingle (replacementOf incoming))
  obtain ⟨e', replaced, ⟨items', h'⟩, -⟩ := send_numbered alloc ⟨items, h⟩ (.replaceOrder incoming)
  rw [replace_step original absent, configured] at replaced h'
  -- the cancel report takes one id, and the update of a removal takes none
  have data : ∀ event ∈ x.removalUpdate i.2, ∃ message, event = .marketData message := fun _ => mem_removalUpdate
  have afterCancel : emitAll (cleared e.core.out)
      (report i.2.order .canceled .canceled (some incoming.origClOrdId) :: x.removalUpdate i.2) =
      ⟨e.core.out.nextExecId + 1, e.core.out.nextTradeId,
        .orderEntry (.executionReport { reportOf i.2.order .canceled .canceled (some incoming.origClOrdId) none none with
          execId := e.core.out.nextExecId }) :: x.removalUpdate i.2⟩ := by
    rw [emitAll_cons, emitAll_marketData data]
    rfl
  have further : cleared e₁.core.out = movedOn 1 0 (cleared e.core.out) := by
    rw [out₁, afterCancel, movedOn, cleared, cleared, add_zero]
    rfl
  rw [further, emitAll_movedOn] at sent
  have eventsReplaced : (emitAll (cleared e.core.out) (x.removalUpdate i.2 ++
      ((x.remove i.2.order.key).step (.newOrderSingle (replacementOf incoming))).2 ++
        unknownSymbolReject configuration.validSymbols incoming)).events =
      x.removalUpdate i.2 ++
        (emitAll (cleared e.core.out) ((x.remove i.2.order.key).step (.newOrderSingle (replacementOf incoming))).2).events ++
          unknownSymbolReject configuration.validSymbols incoming := by
    rw [emitAll_append, emitAll_unknownSymbolReject, emitAll_append, emitAll_marketData data,
      (emitAll_events _ _).1]
    rfl
  rw [afterCancel] at cancelled
  simp only [eventsReplaced] at replaced
  have silent : (unknownSymbolReject configuration.validSymbols incoming).filterMap Emission.message? = [] := by
    unfold unknownSymbolReject
    split <;> rfl
  refine ⟨e₁, e₂, e', _, _, _, cancelled, sent, replaced, rfl, keyed, ?_, ?_, ?_, ?_⟩
  · rw [List.filterMap_append, silent, List.append_nil, List.cons_append, List.filterMap_cons_none rfl, List.filterMap_append,
      List.filterMap_append, List.filterMap_map]
    congr 2
    funext event
    exact (message?_renumber 1 event).symm
  · exact fun symbol => lookup_same h' h₂ rfl rfl
  · intro key
    rw [h'.liveOrder, h₂.liveOrder]
  · exact lastInLevel h' (@accepted_last _ (replacementOf incoming) (find_remove absent _))

/-! ## Alice falls behind Bob -/

/-- Two bids at one price, Alice's first. -/
def twoBids : List Request :=
  [.newOrderSingle (makeNewOrderSingle alice 1 .buy 10), .newOrderSingle (makeNewOrderSingle bob 101 .buy 10)]

/-- Alice replaces hers at the same price. -/
def samePrice : ReplaceOrder := makeReplaceOrder alice 2 1 aapl 10

/-- What she then bids. -/
def newBid : NewOrderSingle where
  clientId := alice
  clOrdId := 2
  securityId := 1
  symbol := aapl
  securityExchange := bvmf
  side := .buy
  ordType := .limit
  timeInForce := .day
  orderQty := 100
  price := 10

theorem replace_is_cancel_and_new_samePrice :
    ∃ e trace e₁ e₂ e' canceled removed accepted, Engine.run .above defaultConfig twoBids = .ok (e, trace) ∧
      Engine.send .above e (.cancelOrder ⟨alice, 3, 1⟩) =
        .ok (e₁, .orderEntry (.executionReport canceled) :: removed) ∧
      Engine.send .above e₁ (.newOrderSingle newBid) = .ok (e₂, accepted.map (renumber 1 0)) ∧
      Engine.send .above e (.replaceOrder samePrice) =
        .ok (e', removed ++ accepted ++ unknownSymbolReject defaultConfig.validSymbols samePrice) ∧
      e'.liveOrder ⟨alice, 2⟩ =
        some
          { clientId := alice
            clOrdId := 2
            securityId := 1
            symbol := aapl
            securityExchange := bvmf
            side := .buy
            ordType := .limit
            timeInForce := .day
            price := 10
            orderQty := 100
            leavesQty := 100 } ∧
      LastInLevel e' ⟨alice, 2⟩ := by
  obtain ⟨e, ran, -⟩ := engine_run .above defaultConfig twoBids
  have state : (Engine.run .above defaultConfig twoBids).map (fun out =>
      decide ((out.1.core.restingIndex ⟨alice, 1⟩).isSome = true ∧ out.1.core.restingIndex ⟨alice, 2⟩ = none)) = .ok true := by
    decide
  have terms : (Engine.run .above defaultConfig twoBids).bind (fun out =>
      (Engine.send .above out.1 (.replaceOrder samePrice)).map fun sent => sent.1.liveOrder ⟨alice, 2⟩) =
        .ok (some ⟨alice, 2, 1, aapl, bvmf, .buy, .limit, .day, 10, 100, 100⟩) := by
    decide
  rw [ran] at state terms
  obtain ⟨original, free⟩ := of_decide_eq_true (Except.ok.inj state)
  obtain ⟨e₁, e₂, e', canceled, removed, accepted, cancelled, sent, replaced, -, -, -, -, -, last⟩ :=
    replace_is_cancel_and_new .above defaultConfig twoBids ran samePrice original free 3
  simp only [Except.bind, replaced, Except.map, Except.ok.injEq] at terms
  exact ⟨e, _, e₁, e₂, e', canceled, removed, accepted, ran, cancelled, sent, replaced, terms, last⟩

end DemoExchange.Properties
