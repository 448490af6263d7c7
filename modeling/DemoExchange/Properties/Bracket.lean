import DemoExchange.Properties.Agreement
import DemoExchange.Reference.Fills
import DemoExchange.Reference.Ledger
import DemoExchange.Refinement.Numbering

/-!
# The events of an accepted order

An accepted order is bracketed by the report of its acceptance and the updates
of the two sides it may have changed. Its trades come between, and if there
are any, one summary and one report of all of them.
-/

namespace DemoExchange.Properties
set_option autoImplicit false
open OrderEntry MatchingEngine Reference Refinement

/-- The engine accepts the request as the new order `sent`: its key is free,
the original of a replacement is there, and its symbol has a book. A replacement
is a new order with the terms of the request. -/
inductive Accepts (e : Engine) : Request → NewOrderSingle → Prop where
  | newOrder (request : NewOrderSingle) (free : e.core.restingIndex ⟨request.clientId, request.clOrdId⟩ = none)
      (known : request.symbol ∈ e.books.map Prod.fst) : Accepts e (.newOrderSingle request) request
  | replacement (incoming : ReplaceOrder)
      (original : (e.core.restingIndex ⟨incoming.clientId, incoming.origClOrdId⟩).isSome = true)
      (free : e.core.restingIndex ⟨incoming.clientId, incoming.clOrdId⟩ = none)
      (known : incoming.symbol ∈ e.books.map Prod.fst) :
      Accepts e (.replaceOrder incoming)
        { clientId := incoming.clientId
          clOrdId := incoming.clOrdId
          securityId := incoming.securityId
          symbol := incoming.symbol
          securityExchange := incoming.securityExchange
          side := incoming.side
          ordType := incoming.ordType
          timeInForce := incoming.timeInForce
          orderQty := incoming.orderQty
          price := incoming.price }

/-- The quantity of some trades. -/
def tradedTotal (calls : List TradeCall) : Nat := (calls.map (·.event.quantity.toNat)).sum

/-- The report of acceptance. -/
structure Acceptance (sent : NewOrderSingle) (r : ExecutionReport) : Prop where
  key : reportKey r = ⟨sent.clientId, sent.clOrdId⟩
  execType : r.execType = .newOrder
  ordStatus : r.ordStatus = .newOrder
  cumQty : r.cumQty = 0
  leavesQty : r.leavesQty = sent.orderQty

/-- The summary of some trades, the last of them at `lastPx`, and the report of them. -/
structure Summarized (sent : NewOrderSingle) (calls : List TradeCall) (lastPx : Price)
    (summary : MarketData.ExecutionSummary) (r : ExecutionReport) : Prop where
  key : reportKey r = ⟨sent.clientId, sent.clOrdId⟩
  execType : r.execType = .trade
  securityId : summary.securityId = sent.securityId
  aggressorSide : summary.aggressorSide = marketSide sent.side
  fillQty : summary.fillQty.toNat = tradedTotal calls
  lastQty : r.lastQty = some summary.fillQty
  cumQty : r.cumQty = summary.fillQty
  summaryPx : summary.lastPx = lastPx
  lastPx : r.lastPx = some lastPx
  leavesQty : r.leavesQty.toNat = sent.orderQty.toNat - tradedTotal calls
  enough : tradedTotal calls ≤ sent.orderQty.toNat
  ordStatus : r.ordStatus = if r.leavesQty = 0 then .filled else .partiallyFilled

/-- The update that shows the top of a side of `book`: the price and the total
of its best level, or that there is none. -/
def sideUpdate (book : OrderBook) (side : Side) (securityId : SecurityId) : Emission :=
  .marketData (.mboBookUpdate
    { securityId := securityId
      updateAction := if (book.bestLevel side).isSome then .change else .deleteOrder
      side := marketSide side
      restingOrderId := 0
      price := (book.bestLevel side).map (·.price)
      quantity := (book.bestLevel side).map (·.totalQuantity)
      previousQuantity := none
      transactTime := 0 })

/-- The update of the order's own side, if its residual was placed at what is now the best price. -/
def ownUpdate (sent : NewOrderSingle) (book : OrderBook) (placed : Bool) : List Emission :=
  if placed ∧ book.best sent.side = some sent.price then [sideUpdate book sent.side sent.securityId] else []

/-- The events from acceptance on, with the book after them. -/
inductive Bracket (sent : NewOrderSingle) (book : OrderBook) (placed : Bool) : List Emission → Prop where
  | untraded (accepted : ExecutionReport) (acceptance : Acceptance sent accepted) :
      Bracket sent book placed (.orderEntry (.executionReport accepted) :: ownUpdate sent book placed)
  | traded (accepted : ExecutionReport) (calls : List TradeCall) (last : TradeCall)
      (summary : MarketData.ExecutionSummary) (report : ExecutionReport) (acceptance : Acceptance sent accepted)
      (final : calls.getLast? = some last) (summarized : Summarized sent calls last.event.price summary report) :
      Bracket sent book placed
        (.orderEntry (.executionReport accepted) :: calls.map .trade ++
          [.marketData (.executionSummary summary), .orderEntry (.executionReport report),
            sideUpdate book (otherSide sent.side) sent.securityId] ++
          ownUpdate sent book placed)

section Accepting

variable {e : Engine} {items : List Item} {x : Exchange} {book : OrderBook} {sent : NewOrderSingle}

/-- The trades of a sweep under their numbers: their quantity, and where the last was. -/
theorem calls_of_fills {calls : List TradeCall} {fills : List Fill} (same : calls.map unnumberedCall = fills.map Fill.call) :
    tradedTotal calls = filledTotal fills ∧
      calls.getLast?.map (·.event.price) = fills.getLast?.map (·.maker.price) := by
  constructor
  · have total : tradedTotal (calls.map unnumberedCall) = tradedTotal (fills.map Fill.call) := by rw [same]
    simp only [tradedTotal, List.map_map] at total
    exact total
  · have last : (calls.map unnumberedCall).getLast?.map (·.event.price) = (fills.map Fill.call).getLast?.map (·.event.price) := by
      rw [same]
    simp only [List.getLast?_map, Option.map_map] at last
    exact last

/-- The residual of an accepted order is in the index exactly when it rests. -/
theorem placed_iff (h : Holds e items (x.accept sent).1) (absent : x.find? ⟨sent.clientId, sent.clOrdId⟩ = none) :
    (e.core.restingIndex ⟨sent.clientId, sent.clOrdId⟩).isSome = true ↔
      Exchange.Rests (sweep x.live (orderFor sent)).taker := by
  have free := Exchange.find?_none.1 (find_sweep absent (orderFor sent))
  have there : (e.core.restingIndex ⟨sent.clientId, sent.clOrdId⟩).isSome = true ↔
      ∃ o ∈ (x.accept sent).1.live, o.order.key = ⟨sent.clientId, sent.clOrdId⟩ := by
    obtain ⟨none, absent'⟩ | ⟨i, hi, keyed, found, -⟩ := h.find ⟨sent.clientId, sent.clOrdId⟩
    · rw [none]
      constructor
      · intro impossible
        cases impossible
      · rintro ⟨o, ho, keyed⟩
        exact absurd keyed (Exchange.find?_none.1 absent' o ho)
    · rw [found]
      exact ⟨fun _ => ⟨i.2, h.mem_live hi, keyed⟩, fun _ => rfl⟩
  rw [there]
  simp only [Exchange.accept, Exchange.rest]
  constructor
  · rintro ⟨o, ho, keyed⟩
    split at ho
    · assumption
    · exact absurd keyed (free o ho)
  · intro rests
    rw [if_pos rests]
    refine ⟨⟨x.nextArrival, (sweep x.live (orderFor sent)).taker⟩, List.mem_append_right _ (List.mem_singleton_self _), ?_⟩
    exact (sweep_taker x.live (orderFor sent)).key

/-- The report of acceptance, numbered. -/
theorem acceptance_of_unnumbered {event : Emission}
    (same : unnumbered event = report (orderFor sent) .newOrder .newOrder) :
    ∃ r, event = .orderEntry (.executionReport r) ∧ Acceptance sent r := by
  obtain ⟨r, rfl, fields⟩ := report_of_unnumbered same
  have cum : r.cumQty = sent.orderQty - sent.orderQty := congrArg ExecutionReport.cumQty fields
  refine ⟨r, rfl, ?_, congrArg ExecutionReport.execType fields, congrArg ExecutionReport.ordStatus fields, ?_,
    congrArg ExecutionReport.leavesQty fields⟩
  · exact congrArg reportKey fields
  · rw [cum, UInt64.sub_self]

/-- The summary and the trade report, numbered. -/
theorem summarized_of_unnumbered {fills : List Fill} {last : Fill} {taker : OrderState} {calls : List TradeCall}
    {numbered : List Emission} (final : fills.getLast? = some last) (terms : Reduces (orderFor sent) taker)
    (total : tradedTotal calls = filledTotal fills)
    (quantity : filledTotal fills + taker.leavesQty.toNat = sent.orderQty.toNat)
    (same : numbered.map unnumbered = tradeReports sent taker fills) :
    ∃ summary r, numbered = [.marketData (.executionSummary summary), .orderEntry (.executionReport r)] ∧
      Summarized sent calls last.maker.price summary r := by
  rw [tradeReports, final] at same
  obtain ⟨first, others, rfl, summary, others'⟩ := List.map_eq_cons_iff.1 same
  obtain ⟨second, rest, rfl, reported, none⟩ := List.map_eq_cons_iff.1 others'
  obtain rfl := List.map_eq_nil_iff.1 none
  have data := @eq_of_unnumbered [first] [_] (by simp) (congrArg ([·]) summary)
  obtain ⟨r, rfl, fields⟩ := report_of_unnumbered reported
  obtain ⟨q, rfl⟩ := terms
  have bound : q ≤ sent.orderQty := by
    rw [UInt64.le_iff_toNat_le]
    show q.toNat ≤ _
    simp only at quantity
    omega
  have filled : (sent.orderQty - q).toNat = tradedTotal calls := by
    rw [UInt64.toNat_sub_of_le _ _ bound, total]
    simp only at quantity
    omega
  have left : r.leavesQty = q := congrArg ExecutionReport.leavesQty fields
  refine ⟨_, r, congrArg₂ List.cons (List.cons.inj data).1 rfl, ?_⟩
  refine ⟨congrArg reportKey fields, congrArg ExecutionReport.execType fields, rfl, rfl, filled,
    congrArg ExecutionReport.lastQty fields, congrArg ExecutionReport.cumQty fields, rfl,
    congrArg ExecutionReport.lastPx fields, ?_, ?_, ?_⟩
  · rw [left, total]
    simp only at quantity
    omega
  · rw [total]
    omega
  · rw [left]
    exact congrArg ExecutionReport.ordStatus fields

/-- **What acceptance emits**, numbered. -/
theorem bracket_of_accept (h : Holds e items (x.accept sent).1) (hb : (sent.symbol, book) ∈ e.books)
    (absent : x.find? ⟨sent.clientId, sent.clOrdId⟩ = none) {events : List Emission}
    (same : events.map unnumbered = (x.accept sent).2) :
    Bracket sent book (e.core.restingIndex ⟨sent.clientId, sent.clOrdId⟩).isSome events := by
  have placed := placed_iff h absent
  have update : ∀ side, bookUpdate (x.accept sent).1.live sent.symbol side sent.securityId =
      sideUpdate book side sent.securityId := by
    intro side
    rw [bookUpdate, sideUpdate, updateOf, h.bestLevel hb]
  have own : (if Exchange.Rests (sweep x.live (orderFor sent)).taker ∧
        bestPriceOn (x.accept sent).1.live sent.symbol sent.side = some sent.price then
        [bookUpdate (x.accept sent).1.live sent.symbol sent.side sent.securityId] else []) =
      ownUpdate sent book (e.core.restingIndex ⟨sent.clientId, sent.clOrdId⟩).isSome := by
    rw [update, ← h.best hb, ownUpdate]
    simp only [placed]
  have ownData : ∀ event ∈ ownUpdate sent book (e.core.restingIndex ⟨sent.clientId, sent.clOrdId⟩).isSome,
      ∃ message, event = .marketData message := by
    intro event member
    unfold ownUpdate at member
    split at member
    · exact ⟨_, List.mem_singleton.1 member⟩
    · cases member
  have terms := sweep_taker x.live (orderFor sent)
  have quantity := sweep_quantity x.live (orderFor sent)
  have emitted : (x.accept sent).2 = report (orderFor sent) .newOrder .newOrder ::
      (((sweep x.live (orderFor sent)).fills.map Fill.call).map Emission.trade ++
        (tradeReports sent (sweep x.live (orderFor sent)).taker (sweep x.live (orderFor sent)).fills ++
          ((if (sweep x.live (orderFor sent)).fills = [] then []
            else [bookUpdate (x.accept sent).1.live sent.symbol (otherSide sent.side) sent.securityId]) ++
            ownUpdate sent book (e.core.restingIndex ⟨sent.clientId, sent.clOrdId⟩).isSome))) := by
    rw [← own, List.map_map]
    simp only [Exchange.accept, List.append_assoc, List.cons_append]
    rfl
  rw [emitted, update] at same
  obtain ⟨first, rest, rfl, accepted, rest'⟩ := List.map_eq_cons_iff.1 same
  obtain ⟨acceptedReport, rfl, acceptance⟩ := acceptance_of_unnumbered accepted
  obtain ⟨trades, others, rfl, traded, others'⟩ := List.map_eq_append_iff.1 rest'
  obtain ⟨calls, rfl, matched⟩ := trades_of_unnumbered traded
  obtain ⟨total, lastPrice⟩ := calls_of_fills matched
  obtain ⟨reports, updates, rfl, reported, updates'⟩ := List.map_eq_append_iff.1 others'
  cases final : (sweep x.live (orderFor sent)).fills.getLast? with
  | none =>
    have none := List.getLast?_eq_none_iff.1 final
    rw [none] at matched reported updates'
    obtain rfl := List.map_eq_nil_iff.1 matched
    obtain rfl := List.map_eq_nil_iff.1 reported
    rw [if_pos rfl, List.nil_append] at updates'
    rw [eq_of_unnumbered ownData updates']
    exact .untraded acceptedReport acceptance
  | some fill =>
    have some : (sweep x.live (orderFor sent)).fills ≠ [] := by
      intro none
      rw [none] at final
      cases final
    obtain ⟨summary, r, rfl, summarized⟩ := summarized_of_unnumbered final terms total quantity reported
    rw [final, Option.map_some, Option.map_eq_some_iff] at lastPrice
    obtain ⟨last, finalCall, price⟩ := lastPrice
    rw [if_neg some] at updates'
    have data := eq_of_unnumbered (fun event member => by
      rcases List.mem_append.1 member with member | member
      · exact ⟨_, List.mem_singleton.1 member⟩
      · exact ownData event member) updates'
    rw [← price] at summarized
    have bracket := @Bracket.traded _ book (e.core.restingIndex ⟨sent.clientId, sent.clOrdId⟩).isSome acceptedReport calls last summary r
      acceptance finalCall summarized
    rw [data]
    simpa only [List.append_assoc, List.cons_append, List.nil_append] using bracket

/-- An accepted request is a step that accepts an order in `y`, what the
exchange is once a replaced order has left, after the events `removed`. -/
theorem Accepts.step (h : Holds e items x) {request : Request} (accepts : Accepts e request sent) :
    ∃ y removed, y.find? ⟨sent.clientId, sent.clOrdId⟩ = none ∧ sent.symbol ∈ y.configured ∧
      x.step request = ((y.accept sent).1, removed ++ (y.accept sent).2) ∧
      ((request = .newOrderSingle sent ∧ y = x ∧ removed = []) ∨
        ∃ incoming, ∃ o ∈ x.live, request = .replaceOrder incoming ∧
          o.order.key = ⟨incoming.clientId, incoming.origClOrdId⟩ ∧ y = x.remove o.order.key ∧ removed = x.removalUpdate o) := by
  cases accepts with
  | newOrder sent free known =>
    have absent := h.free.1 free
    rw [h.configured] at known
    refine ⟨x, [], absent, known, ?_, .inl ⟨rfl, rfl, rfl⟩⟩
    simp only [Exchange.step, Exchange.newOrderSingle, absent, Option.isSome_none, Bool.false_eq_true, if_false, known,
      if_true, List.nil_append]
  | replacement incoming original free known =>
    have absent := h.free.1 free
    obtain ⟨none, -⟩ | ⟨i, hi, keyed, -, live⟩ := h.find ⟨incoming.clientId, incoming.origClOrdId⟩
    · rw [none] at original
      cases original
    · rw [h.configured] at known
      refine ⟨x.remove i.2.order.key, x.removalUpdate i.2, find_remove absent _, known, ?_,
        .inr ⟨incoming, i.2, h.mem_live hi, rfl, keyed, rfl, rfl⟩⟩
      simp only [Exchange.step, Exchange.replaceOrder, live, absent, Option.isSome_none, Bool.false_eq_true, if_false,
        known, if_true, replacementOf]

end Accepting

/-- The update for an order that leaves, if there is one. -/
theorem removalUpdate_updates (x : Exchange) (o : LiveOrder) :
    (x.removalUpdate o).length ≤ 1 ∧ ∀ event ∈ x.removalUpdate o, ∃ update, event = .marketData (.mboBookUpdate update) := by
  unfold Exchange.removalUpdate
  split
  · exact ⟨Nat.le_refl 1, fun event member => ⟨_, List.mem_singleton.1 member⟩⟩
  · exact ⟨Nat.zero_le 1, fun event member => absurd member List.not_mem_nil⟩

/-- **The bracket.** Sent to any engine that requests lead to, a request that
is accepted emits the bracket of its order, after the update for the original
if it is a replacement. -/
theorem accepted_bracket (alloc : Pool.Allocator) (configuration : EngineConfig) (requests : List Request) {e : Engine}
    {trace : List (Request × List Emission)} (ran : Engine.run alloc configuration requests = .ok (e, trace))
    {request : Request} {sent : NewOrderSingle} (accepts : Accepts e request sent) :
    ∃ e' removed events book, Engine.send alloc e request = .ok (e', removed ++ events) ∧
      (request = .newOrderSingle sent → removed = []) ∧ removed.length ≤ 1 ∧
      (∀ event ∈ removed, ∃ update, event = .marketData (.mboBookUpdate update)) ∧
      e'.books.lookup sent.symbol = some book ∧
      Bracket sent book (e'.core.restingIndex ⟨sent.clientId, sent.clOrdId⟩).isSome events := by
  obtain ⟨items, h⟩ := reached ran
  obtain ⟨y, removed, absent, known, step, origin⟩ := accepts.step h
  obtain ⟨e', handled, ⟨items', h'⟩, -⟩ := send_numbered alloc ⟨items, h⟩ request
  have numbered := sent_unnumbered (run configuration requests).1 request e.core.out
  have updates : removed.length ≤ 1 ∧ ∀ event ∈ removed, ∃ update, event = .marketData (.mboBookUpdate update) := by
    obtain ⟨-, -, rfl⟩ | ⟨incoming, o, -, -, -, -, rfl⟩ := origin
    · simp
    · exact removalUpdate_updates _ _
  have new : request = .newOrderSingle sent → removed = [] := by
    intro is
    obtain ⟨-, -, none⟩ | ⟨incoming, o, -, other, -⟩ := origin
    · exact none
    · rw [is] at other
      cases other
  have configured : sent.symbol ∈ ((run configuration requests).1.step request).1.configured := by
    have same : y.configured = (run configuration requests).1.configured := by
      obtain ⟨-, rfl, -⟩ | ⟨incoming, o, -, -, -, rfl, -⟩ := origin
      · rfl
      · rfl
    rw [step_configured, ← same]
    exact known
  obtain ⟨book, hb⟩ := h'.exists_book configured
  rw [step] at numbered h'
  obtain ⟨before, events, split, first, accepted⟩ := List.map_eq_append_iff.1 numbered
  obtain rfl : before = removed := by
    refine eq_of_unnumbered (fun event member => ?_) first
    obtain ⟨update, is⟩ := updates.2 event member
    exact ⟨_, is⟩
  refine ⟨e', before, events, book, ?_, new, updates.1, updates.2, h'.lookup.2 hb, bracket_of_accept h' hb absent accepted⟩
  rw [handled, step, split]

/-- Two asks, of which the next order takes the first and a part of the second. -/
def twoAsks : List Request :=
  [.newOrderSingle (makeNewOrderSingle bob 101 .sell 10), .newOrderSingle (makeNewOrderSingle bob 102 .sell 12)]

/-- Alice buys 150 at up to 12. -/
def crossingBid : NewOrderSingle := makeNewOrderSingle alice 1 .buy 12 150

theorem accepted_bracket_crossingBid :
    ∃ e trace, Engine.run .above defaultConfig twoAsks = .ok (e, trace) ∧
      ∃ e' removed events book, Engine.send .above e (.newOrderSingle crossingBid) = .ok (e', removed ++ events) ∧
        e'.books.lookup aapl = some book ∧
        Bracket crossingBid book (e'.core.restingIndex ⟨alice, 1⟩).isSome events := by
  obtain ⟨e, ran, -⟩ := engine_run .above defaultConfig twoAsks
  have state : (Engine.run .above defaultConfig twoAsks).map (fun out =>
      decide (out.1.core.restingIndex ⟨alice, 1⟩ = none ∧ aapl ∈ out.1.books.map Prod.fst)) = .ok true := by
    decide
  rw [ran] at state
  obtain ⟨free, known⟩ := of_decide_eq_true (Except.ok.inj state)
  obtain ⟨e', removed, events, book, sent, -, -, -, found, bracket⟩ :=
    accepted_bracket .above defaultConfig twoAsks ran (.newOrder crossingBid free known)
  exact ⟨e, _, ran, e', removed, events, book, sent, found, bracket⟩

end DemoExchange.Properties
