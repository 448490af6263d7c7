import DemoExchange.Refinement.Holds

/-!
# Each request is a step of the exchange

One lemma for each function of the engine that the handlers are made of, and
one for each handler: from an engine that holds `x` it returns, without a
fault, an engine that holds the exchange after the step, and the events of the
step have been numbered and sent.
-/

namespace DemoExchange.Refinement
set_option autoImplicit false
open OrderEntry MatchingEngine Reference Pool Engine

theorem deref_update (heap : Heap) (node : Addr) (n : OrderNode) :
    deref (Function.update heap node (some n)) node = .ok n := by
  simp only [deref, Function.update_self]

section Handlers

variable {e : Engine} {items : List Item} {x : Exchange} {symbol : Symbol} {book : OrderBook}

/-- **Matching**, with the book in hand and the engine's copy of it to be written back. -/
theorem matchOrders_spec (h : Holds (e.setBook symbol book) items x) (keys : symbol ∈ e.books.map Prod.fst)
    {taker : OrderState} (own : taker.symbol = symbol) :
    ∃ book' e' items',
      e.matchOrders book taker =
        .ok (⟨(sweep x.live taker).fills.length, (sweep x.live taker).fills.getLast?.map (·.maker.price)⟩, book',
          (sweep x.live taker).taker, e') ∧
      e'.books = e.books ∧ e'.core.out = emitAll e.core.out (tradeEvents (sweep x.live taker).fills) ∧
      Holds (e'.setBook symbol book') items' { x with live := (sweep x.live taker).live } := by
  have hb : (symbol, book) ∈ (e.setBook symbol book).books := Holds.mem_setBook keys
  obtain ⟨heap', core', items', m', ran, tracks, live, sent, renders, others⟩ :=
    matchSide_spec h.tracks (h.renders symbol book hb (otherSide taker.side)) ⟨own, rfl⟩
  rw [h.live] at ran live sent
  refine ⟨book.withSideMap (otherSide taker.side) m', { e with heap := heap', core := core' }, items', ?_, rfl, sent, ?_⟩
  · simp only [setBook] at ran
    simp only [matchOrders, opposite_eq, ran, bind, Except.bind, pure, Except.pure]
  · rw [← setBook_setBook _ symbol book]
    refine h.change hb tracks live rfl renders others ?_ ?_
    · intro o ho
      obtain ⟨o', member, -, terms⟩ := sweep_live _ _ o ho
      rw [terms.symbol]
      exact h.known o' member
    · intro o ho
      obtain ⟨o', member, arrival, -⟩ := sweep_live _ _ o ho
      rw [← arrival]
      exact h.arrivals o' member

/-- **Resting a residual**: a new live order, arriving last. -/
theorem restResidual_spec (alloc : Allocator) (h : Holds (e.setBook symbol book) items x)
    (keys : symbol ∈ e.books.map Prod.fst) {order : OrderState} (own : order.symbol = symbol)
    (absent : e.core.restingIndex order.key = none) :
    ∃ book' e' items',
      e.restResidual alloc book order.key order = .ok (book', e') ∧ e'.books = e.books ∧ e'.core.out = e.core.out ∧
      Holds (e'.setBook symbol book') items'
        { x with live := x.live ++ [⟨x.nextArrival, order⟩], nextArrival := x.nextArrival + 1 } := by
  have hb : (symbol, book) ∈ (e.setBook symbol book).books := Holds.mem_setBook keys
  have last : ∀ i ∈ items, i.2.arrival < x.nextArrival := fun i hi => h.arrivals _ (h.mem_live hi)
  have tracks := h.tracks.add alloc (o := ⟨x.nextArrival, order⟩) last absent
  have slot : (Function.update e.heap (alloc.malloc e.core.nodePool) (some ⟨false, order⟩)) (alloc.malloc e.core.nodePool) =
      some ⟨false, order⟩ := Function.update_self _ _ _
  obtain ⟨m', placed, renders⟩ := (h.renders symbol book hb order.side).place (o := ⟨x.nextArrival, order⟩) slot
  rw [Function.update_idem] at placed
  refine ⟨book.withSideMap order.side m',
    { e with
      heap := Function.update e.heap (alloc.malloc e.core.nodePool) (some ⟨true, order⟩)
      core := { e.core with nodePool := .malloc (alloc.malloc e.core.nodePool) :: e.core.nodePool }.emplaceIndex order.key
        (alloc.malloc e.core.nodePool) },
    items ++ [(alloc.malloc e.core.nodePool, ⟨x.nextArrival, order⟩)], ?_, rfl, ?_, ?_⟩
  · simp only [restResidual, allocateNode, OrderBook.place, deref, slot, placed, bind, Except.bind, pure, Except.pure]
  · simp only [Core.emplaceIndex, absent]
  · rw [← setBook_setBook _ symbol book]
    refine h.change hb tracks ?_ rfl ?_ ?_ ?_ ?_
    · rw [List.map_append, h.live]
      rfl
    · have mine : sideItems [(alloc.malloc e.core.nodePool, ⟨x.nextArrival, order⟩)] symbol order.side =
          [(alloc.malloc e.core.nodePool, ⟨x.nextArrival, order⟩)] := by
        simp [sideItems, OnSide, own]
      rw [sideItems, List.filter_append]
      rw [sideItems] at mine
      rw [mine]
      exact renders
    · intro s sd apart
      have theirs : sideItems [(alloc.malloc e.core.nodePool, ⟨x.nextArrival, order⟩)] s sd = [] := by
        refine List.filter_eq_nil_iff.2 fun j hj inside => apart ?_
        rw [List.mem_singleton.1 hj] at inside
        have inside := of_decide_eq_true inside
        exact ⟨inside.1.symm.trans own, inside.2.symm⟩
      rw [sideItems, List.filter_append]
      rw [sideItems] at theirs
      rw [theirs, List.append_nil]
      rfl
    · intro o ho
      rcases List.mem_append.1 ho with ho | ho
      · exact h.known o ho
      · rw [List.mem_singleton.1 ho]
        refine (h.configured _).1 ?_
        rw [show (LiveOrder.mk x.nextArrival order).order.symbol = symbol from own]
        exact List.mem_map.2 ⟨_, hb, rfl⟩
    · intro o ho
      rcases List.mem_append.1 ho with ho | ho
      · exact Nat.lt_succ_of_lt (h.arrivals o ho)
      · rw [List.mem_singleton.1 ho]
        exact Nat.lt_succ_self _

/-- The live orders without the one at a node. -/
theorem Holds.without_live (h : Holds e items x) {i : Item} (hi : i ∈ items) :
    (without i.2.arrival items).map Prod.snd = (x.remove i.2.order.key).live := by
  rw [Refinement.without_live, h.live]
  unfold Exchange.remove
  apply List.filter_congr
  intro o ho
  rw [← h.live] at ho
  obtain ⟨j, hj, rfl⟩ := List.mem_map.1 ho
  by_cases same : j = i
  · simp [same]
  · have arrival : j.2.arrival ≠ i.2.arrival := fun e => same (h.tracks.arrival_inj hj hi e)
    have key : j.2.order.key ≠ i.2.order.key := fun e => same (h.tracks.key_inj hj hi e)
    simp [arrival, key]

/-- **Taking a resting order out**, as cancel and replace do. -/
theorem removeResting_spec (h : Holds e items x) {i : Item} (hi : i ∈ items) :
    ∃ book' e' items',
      e.removeResting i.2.order.key i.1 =
        .ok (i.2.order, book', decide (bestPriceOn x.live i.2.order.symbol i.2.order.side = some i.2.order.price), e') ∧
      (i.2.order.symbol, book') ∈ e'.books ∧ e'.core.out = e.core.out ∧ Holds e' items' (x.remove i.2.order.key) := by
  have keys : i.2.order.symbol ∈ e.books.map Prod.fst := (h.configured _).2 (h.known _ (h.mem_live hi))
  obtain ⟨⟨s, book⟩, hb, own⟩ := List.mem_map.1 keys
  simp only at own
  subst own
  have mine : i ∈ sideItems items i.2.order.symbol i.2.order.side := mem_sideItems.2 ⟨hi, rfl, rfl⟩
  obtain ⟨m', cancelled, renders⟩ := (h.renders _ book hb i.2.order.side).cancel h.tracks mine
  refine ⟨book.withSideMap i.2.order.side m', _, without i.2.arrival items, ?_, ?_, ?_,
    h.change hb (h.tracks.release hi) (h.without_live hi) rfl renders
      (fun _ _ => sideItems_without_other h.tracks mine) ?_ ?_⟩
  · simp only [removeResting, h.tracks.deref_eq hi, bind, Except.bind, h.lookup.2 hb, OrderBook.cancel, cancelled,
      releaseNode, deref_update, Function.update_idem, Bool.false_eq_true, if_false, pure, Except.pure, h.best hb]
    rfl
  · exact Holds.mem_setBook keys
  · rfl
  · exact fun o ho => h.known o (List.mem_filter.1 ho).1
  · exact fun o ho => h.arrivals o (List.mem_filter.1 ho).1

/-! ## The events of a new order -/

theorem emitAll_cons (out : Outbox) (event : Emission) (events : List Emission) :
    emitAll out (event :: events) = emitAll (emit out event) events := rfl

theorem reportTrades_spec (e : Engine) (request : NewOrderSingle) (order : OrderState) (fills : List Fill) :
    e.reportTrades request order ⟨fills.length, fills.getLast?.map (·.maker.price)⟩ =
      e.updateOut (emitAll · (tradeReports request order fills)) := by
  unfold reportTrades tradeReports
  cases last : fills.getLast? with
  | none => rfl
  | some f =>
    have positive : fills.length > 0 := by
      refine List.length_pos_iff.2 fun empty => ?_
      rw [empty] at last
      cases last
    simp only [Option.map_some, if_pos positive, executionSummary_eq, onMarketData_eq, emitExecutionReport_eq]
    rfl

/-- The engine's decision to place a residual. -/
theorem rests_iff (order : OrderState) :
    (order.leavesQty > 0 ∧ ¬decide (order.price = 0) = true) ↔ Exchange.Rests order := by
  rw [pos_iff_ne_zero, decide_eq_true_eq]
  rfl

theorem publishUpdates_spec (h : Holds e items x) {request : NewOrderSingle} (hb : (request.symbol, book) ∈ e.books)
    (removed place : Bool) :
    e.publishUpdates book request removed place =
      e.updateOut (emitAll · ((if removed then
          [bookUpdate x.live request.symbol (otherSide request.side) request.securityId] else []) ++
        if place ∧ bestPriceOn x.live request.symbol request.side = some request.price then
          [bookUpdate x.live request.symbol request.side request.securityId] else [])) := by
  unfold publishUpdates
  simp only [opposite_eq, h.emitMbo hb, h.best hb]
  cases removed <;> split <;> rfl

/-- **A residual rests or is dropped.** -/
theorem rest_spec (alloc : Allocator) (h : Holds (e.setBook symbol book) items x)
    (keys : symbol ∈ e.books.map Prod.fst) {order : OrderState} (own : order.symbol = symbol)
    (absent : x.find? order.key = none) :
    ∃ book' e' items',
      (if Exchange.Rests order then e.restResidual alloc book order.key order else pure (book, e)) = .ok (book', e') ∧
      e'.books = e.books ∧ e'.core.out = e.core.out ∧ Holds (e'.setBook symbol book') items' (x.rest x.live order) := by
  unfold Exchange.rest
  split
  · have free : e.core.restingIndex order.key = none := h.free.2 absent
    exact restResidual_spec alloc h keys own free
  · exact ⟨book, e, items, rfl, rfl, rfl, h⟩

/-- **A new order past the two up-front checks.** -/
theorem acceptNewOrderSingle_spec (alloc : Allocator) (h : Holds e items x) {request : NewOrderSingle}
    (hb : (request.symbol, book) ∈ e.books) (absent : x.find? ⟨request.clientId, request.clOrdId⟩ = none) :
    ∃ e' items', e.acceptNewOrderSingle alloc book request = .ok e' ∧ Holds e' items' (x.accept request).1 ∧
      e'.core.out = emitAll e.core.out (x.accept request).2 := by
  have keys : request.symbol ∈ e.books.map Prod.fst := List.mem_map.2 ⟨_, hb, rfl⟩
  have accepted := h.updateOut (emit · (report (orderFor request) .newOrder .newOrder))
  rw [← accepted.setBook_self hb] at accepted
  obtain ⟨book₁, e₁, items₁, matched, books₁, sent₁, h₁⟩ :=
    matchOrders_spec accepted keys (show (orderFor request).symbol = request.symbol from rfl)
  have terms := sweep_taker x.live (orderFor request)
  have free := find_sweep absent (orderFor request)
  unfold Engine.acceptNewOrderSingle Exchange.accept
  simp only [makeOrderState_eq, emitExecutionReport_eq, matched, bind, Except.bind, reportTrades_spec, rests_iff]
  generalize sweep x.live (orderFor request) = s at *
  have own : s.taker.symbol = request.symbol := terms.symbol
  have key : s.taker.key = ⟨request.clientId, request.clOrdId⟩ := terms.key
  have reported : Holds ((e₁.updateOut (emitAll · (tradeReports request s.taker s.fills))).setBook request.symbol book₁)
      items₁ { x with live := s.live } := h₁.updateOut (emitAll · (tradeReports request s.taker s.fills))
  obtain ⟨book₂, e₂, items₂, rested, books₂, sent₂, h₂⟩ :=
    rest_spec alloc reported (by rw [Engine.updateOut, books₁]; exact keys) own (by rw [key]; exact free)
  rw [key] at rested
  have stored : (request.symbol, book₂) ∈ (e₂.setBook request.symbol book₂).books :=
    Holds.mem_setBook (by rw [books₂, Engine.updateOut, books₁]; exact keys)
  have published := publishUpdates_spec h₂ stored (decide (s.fills.length > 0)) (decide (Exchange.Rests s.taker))
  refine ⟨(e₂.setBook request.symbol book₂).publishUpdates book₂ request (decide (s.fills.length > 0))
    (decide (Exchange.Rests s.taker)), items₂, ?_, ?_, ?_⟩
  · by_cases rests : Exchange.Rests s.taker
    · rw [if_pos rests] at rested
      simp only [rests, decide_true, if_true, rested]
      rfl
    · rw [if_neg rests] at rested
      simp only [rests, decide_false, Bool.false_eq_true, if_false, rested]
      rfl
  · rw [published]
    exact h₂.updateOut _
  · have traded : (if decide (s.fills.length > 0) = true then
          [bookUpdate (x.rest s.live s.taker).live request.symbol (otherSide request.side) request.securityId] else []) =
        if s.fills = [] then []
        else [bookUpdate (x.rest s.live s.taker).live request.symbol (otherSide request.side) request.securityId] := by
      cases s.fills <;> rfl
    rw [published]
    show emitAll e₂.core.out _ = _
    rw [sent₂]
    show emitAll (emitAll e₁.core.out _) _ = _
    rw [sent₁]
    simp only [← emitAll_append, ← traded, decide_eq_true_eq, List.cons_append, List.append_assoc]
    rfl

/-! ## The handlers -/

theorem impl_duplicate (alloc : Allocator) (h : Holds e items x) (request : NewOrderSingle)
    (live : (x.find? ⟨request.clientId, request.clOrdId⟩).isSome = true) :
    e.handleNewOrderSingleImpl alloc request =
      .ok (.error (.duplicateOrder request.clientId request.clOrdId), e) := by
  obtain ⟨-, absent⟩ | ⟨i, -, -, found, -⟩ := h.find ⟨request.clientId, request.clOrdId⟩
  · rw [absent] at live
    cases live
  · simp only [handleNewOrderSingleImpl, checkDuplicate, found]

theorem impl_unknown (alloc : Allocator) (h : Holds e items x) (request : NewOrderSingle)
    (absent : x.find? ⟨request.clientId, request.clOrdId⟩ = none) (unknown : request.symbol ∉ x.configured) :
    e.handleNewOrderSingleImpl alloc request = .ok (.error (.unknownSymbol request.symbol), e) := by
  have free := h.free.2 absent
  have missing := h.noBook.2 unknown
  simp only [handleNewOrderSingleImpl, checkDuplicate, free, findBook, missing]

theorem impl_accepted (alloc : Allocator) (h : Holds e items x) (request : NewOrderSingle)
    (absent : x.find? ⟨request.clientId, request.clOrdId⟩ = none) (known : request.symbol ∈ x.configured) :
    ∃ e' items', e.handleNewOrderSingleImpl alloc request = .ok (.ok (), e') ∧ Holds e' items' (x.accept request).1 ∧
      e'.core.out = emitAll e.core.out (x.accept request).2 := by
  have free := h.free.2 absent
  obtain ⟨book, hb⟩ := h.exists_book known
  obtain ⟨e', items', accepted, holds, sent⟩ := acceptNewOrderSingle_spec alloc h hb absent
  refine ⟨e', items', ?_, holds, sent⟩
  simp only [handleNewOrderSingleImpl, checkDuplicate, free, findBook, h.lookup.2 hb, accepted, bind, Except.bind,
    pure, Except.pure]

/-- A handler has returned an engine that represents the exchange after the
step, and the events of the step have been sent. -/
def Answers (e : Engine) (result : Except Fault Engine) (next : Exchange × List Emission) : Prop :=
  ∃ e', result = .ok e' ∧ Represents e' next.1 ∧ e'.core.out = emitAll e.core.out next.2

theorem handleNewOrderSingle_spec (alloc : Allocator) (h : Holds e items x) (request : NewOrderSingle) :
    Answers e (e.handleNewOrderSingle alloc request) (x.newOrderSingle request) := by
  unfold Engine.handleNewOrderSingle Exchange.newOrderSingle
  split
  · rename_i live
    exact ⟨e, by simp only [impl_duplicate alloc h request live]; rfl, ⟨items, h⟩, rfl⟩
  rename_i absent
  rw [Option.not_isSome_iff_eq_none] at absent
  split
  · rename_i known
    obtain ⟨e', items', handled, holds, sent⟩ := impl_accepted alloc h request absent known
    exact ⟨e', by simp only [handled]; rfl, ⟨items', holds⟩, sent⟩
  · rename_i unknown
    exact ⟨e, by simp only [impl_unknown alloc h request absent unknown]; rfl, ⟨items, h⟩, rfl⟩

theorem handleCancelOrder_spec (h : Holds e items x) (incoming : CancelOrder) :
    Answers e (e.handleCancelOrder incoming) (x.cancelOrder incoming) := by
  unfold Engine.handleCancelOrder Exchange.cancelOrder
  obtain ⟨free, absent⟩ | ⟨i, hi, key, found, live⟩ := h.find ⟨incoming.clientId, incoming.origClOrdId⟩
  · simp only [free, absent, emitCancelReject_eq]
    exact ⟨_, rfl, ⟨items, h.updateOut _⟩, rfl⟩
  · simp only [found, live, emitExecutionReport_eq]
    obtain ⟨book', e', items', removed, hb, sent, holds⟩ := removeResting_spec h hi
    rw [key] at removed
    simp only [removed, bind, Except.bind, decide_eq_true_eq, Exchange.removalUpdate]
    have reported := holds.updateOut (emit · (report i.2.order .canceled .canceled (some incoming.origClOrdId)))
    split
    · refine ⟨_, rfl, ⟨items', reported.updateOut _⟩, ?_⟩
      show (emit e'.core.out _).emitMboBookUpdate _ _ _ = _
      rw [holds.emitMbo hb, sent]
      rfl
    · refine ⟨_, rfl, ⟨items', reported⟩, ?_⟩
      show emit e'.core.out (report i.2.order .canceled .canceled (some incoming.origClOrdId)) = _
      rw [sent]
      rfl

theorem handleReplaceOrder_spec (alloc : Allocator) (h : Holds e items x) (incoming : ReplaceOrder) :
    Answers e (e.handleReplaceOrder alloc incoming) (x.replaceOrder incoming) := by
  unfold Engine.handleReplaceOrder Exchange.replaceOrder
  obtain ⟨free, absent⟩ | ⟨i, hi, key, found, live⟩ := h.find ⟨incoming.clientId, incoming.origClOrdId⟩
  · simp only [free, absent, replaceAsCancel_eq, emitCancelReject_eq]
    exact ⟨_, rfl, ⟨items, h.updateOut _⟩, rfl⟩
  simp only [found, live, replaceAsCancel_eq, emitCancelReject_eq]
  obtain ⟨free, absent⟩ | ⟨j, -, -, found', live'⟩ := h.find ⟨incoming.clientId, incoming.clOrdId⟩
  swap
  · simp only [found', live', Option.isSome_some, if_true]
    exact ⟨_, rfl, ⟨items, h.updateOut _⟩, rfl⟩
  simp only [free, absent, Option.isSome_none, Bool.false_eq_true, if_false]
  -- the original leaves, and its side is published if it stood at the best price
  obtain ⟨book', e₁, items₁, removed, hb, sent₁, h₁⟩ := removeResting_spec h hi
  rw [key] at removed
  simp only [removed, bind, Except.bind, decide_eq_true_eq]
  have published : (if bestPriceOn x.live i.2.order.symbol i.2.order.side = some i.2.order.price then
        e₁.updateOut (·.emitMboBookUpdate book' i.2.order.side i.2.order.securityId) else e₁) =
      e₁.updateOut (emitAll · (x.removalUpdate i.2)) := by
    simp only [h₁.emitMbo hb, Exchange.removalUpdate]
    split <;> rfl
  rw [published]
  have h₂ := h₁.updateOut (emitAll · (x.removalUpdate i.2))
  have absent' := find_remove absent i.2.order.key
  -- the replacement is a new order
  by_cases known : incoming.symbol ∈ x.configured
  · obtain ⟨e₃, items₃, accepted, h₃, sent₃⟩ := impl_accepted alloc h₂ (replacementOf incoming) absent' known
    rw [if_pos known]
    refine ⟨e₃, by simp only [replacement_eq, accepted]; rfl, ⟨items₃, h₃⟩, ?_⟩
    rw [sent₃, emitAll_append]
    show emitAll (emitAll e₁.core.out _) _ = _
    rw [sent₁]
  · have refused := impl_unknown alloc h₂ (replacementOf incoming) absent' known
    rw [if_neg known]
    refine ⟨_, by simp only [replacement_eq, refused]; rfl, ⟨items₁, h₂.updateOut _⟩, ?_⟩
    rw [emitAll_append]
    show emit (emitAll e₁.core.out _) (reject (cancelOf incoming) .unknownSymbol "unknown symbol") = _
    rw [sent₁]
    rfl

theorem handleFlush_spec (h : Holds e items x) : Answers e e.handleFlush ({ x with live := [] }, []) := by
  obtain ⟨heap', core', items', drained, tracks, sent, fewer, empty⟩ :=
    drainBooks_spec e.books h.tracks h.unique h.renders
  have none : items' = [] := by
    refine List.eq_nil_iff_forall_not_mem.2 fun i hi => ?_
    have known := (h.configured _).2 (h.known _ (h.mem_live (fewer.subset hi)))
    have inside : i ∈ sideItems items' i.2.order.symbol i.2.order.side := mem_sideItems.2 ⟨hi, rfl, rfl⟩
    rw [empty _ known] at inside
    cases inside
  subst none
  have keys : (e.books.map fun x => (x.1, OrderBook.mk [] [])).map Prod.fst = e.books.map Prod.fst := by
    rw [List.map_map]
    rfl
  refine ⟨⟨heap', e.books.map fun x => (x.1, ⟨[], []⟩), core'⟩, ?_, ⟨[], ?_⟩, sent⟩
  · simp only [handleFlush, drained, bind, Except.bind, pure, Except.pure]
  · refine ⟨tracks, rfl, by rw [keys]; exact h.unique, by rw [keys]; exact h.configured, ?_, by simp, by simp⟩
    intro s b hb side
    obtain ⟨y, -, same⟩ := List.mem_map.1 hb
    cases same
    exact ⟨[], Buckets.Of.nil _ _, by cases side <;> rfl⟩

/-- **One request** is one step of the exchange. -/
theorem handle_spec (alloc : Allocator) (h : Represents e x) (request : Request) :
    Answers e (e.handle alloc request) (x.step request) := by
  obtain ⟨items, h⟩ := h
  cases request with
  | newOrderSingle request => exact handleNewOrderSingle_spec alloc h request
  | replaceOrder request => exact handleReplaceOrder_spec alloc h request
  | cancelOrder request => exact handleCancelOrder_spec h request
  | flush => exact handleFlush_spec h

end Handlers

end DemoExchange.Refinement
