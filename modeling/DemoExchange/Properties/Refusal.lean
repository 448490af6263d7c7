import DemoExchange.Properties.Agreement

/-!
# What a refused request leaves behind

A new order is refused by one of two checks made before anything is touched,
and a cancel by the index lookup it starts with. A replace checks its two keys
before it removes the original but the symbol of its replacement only after
that, so it can be refused with the original gone.
-/

namespace DemoExchange.Properties
set_option autoImplicit false
open OrderEntry MatchingEngine Reference Refinement Engine

/-- The request is turned away: a new order by the `lab::result` of its
handler, any other by a cancel reject. -/
def Refused (alloc : Pool.Allocator) (e : Engine) : Request → Prop
  | .newOrderSingle request => ∃ error e', e.handleNewOrderSingleImpl alloc request = .ok (.error error, e')
  | request => ∃ e' events r, send alloc e request = .ok (e', events) ∧ Emission.orderEntry (.cancelReject r) ∈ events

/-- Handling the request leaves the books, the orders and the index as they
were and emits no market data. -/
def Unchanged (alloc : Pool.Allocator) (e : Engine) (request : Request) : Prop :=
  ∃ e' events, send alloc e request = .ok (e', events) ∧ e'.books = e.books ∧ e'.heap = e.heap ∧
    e'.core.restingIndex = e.core.restingIndex ∧ ∀ event ∈ events, event.message? = none

/-- A replace whose original is live and whose new key is not, to a symbol that
is not configured. -/
def ReplacesUnknownSymbol (e : Engine) : Request → Prop
  | .replaceOrder incoming =>
    (e.core.restingIndex ⟨incoming.clientId, incoming.origClOrdId⟩).isSome = true ∧
      e.core.restingIndex ⟨incoming.clientId, incoming.clOrdId⟩ = none ∧ incoming.symbol ∉ e.books.map Prod.fst
  | _ => False

/-! ## Which events are cancel rejects -/

theorem reject_of_numbered {s : Exchange × Outbox} {request : Request} {r : CancelReject}
    (member : Emission.orderEntry (.cancelReject r) ∈ (numberedStep s request).2) :
    Emission.orderEntry (.cancelReject r) ∈ (s.1.step request).2 := by
  have events : (numberedStep s request).2.map unnumbered = (s.1.step request).2 := by
    show (emitAll { s.2 with events := [] } (s.1.step request).2).events.map unnumbered = _
    rw [emitAll_unnumbered, step_unnumbered]
    rfl
  rw [← events]
  exact List.mem_map.2 ⟨_, member, rfl⟩

/-- The event is not a cancel reject. -/
def NoReject (event : Emission) : Prop := ∀ r, event ≠ .orderEntry (.cancelReject r)

theorem noReject_removalUpdate (x : Exchange) (o : LiveOrder) : ∀ event ∈ x.removalUpdate o, NoReject event := by
  intro event member r
  obtain ⟨message, rfl⟩ := mem_removalUpdate member
  exact Emission.noConfusion

theorem noReject_accept (x : Exchange) (request : NewOrderSingle) : ∀ event ∈ (x.accept request).2, NoReject event := by
  intro event member r
  obtain ⟨order, execType, ordStatus, lastQty, lastPx, rfl⟩ | ⟨f, -, rfl⟩ | ⟨message, rfl⟩ := mem_accept member
  · unfold report
    simp
  · exact Emission.noConfusion
  · exact Emission.noConfusion

section Refusals

variable {alloc : Pool.Allocator} {e : Engine} {items : List Item} {x : Exchange}

theorem send_holds (alloc : Pool.Allocator) (h : Holds e items x) (request : Request) :
    ∃ e', send alloc e request = .ok (e', (numberedStep (x, e.core.out) request).2) ∧ Represents e' (x.step request).1 := by
  obtain ⟨e', sent, represents, -⟩ := send_refines alloc e (x, e.core.out) request ⟨⟨items, h⟩, rfl⟩
  exact ⟨e', sent, represents⟩

/-- A handler that only emits cancel rejects changes nothing. -/
theorem unchanged_of_handle {f : Outbox → Outbox} {request : Request}
    (handled : (e.updateOut fun out => { out with events := [] }).handle alloc request =
      .ok ((e.updateOut fun out => { out with events := [] }).updateOut f))
    (silent : ∀ event ∈ (f { e.core.out with events := [] }).events, event.message? = none) : Unchanged alloc e request := by
  refine ⟨(e.updateOut fun out => { out with events := [] }).updateOut f, _, ?_, rfl, rfl, rfl, silent⟩
  simp only [send, handled, bind, Except.bind, pure, Except.pure]
  rfl

theorem unchanged_newOrderSingle (h : Holds e items x) {request : NewOrderSingle}
    (refused : Refused alloc e (.newOrderSingle request)) : Unchanged alloc e (.newOrderSingle request) := by
  have cleared := h.updateOut fun out => { out with events := [] }
  obtain ⟨error, e', refused⟩ := refused
  cases duplicate : x.find? ⟨request.clientId, request.clOrdId⟩ with
  | some o =>
    have live : (x.find? ⟨request.clientId, request.clOrdId⟩).isSome = true := by rw [duplicate]; rfl
    refine unchanged_of_handle (f := id) ?_ (by simp)
    simp only [handle, handleNewOrderSingle, impl_duplicate alloc cleared request live]
    rfl
  | none =>
    by_cases known : request.symbol ∈ x.configured
    · obtain ⟨e'', -, accepted, -⟩ := impl_accepted alloc h request duplicate known
      rw [accepted] at refused
      cases refused
    · refine unchanged_of_handle (f := id) ?_ (by simp)
      simp only [handle, handleNewOrderSingle, impl_unknown alloc cleared request duplicate known]
      rfl

theorem unchanged_cancelOrder (h : Holds e items x) {incoming : CancelOrder}
    (refused : Refused alloc e (.cancelOrder incoming)) : Unchanged alloc e (.cancelOrder incoming) := by
  obtain ⟨free, -⟩ | ⟨i, hi, key, found, live⟩ := h.find ⟨incoming.clientId, incoming.origClOrdId⟩
  · refine unchanged_of_handle (f := (·.emitCancelReject incoming .unknownOrder "unknown order")) ?_ ?_
    · simp only [handle, handleCancelOrder, updateOut, free]
      rfl
    · intro event member
      rw [List.mem_singleton.1 member]
      rfl
  · obtain ⟨e', events, r, sent, member⟩ := refused
    obtain ⟨e'', sent', -⟩ := send_holds alloc h (.cancelOrder incoming)
    rw [sent'] at sent
    cases sent
    have member := reject_of_numbered member
    simp only [Exchange.step, Exchange.cancelOrder, live, List.mem_cons] at member
    obtain same | member := member
    · unfold report at same
      cases same
    · exact absurd rfl (noReject_removalUpdate _ _ _ member r)

/-- The one refusal that is made after the original has been removed. -/
theorem not_unchanged_of_unknownSymbol (h : Holds e items x) {request : Request}
    (late : ReplacesUnknownSymbol e request) : ¬Unchanged alloc e request := by
  cases request with
  | replaceOrder incoming =>
    obtain ⟨live, free, unknown⟩ := late
    rintro ⟨e', events, sent, -, -, index, -⟩
    obtain ⟨e'', sent', items'', h''⟩ := send_holds alloc h (.replaceOrder incoming)
    rw [sent'] at sent
    cases sent
    obtain ⟨absent, -⟩ | ⟨i, hi, key, found, live'⟩ := h.find ⟨incoming.clientId, incoming.origClOrdId⟩
    · rw [absent] at live
      cases live
    have absent := h.free.1 free
    rw [h.configured] at unknown
    simp only [Exchange.step, Exchange.replaceOrder, live', absent, Option.isSome_none, Bool.false_eq_true, if_false,
      unknown] at h''
    have gone : (x.remove i.2.order.key).find? ⟨incoming.clientId, incoming.origClOrdId⟩ = none := by
      rw [Exchange.find?_none]
      intro o ho
      rw [← key]
      exact of_decide_eq_true (List.mem_filter.1 ho).2
    have free'' := h''.free.2 gone
    rw [index, found] at free''
    cases free''
  | newOrderSingle request => exact late.elim
  | cancelOrder incoming => exact late.elim
  | flush => exact late.elim

theorem unchanged_replaceOrder (h : Holds e items x) {incoming : ReplaceOrder}
    (refused : Refused alloc e (.replaceOrder incoming)) (early : ¬ReplacesUnknownSymbol e (.replaceOrder incoming)) :
    Unchanged alloc e (.replaceOrder incoming) := by
  obtain ⟨free, -⟩ | ⟨i, hi, key, found, live⟩ := h.find ⟨incoming.clientId, incoming.origClOrdId⟩
  · refine unchanged_of_handle (f := (·.emitCancelReject (replaceAsCancel incoming) .unknownOrder "unknown order")) ?_ ?_
    · simp only [handle, handleReplaceOrder, updateOut, free]
      rfl
    · intro event member
      rw [List.mem_singleton.1 member]
      rfl
  obtain ⟨free, absent⟩ | ⟨j, -, -, found', -⟩ := h.find ⟨incoming.clientId, incoming.clOrdId⟩
  · have known : incoming.symbol ∈ x.configured := by
      rw [← h.configured]
      refine Classical.byContradiction fun unknown => early ⟨by rw [found]; rfl, free, unknown⟩
    obtain ⟨e', events, r, sent, member⟩ := refused
    obtain ⟨e'', sent', -⟩ := send_holds alloc h (.replaceOrder incoming)
    rw [sent'] at sent
    cases sent
    have member := reject_of_numbered member
    simp only [Exchange.step, Exchange.replaceOrder, live, absent, Option.isSome_none, Bool.false_eq_true, if_false,
      known, if_true, List.mem_append] at member
    obtain member | member := member
    · exact absurd rfl (noReject_removalUpdate _ _ _ member r)
    · exact absurd rfl (noReject_accept _ _ _ member r)
  · refine unchanged_of_handle (f := (·.emitCancelReject (replaceAsCancel incoming) .duplicateOrder "duplicate cl_ord_id"))
      ?_ ?_
    · simp only [handle, handleReplaceOrder, updateOut, found, found', Option.isSome_some, if_true]
      rfl
    · intro event member
      rw [List.mem_singleton.1 member]
      rfl

end Refusals

/-- **Refusals.** In every state that requests lead to, a refused request
changes nothing exactly when it is not a replace to an unknown symbol whose
original is live and whose new key is free. -/
theorem refused_unchanged_iff (alloc : Pool.Allocator) (configuration : EngineConfig) (requests : List Request) :
    ∃ e trace, Engine.run alloc configuration requests = .ok (e, trace) ∧
      ∀ request, Refused alloc e request → (Unchanged alloc e request ↔ ¬ReplacesUnknownSymbol e request) := by
  obtain ⟨e, ran, ⟨items, h⟩, -⟩ := engine_run alloc configuration requests
  refine ⟨e, _, ran, fun request refused => ⟨fun same late => not_unchanged_of_unknownSymbol h late same, fun early => ?_⟩⟩
  cases request with
  | newOrderSingle request => exact unchanged_newOrderSingle h refused
  | replaceOrder incoming => exact unchanged_replaceOrder h refused early
  | cancelOrder incoming => exact unchanged_cancelOrder h refused
  | flush =>
    obtain ⟨e', events, r, sent, member⟩ := refused
    obtain ⟨e'', sent', -⟩ := send_holds alloc h .flush
    rw [sent'] at sent
    cases sent
    cases reject_of_numbered member

/-! ## The replace that loses its original -/

/-- Alice's order 1 replaced by an order for a symbol with no book. -/
def replaceToUnknownSymbol : ReplaceOrder := makeReplaceOrder alice 2 1 msft 11

theorem refusal_removes_original :
    ¬∀ (alloc : Pool.Allocator) (configuration : EngineConfig) (requests : List Request) (e : Engine) trace,
      Engine.run alloc configuration requests = .ok (e, trace) →
        ∀ request, Refused alloc e request → Unchanged alloc e request := by
  intro claim
  let requests : List Request := [.newOrderSingle (makeNewOrderSingle alice 1 .buy 10)]
  obtain ⟨e, ran, ⟨items, h⟩, -⟩ := engine_run .above defaultConfig requests
  have answer : (Engine.run .above defaultConfig requests).bind (fun out =>
      (send .above out.1 (.replaceOrder replaceToUnknownSymbol)).map Prod.snd) =
        .ok [.marketData (.mboBookUpdate (mboBookUpdate none .buy 1)),
          .orderEntry (.cancelReject (cancelReject ⟨alice, 2, 1⟩ .unknownSymbol "unknown symbol"))] := by
    decide
  have state : (Engine.run .above defaultConfig requests).map (fun out =>
      decide ((out.1.core.restingIndex ⟨alice, 1⟩).isSome = true ∧ out.1.core.restingIndex ⟨alice, 2⟩ = none ∧
        replaceToUnknownSymbol.symbol ∉ out.1.books.map Prod.fst)) = .ok true := by
    decide
  rw [ran] at answer state
  have facts := of_decide_eq_true (Except.ok.inj state)
  have late : ReplacesUnknownSymbol e (.replaceOrder replaceToUnknownSymbol) := facts
  refine not_unchanged_of_unknownSymbol h late (claim .above defaultConfig requests e _ ran _ ?_)
  cases sent : send .above e (.replaceOrder replaceToUnknownSymbol) with
  | error fault =>
    simp only [Except.bind, sent, Except.map] at answer
    cases answer
  | ok out =>
    simp only [Except.bind, sent, Except.map] at answer
    refine ⟨out.1, out.2, cancelReject ⟨alice, 2, 1⟩ .unknownSymbol "unknown symbol", sent, ?_⟩
    rw [Except.ok.inj answer]
    exact List.mem_cons_of_mem _ (List.mem_singleton_self _)

end DemoExchange.Properties
