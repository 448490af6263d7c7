import DemoExchange.Reference.Exchange

/-!
# What a step can do

`Outcome x request` lists what may come of a request: nothing but a reject, an
order leaves, an order is accepted, or one leaves and another is accepted or
refused. `step_outcome` says that this is all, so what every step keeps is
proved by these cases and not from the code of the step.
-/

namespace DemoExchange.Reference
set_option autoImplicit false
open OrderEntry MatchingEngine

/-- The exchange after a request, and its events. -/
inductive Outcome (x : Exchange) : Request → Exchange × List Emission → Prop where
  | refused (request : Request) (events : List Emission)
      (rejects : ∀ event ∈ events, ∃ cancel reason text, event = reject cancel reason text) :
      Outcome x request (x, events)
  | accepted (request : NewOrderSingle) (absent : x.find? ⟨request.clientId, request.clOrdId⟩ = none)
      (known : request.symbol ∈ x.configured) : Outcome x (.newOrderSingle request) (x.accept request)
  | cancelled (incoming : CancelOrder) (o : LiveOrder) (member : o ∈ x.live)
      (keyed : o.order.key = ⟨incoming.clientId, incoming.origClOrdId⟩) :
      Outcome x (.cancelOrder incoming) (x.remove o.order.key,
        report o.order .canceled .canceled (some incoming.origClOrdId) :: x.removalUpdate o)
  | replaced (incoming : ReplaceOrder) (o : LiveOrder) (member : o ∈ x.live)
      (keyed : o.order.key = ⟨incoming.clientId, incoming.origClOrdId⟩)
      (absent : (x.remove o.order.key).find? ⟨incoming.clientId, incoming.clOrdId⟩ = none)
      (known : incoming.symbol ∈ x.configured) :
      Outcome x (.replaceOrder incoming) (((x.remove o.order.key).accept (replacementOf incoming)).1,
        x.removalUpdate o ++ ((x.remove o.order.key).accept (replacementOf incoming)).2)
  /-- the original has left when the symbol is looked up -/
  | lost (incoming : ReplaceOrder) (o : LiveOrder) (member : o ∈ x.live)
      (keyed : o.order.key = ⟨incoming.clientId, incoming.origClOrdId⟩) (unknown : incoming.symbol ∉ x.configured)
      (free : x.find? ⟨incoming.clientId, incoming.clOrdId⟩ = none) :
      Outcome x (.replaceOrder incoming) (x.remove o.order.key,
        x.removalUpdate o ++ [reject (cancelOf incoming) .unknownSymbol "unknown symbol"])
  | flushed : Outcome x .flush ({ x with live := [] }, [])

section Finding

variable {x : Exchange}

theorem Exchange.find?_none {key : OrderKey} : x.find? key = none ↔ ∀ o ∈ x.live, o.order.key ≠ key := by
  rw [Exchange.find?, List.find?_eq_none]
  simp

theorem Exchange.find?_some {key : OrderKey} {o : LiveOrder} (found : x.find? key = some o) :
    o ∈ x.live ∧ o.order.key = key :=
  ⟨List.mem_of_find?_eq_some found, by simpa using List.find?_some found⟩

/-- A free key is free after an order has left. -/
theorem find_remove {key : OrderKey} (absent : x.find? key = none) (gone : OrderKey) : (x.remove gone).find? key = none :=
  List.find?_eq_none.2 fun o ho => List.find?_eq_none.1 absent o (List.mem_filter.1 ho).1

/-- **Every step has one of these outcomes.** -/
theorem step_outcome (x : Exchange) (request : Request) : Outcome x request (x.step request) := by
  have rejected : ∀ cancel reason text, ∀ event ∈ [reject cancel reason text],
      ∃ cancel reason text, event = reject cancel reason text :=
    fun _ _ _ _ member => ⟨_, _, _, List.mem_singleton.1 member⟩
  have silent : ∀ event ∈ ([] : List Emission), ∃ cancel reason text, event = reject cancel reason text :=
    fun _ member => absurd member List.not_mem_nil
  cases request with
  | newOrderSingle request =>
    simp only [Exchange.step, Exchange.newOrderSingle]
    split
    · exact .refused _ _ silent
    · rename_i absent
      split
      · rename_i known
        exact .accepted request (Option.not_isSome_iff_eq_none.1 absent) known
      · exact .refused _ _ silent
  | replaceOrder incoming =>
    simp only [Exchange.step, Exchange.replaceOrder]
    split
    · exact .refused _ _ (rejected _ _ _)
    · rename_i o found
      obtain ⟨member, keyed⟩ := Exchange.find?_some found
      split
      · exact .refused _ _ (rejected _ _ _)
      · rename_i absent
        split
        · rename_i known
          exact .replaced incoming o member keyed (find_remove (Option.not_isSome_iff_eq_none.1 absent) _) known
        · rename_i unknown
          exact .lost incoming o member keyed unknown (Option.not_isSome_iff_eq_none.1 absent)
  | cancelOrder incoming =>
    simp only [Exchange.step, Exchange.cancelOrder]
    split
    · exact .refused _ _ (rejected _ _ _)
    · rename_i o found
      obtain ⟨member, keyed⟩ := Exchange.find?_some found
      exact .cancelled incoming o member keyed
  | flush => exact .flushed

end Finding

/-! ## The events of a step -/

section Events

variable {x : Exchange} {request : NewOrderSingle} {event : Emission}

theorem mem_removalUpdate {o : LiveOrder} (member : event ∈ x.removalUpdate o) : ∃ message, event = .marketData message := by
  unfold Exchange.removalUpdate at member
  split at member
  · exact ⟨_, List.mem_singleton.1 member⟩
  · cases member

theorem mem_tradeReports {taker : OrderState} {fills : List Fill} (member : event ∈ tradeReports request taker fills) :
    (∃ message, event = .marketData message) ∨
      ∃ ordStatus lastQty lastPx, event = report taker .trade ordStatus none lastQty lastPx := by
  unfold tradeReports at member
  split at member
  · cases member
  · rcases List.mem_cons.1 member with rfl | member
    · exact .inl ⟨_, rfl⟩
    · exact .inr ⟨_, _, _, List.mem_singleton.1 member⟩

/-- A new order ends with book updates. -/
theorem mem_updates {live : List LiveOrder} {fills : List Fill} {taker : OrderState}
    (member : event ∈ (if fills = [] then [] else
        [bookUpdate live request.symbol (otherSide request.side) request.securityId]) ++
      if Exchange.Rests taker ∧ bestPriceOn live request.symbol request.side = some request.price then
        [bookUpdate live request.symbol request.side request.securityId] else []) :
    ∃ side, event = bookUpdate live request.symbol side request.securityId := by
  rcases List.mem_append.1 member with member | member
  · split at member
    · cases member
    · exact ⟨_, List.mem_singleton.1 member⟩
  · split at member
    · exact ⟨_, List.mem_singleton.1 member⟩
    · cases member

/-- **The events of a new order**: the report of its acceptance, its trades, the
reports of these and the updates of sides of its symbol. -/
theorem accept_events (member : event ∈ (x.accept request).2) :
    event = report (orderFor request) .newOrder .newOrder ∨
      (∃ f ∈ (sweep x.live (orderFor request)).fills, event = .trade f.call) ∨
      event ∈ tradeReports request (sweep x.live (orderFor request)).taker (sweep x.live (orderFor request)).fills ∨
      ∃ side, event = bookUpdate (x.accept request).1.live request.symbol side request.securityId := by
  simp only [Exchange.accept] at member ⊢
  rw [List.append_assoc, List.cons_append, List.cons_append, List.mem_cons, List.append_assoc, List.mem_append, List.mem_map] at member
  obtain rfl | ⟨f, hf, rfl⟩ | member := member
  · exact .inl rfl
  · exact .inr (.inl ⟨f, hf, rfl⟩)
  · rcases List.mem_append.1 member with member | member
    · exact .inr (.inr (.inl member))
    · exact .inr (.inr (.inr (mem_updates member)))

/-- A new order emits reports of itself, the trades of its sweep and market data. -/
theorem mem_accept (member : event ∈ (x.accept request).2) :
    (∃ order execType ordStatus lastQty lastPx, event = report order execType ordStatus none lastQty lastPx) ∨
      (∃ f ∈ (sweep x.live (orderFor request)).fills, event = .trade f.call) ∨ ∃ message, event = .marketData message := by
  obtain rfl | traded | member | ⟨side, rfl⟩ := accept_events member
  · exact .inl ⟨_, _, _, _, _, rfl⟩
  · exact .inr (.inl traded)
  · obtain data | ⟨ordStatus, lastQty, lastPx, rfl⟩ := mem_tradeReports member
    · exact .inr (.inr data)
    · exact .inl ⟨_, _, _, _, _, rfl⟩
  · exact .inr (.inr ⟨_, rfl⟩)

end Events

end DemoExchange.Reference
