import DemoExchange.Properties.Refusal
import DemoExchange.Refinement.Numbering
import DemoExchange.Reference.Standing

/-!
# Which orders the reports call live

The last report for a key says that its order is live when its status is not
terminal, unless the order was sent without a price, has been used up as a
maker since, or was replaced since: for none of these is a report made.
-/

namespace DemoExchange.Properties
set_option autoImplicit false
open OrderEntry MatchingEngine Reference Refinement

/-- A standing before its report was numbered. -/
def unnumberedStanding (s : Standing) : Standing := { s with report := { s.report with execId := 0 } }

theorem isReport_unnumbered (events : List Emission) : (events.map unnumbered).any isReport = events.any isReport := by
  rw [List.any_map]
  congr 1
  funext event
  cases event with
  | marketData message => rfl
  | trade call => rfl
  | orderEntry event => cases event <;> rfl

theorem hear_unnumbered (key : OrderKey) (request : Request) (heard : Option Standing) (event : Emission) :
    hear key request (heard.map unnumberedStanding) (unnumbered event) =
      (hear key request heard event).map unnumberedStanding := by
  cases event with
  | marketData message => rfl
  | trade call =>
    simp only [hear, unnumbered]
    split
    · cases heard <;> rfl
    · rfl
  | orderEntry event =>
    cases event with
    | executionReport r =>
      by_cases mine : reportKey r = key
      · have both : hear key request heard (.orderEntry (.executionReport r)) = some ⟨r, requestPrice request, 0, false⟩ :=
          if_pos mine
        rw [both]
        exact if_pos mine
      · have both : hear key request heard (.orderEntry (.executionReport r)) = heard := if_neg mine
        rw [both]
        exact if_neg mine
    | cancelReject r => rfl

theorem hearEvents_unnumbered (key : OrderKey) (request : Request) (heard : Option Standing) (events : List Emission) :
    (events.map unnumbered).foldl (hear key request) (heard.map unnumberedStanding) =
      (events.foldl (hear key request) heard).map unnumberedStanding := by
  induction events generalizing heard with
  | nil => rfl
  | cons event events ih => rw [List.map_cons, List.foldl_cons, hear_unnumbered, ih, List.foldl_cons]

/-- The standing of a key does not depend on the ids but for the id of its report. -/
theorem standing_unnumbered (key : OrderKey) (trace : List (Request × List Emission)) :
    standing key (trace.map (Prod.map id (List.map unnumbered))) = (standing key trace).map unnumberedStanding := by
  induction trace using List.reverseRecOn with
  | nil => rfl
  | append_singleton trace entry ih =>
    obtain ⟨request, events⟩ := entry
    simp only [standing, List.map_append, List.foldl_append, List.map_cons, List.map_nil, List.foldl_cons,
      List.foldl_nil, Prod.map, id] at ih ⊢
    rw [ih]
    have same : Replaces key request (events.map unnumbered) ↔ Replaces key request events := by
      cases request with
      | replaceOrder incoming =>
        show _ ∧ (events.map unnumbered).any isReport = true ↔ _ ∧ events.any isReport = true
        rw [isReport_unnumbered]
      | newOrderSingle request => exact Iff.rfl
      | cancelOrder incoming => exact Iff.rfl
      | flush => exact Iff.rfl
    by_cases replaces : Replaces key request events
    · rw [hearAll_of_replaces replaces, hearAll_of_replaces (same.2 replaces), ← hearEvents_unnumbered]
      congr 1
      cases trace.foldl (hearAll key) none <;> rfl
    · rw [hearAll_of_not replaces, hearAll_of_not fun both => replaces (same.1 both), ← hearEvents_unnumbered]

/-- No replace of the order under `key` takes it out and is then refused. -/
def NoneLost (alloc : Pool.Allocator) (configuration : EngineConfig) (requests : List Request) (key : OrderKey) : Prop :=
  ∀ before incoming, before ++ [.replaceOrder incoming] <+: requests →
    OrderKey.mk incoming.clientId incoming.origClOrdId = key →
      ∀ e trace, Engine.run alloc configuration before = .ok (e, trace) → ¬ReplacesUnknownSymbol e (.replaceOrder incoming)

/-- Such a replace is one that the exchange does not keep its order through. -/
theorem NoneLost.keeps {alloc : Pool.Allocator} {configuration : EngineConfig} {requests : List Request} {key : OrderKey}
    (none : NoneLost alloc configuration requests key) {before : List Request} {request : Request}
    (part : before ++ [request] <+: requests) : Keeps (run configuration before).1 key request := by
  rintro incoming rfl rfl live free
  obtain ⟨e, ran, -⟩ := engine_run alloc configuration before
  obtain ⟨items, h⟩ := reached ran
  by_contra unknown
  refine none before incoming part rfl e _ ran ⟨?_, h.free.2 free, ?_⟩
  · obtain ⟨-, absent⟩ | ⟨i, -, -, found, -⟩ := h.find ⟨incoming.clientId, incoming.origClOrdId⟩
    · rw [absent] at live
      cases live
    · rw [found]
      rfl
  · rw [h.configured]
    exact unknown

/-- **Reports.** After any requests without a flush, an order for whose key a
report was made is live exactly when the last report for the key is not
terminal, the request it answered had a price, no replace of the order was
accepted since, and it has traded less as a maker since than the report said
was left; what it has left then is the difference. -/
theorem reports_tell_live (alloc : Pool.Allocator) (configuration : EngineConfig) (requests : List Request)
    (audible : ∀ request ∈ requests, request ≠ .flush) :
    ∃ e trace, Engine.run alloc configuration requests = .ok (e, trace) ∧
      ∀ key, NoneLost alloc configuration requests key →
        ∀ s, standing key trace = some s → ((e.liveOrder key).isSome = true ↔ s.Live) ∧
          ∀ order, e.liveOrder key = some order →
            order.leavesQty.toNat + s.makerTraded = s.report.leavesQty.toNat := by
  obtain ⟨e, ran, ⟨items, h⟩, -⟩ := engine_run alloc configuration requests
  refine ⟨e, _, ran, fun key keeps s heard => ?_⟩
  have tells := run_tells configuration requests key audible fun _ _ => keeps.keeps
  rw [run_unnumbered, standing_unnumbered, heard] at tells
  obtain ⟨alive, left⟩ := tells
  rw [h.liveOrder]
  constructor
  · rw [show s.Live ↔ _ from alive, Option.isSome_map]
    constructor
    · intro found
      obtain ⟨o, found⟩ := Option.isSome_iff_exists.1 found
      exact ⟨o, Exchange.find?_some found⟩
    · rintro ⟨o, member, keyed⟩
      refine Option.isSome_iff_ne_none.2 fun absent => ?_
      exact Exchange.find?_none.1 absent o member keyed
  · intro order found
    obtain ⟨o, live, rfl⟩ := Option.map_eq_some_iff.1 found
    obtain ⟨member, keyed⟩ := Exchange.find?_some live
    exact left o member keyed

/-- A bid of which 40 of 100 have been taken. -/
def partlyTaken : List Request :=
  [.newOrderSingle (makeNewOrderSingle alice 1 .buy 10), .newOrderSingle (makeNewOrderSingle bob 101 .sell 10 40)]

theorem reports_tell_live_partlyTaken :
    ∃ e trace, Engine.run .above defaultConfig partlyTaken = .ok (e, trace) ∧
      ∃ s, standing ⟨alice, 1⟩ trace = some s ∧ s.report.ordStatus = .newOrder ∧ s.report.leavesQty = 100 ∧
        ∃ order, e.liveOrder ⟨alice, 1⟩ = some order ∧ order.leavesQty.toNat + 40 = 100 := by
  obtain ⟨e, trace, ran, law⟩ := reports_tell_live .above defaultConfig partlyTaken (by decide)
  have state : (Engine.run .above defaultConfig partlyTaken).map (fun out => (standing ⟨alice, 1⟩ out.2).map fun s =>
      (s.report.ordStatus, s.report.leavesQty, s.price, s.makerTraded, s.replaced)) =
      .ok (some (.newOrder, 100, 10, 40, false)) := by
    decide
  rw [ran] at state
  have heard : (standing ⟨alice, 1⟩ trace).map (fun s =>
      (s.report.ordStatus, s.report.leavesQty, s.price, s.makerTraded, s.replaced)) =
      some (.newOrder, 100, 10, 40, false) := Except.ok.inj state
  obtain ⟨s, last, same⟩ := Option.map_eq_some_iff.1 heard
  obtain ⟨status, left, price, maker, replaced⟩ : s.report.ordStatus = .newOrder ∧ s.report.leavesQty = 100 ∧
      s.price = 10 ∧ s.makerTraded = 40 ∧ s.replaced = false := by
    simpa using same
  have keeps : NoneLost .above defaultConfig partlyTaken ⟨alice, 1⟩ := by
    intro before incoming part
    have member := part.subset (List.mem_append_right _ (List.mem_singleton_self _))
    simp [partlyTaken] at member
  obtain ⟨alive, quantity⟩ := law ⟨alice, 1⟩ keeps s last
  have live : s.Live := by
    refine ⟨.inl status, ?_, replaced, ?_⟩
    · rw [price]
      decide
    · rw [maker, left]
      decide
  obtain ⟨order, found⟩ := Option.isSome_iff_exists.1 (alive.2 live)
  have rest := quantity order found
  rw [maker, left] at rest
  exact ⟨e, trace, ran, s, last, status, left, order, found, rest⟩

/-- The other side takes the whole bid: its sender was last told that it is new. -/
theorem used_up_maker_not_reported :
    ¬∀ (alloc : Pool.Allocator) (configuration : EngineConfig) (requests : List Request),
      (∀ request ∈ requests, request ≠ .flush) → ∀ e trace, Engine.run alloc configuration requests = .ok (e, trace) →
        ∀ key s, standing key trace = some s →
          ((e.liveOrder key).isSome = true ↔ NonTerminal s.report.ordStatus) ∧
            ∀ order, e.liveOrder key = some order → s.report.leavesQty = order.leavesQty := by
  intro claim
  let requests : List Request :=
    [.newOrderSingle (makeNewOrderSingle alice 1 .buy 10), .newOrderSingle (makeNewOrderSingle bob 101 .sell 10)]
  obtain ⟨e, ran, -⟩ := engine_run .above defaultConfig requests
  have state : (Engine.run .above defaultConfig requests).map (fun out =>
      ((standing ⟨alice, 1⟩ out.2).map (·.report.ordStatus), (out.1.liveOrder ⟨alice, 1⟩).isSome)) =
      .ok (some .newOrder, false) := by
    decide
  rw [ran] at state
  obtain ⟨heard, dead⟩ := Prod.mk.inj (Except.ok.inj state)
  obtain ⟨s, last, status⟩ := Option.map_eq_some_iff.1 heard
  have alive := (claim .above defaultConfig requests (by decide) e _ ran ⟨alice, 1⟩ s last).1.2 (.inl status)
  rw [dead] at alive
  cases alive

end DemoExchange.Properties
