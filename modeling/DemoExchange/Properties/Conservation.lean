import DemoExchange.Reference.Ledger
import DemoExchange.Refinement.Queues

/-!
# Quantity is conserved over the life of an order

The accounts of the exchange, read off the numbered events of the engine.
-/

namespace DemoExchange.Properties
set_option autoImplicit false
open OrderEntry MatchingEngine Reference Refinement Log

/-- The events of a run without their numbers are the events of the exchange. -/
theorem logOf_unnumbered (configuration : EngineConfig) (requests : List Request) :
    (logOf (numberedRun configuration requests).2).map unnumbered = logOf (run configuration requests).2 := by
  rw [run_unnumbered, logOf, logOf, List.map_flatMap, List.flatMap_map]
  rfl

theorem account_unnumbered (key : OrderKey) (total : Nat) (event : Emission) :
    account key total (unnumbered event) = account key total event := by
  cases event with
  | marketData message => rfl
  | trade call => rfl
  | orderEntry event => cases event <;> rfl

/-- Accounts do not depend on the ids. -/
theorem traded_unnumbered (key : OrderKey) (log : List Emission) : traded key (log.map unnumbered) = traded key log := by
  induction log using List.reverseRecOn with
  | nil => rfl
  | append_singleton log event ih =>
    rw [List.map_append, List.map_singleton, traded_snoc, traded_snoc, account_unnumbered, ih]

theorem accurate_unnumbered {before : List Emission} {event : Emission}
    (h : Accurate (before.map unnumbered) (unnumbered event)) : Accurate before event := by
  cases event with
  | marketData message => trivial
  | trade call =>
    intro party member
    obtain ⟨settled, bound⟩ := h party member
    rw [Settled, traded_unnumbered] at settled
    exact ⟨settled, bound⟩
  | orderEntry event =>
    cases event with
    | executionReport r =>
      obtain ⟨cum, whole⟩ := h
      rw [show before.map unnumbered ++ [_] = (before ++ [Emission.orderEntry (.executionReport r)]).map unnumbered by
        rw [List.map_append]; rfl, traded_unnumbered] at cum
      exact ⟨cum, whole⟩
    | cancelReject r => trivial

/-- **Conservation.** After any requests, what a live order has left and what
its trades since its acceptance add up to are its quantity; every report gave
the quantity traded and left at that moment, and no trade took more from a
party than it had left. -/
theorem quantity_conserved (alloc : Pool.Allocator) (configuration : EngineConfig) (requests : List Request) :
    ∃ e trace, Engine.run alloc configuration requests = .ok (e, trace) ∧
      (∀ key order, e.liveOrder key = some order →
        order.leavesQty.toNat + traded key (logOf trace) = order.orderQty.toNat) ∧
      Each Accurate (logOf trace) := by
  obtain ⟨e, ran, ⟨items, h⟩, -⟩ := engine_run alloc configuration requests
  have ledger := run_ledger configuration requests
  rw [← logOf_unnumbered] at ledger
  refine ⟨e, _, ran, fun key order found => ?_, ledger.accurate.of_map fun before event => accurate_unnumbered⟩
  rw [h.liveOrder] at found
  obtain ⟨o, live, rfl⟩ := Option.map_eq_some_iff.1 found
  obtain ⟨member, rfl⟩ := Exchange.find?_some live
  have settled := ledger.live o (by rw [run_unnumbered]; exact member)
  rw [Settled, traded_unnumbered] at settled
  exact settled

end DemoExchange.Properties
