import DemoExchange.Properties.Replace
import DemoExchange.Reference.Restart

/-!
# A flush starts over

After a flush the engine holds nothing, and whatever is sent then is answered
as a new engine would answer it, but for where the ids start.
-/

namespace DemoExchange.Properties
set_option autoImplicit false
open OrderEntry MatchingEngine Reference Refinement

/-- No order rests, is indexed or has a node. -/
structure Emptied (configuration : EngineConfig) (e : Engine) : Prop where
  opened : ∀ symbol, symbol ∈ e.books.map Prod.fst ↔ symbol ∈ configuration.validSymbols
  books : ∀ entry ∈ e.books, entry.2 = ⟨[], []⟩
  index : ∀ key, e.core.restingIndex key = none
  slots : ∀ node, e.heap node = none
  pool : Pool.liveSlots e.core.nodePool = []

/-- An engine that holds no order is empty. -/
theorem emptied_of_holds {configuration : EngineConfig} {e : Engine} {items : List Item} {x : Exchange} (h : Holds e items x)
    (configured : x.configured = configuration.validSymbols) (none : x.live = []) : Emptied configuration e := by
  obtain rfl : items = [] := List.map_eq_nil_iff.1 (h.live.trans none)
  refine ⟨?_, ?_, ?_, ?_, h.tracks.pool⟩
  · rw [← configured]
    exact h.configured
  · intro entry member
    obtain ⟨symbol, bids, asks⟩ := entry
    have empty : ∀ side, (OrderBook.mk bids asks).sideMap side = [] := by
      intro side
      obtain ⟨g, buckets, same⟩ := h.renders symbol ⟨bids, asks⟩ member side
      have covered : g = [] := by
        refine List.eq_nil_iff_forall_not_mem.2 fun y hy => buckets.nonempty y hy ?_
        rw [buckets.bucket y hy]
        rfl
      rw [same, covered]
      rfl
    exact congrArg₂ OrderBook.mk (empty .buy) (empty .sell)
  · exact fun key => h.tracks.index_none.2 fun i hi => absurd hi List.not_mem_nil
  · intro node
    cases found : e.heap node with
    | none => rfl
    | some n =>
      obtain ⟨i, hi, -⟩ := (h.tracks.slots node n).1 found
      cases hi

/-- Arrival numbers do not show in the orders of a symbol. -/
theorem orders_later (k : Nat) (x : Exchange) {symbol : Symbol} :
    ordersOf (x.later k).live symbol = ordersOf x.live symbol := by
  rw [ordersOf, live_later, List.map_map]
  rfl

/-- A machine that is later and whose ids are further on. -/
def further (k : Nat) (execs : ExecId) (trades : MarketData.TradeId) (s : Exchange × Outbox) : Exchange × Outbox :=
  (s.1.later k, movedOn execs trades s.2)

/-- **A run from further on** answers the same, with ids that are further on. -/
theorem drive_further (k : Nat) (execs : ExecId) (trades : MarketData.TradeId) (s : Exchange × Outbox) (requests : List Request) :
    Run.drive numberedStep (further k execs trades s) requests =
      (further k execs trades (Run.drive numberedStep s requests).1,
        (Run.drive numberedStep s requests).2.map (Prod.map id (List.map (renumber execs trades)))) := by
  refine Run.drive_map (g := further k execs trades) (fun s request => ?_) s requests
  have sent := @emitAll_movedOn execs trades (s.1.step request).2 (cleared s.2)
  have start : cleared (movedOn execs trades s.2) = movedOn execs trades (cleared s.2) := rfl
  rw [← start] at sent
  simp only [numberedStep, further, step_later]
  exact Prod.ext (Prod.ext rfl sent) (congrArg Outbox.events sent)

/-- An outbox that has just sent nothing is a new one, further on. -/
theorem new_further (out : Outbox) : cleared out = movedOn (out.nextExecId - 1) (out.nextTradeId - 1) {} := by
  simp only [cleared, movedOn, add_sub_cancel]
  rfl

/-- **Flush.** In every state that requests lead to, a flush is handled, says
nothing and empties the engine; and all that is sent afterwards is answered as
a new engine with the same configuration answers it, and leads to the same
books and index, but that every `exec_id` and every `trade_id` is moved on by
one constant. -/
theorem flush_starts_over (alloc alloc' : Pool.Allocator) (configuration : EngineConfig) (requests : List Request)
    {e : Engine} {trace : List (Request × List Emission)} (ran : Engine.run alloc configuration requests = .ok (e, trace)) :
    ∃ e', Engine.send alloc e .flush = .ok (e', []) ∧ Emptied configuration e' ∧
      ∃ execs trades, ∀ later, ∃ e₁ e₂ answers,
        Run.run (Engine.send alloc) e' later = .ok (e₁, answers.map (Prod.map id (List.map (renumber execs trades)))) ∧
        Engine.run alloc' configuration later = .ok (e₂, answers) ∧
        (∀ symbol, (e₁.books.lookup symbol).map e₁.levels = (e₂.books.lookup symbol).map e₂.levels) ∧
        ∀ key, e₁.liveOrder key = e₂.liveOrder key := by
  obtain ⟨items, h⟩ := reached ran
  have configured := run_configured configuration requests
  obtain ⟨e', flushed, ⟨items', h'⟩, out⟩ := send_numbered alloc ⟨items, h⟩ .flush
  have emptied := @emptied_of_holds configuration _ _ _ h' configured rfl
  rw [flush_later] at h'
  have start : Behind e' (further (run configuration requests).1.nextArrival (e.core.out.nextExecId - 1)
      (e.core.out.nextTradeId - 1) (Exchange.init configuration, {})) := ⟨⟨items', h'⟩, out.trans (new_further e.core.out)⟩
  refine ⟨e', flushed, emptied, e.core.out.nextExecId - 1, e.core.out.nextTradeId - 1, fun later => ?_⟩
  obtain ⟨e₁, ran₁, ⟨items₁, h₁⟩, -⟩ := Run.run_refines (send_refines alloc) later e' _ start
  obtain ⟨e₂, ran₂, ⟨items₂, h₂⟩, -⟩ := engine_run alloc' configuration later
  rw [drive_further] at ran₁ h₁
  refine ⟨e₁, e₂, _, ran₁, ran₂, fun symbol => lookup_same h₁ h₂ rfl (orders_later _ _), fun key => ?_⟩
  rw [h₁.liveOrder, h₂.liveOrder]
  show ((Exchange.later _ _).find? key).map _ = _
  rw [find_later, Option.map_map]
  rfl

/-- Two bids rest when the engine is flushed, and then one of them is sent again. -/
theorem flush_starts_over_twoBids :
    ∃ e trace e' execs trades e₁ e₂ answers, Engine.run .above defaultConfig twoBids = .ok (e, trace) ∧
      Engine.send .above e .flush = .ok (e', []) ∧ Emptied defaultConfig e' ∧
      Run.run (Engine.send .above) e' [.newOrderSingle (makeNewOrderSingle alice 1 .buy 10)] =
        .ok (e₁, answers.map (Prod.map id (List.map (renumber execs trades)))) ∧
      Engine.run .above defaultConfig [.newOrderSingle (makeNewOrderSingle alice 1 .buy 10)] = .ok (e₂, answers) := by
  obtain ⟨e, ran, -⟩ := engine_run .above defaultConfig twoBids
  obtain ⟨e', flushed, emptied, execs, trades, after⟩ := flush_starts_over .above .above defaultConfig twoBids ran
  obtain ⟨e₁, e₂, answers, ran₁, ran₂, -⟩ := after [.newOrderSingle (makeNewOrderSingle alice 1 .buy 10)]
  exact ⟨e, _, e', execs, trades, e₁, e₂, answers, ran, flushed, emptied, ran₁, ran₂⟩

end DemoExchange.Properties
