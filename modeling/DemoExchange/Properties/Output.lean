import DemoExchange.Properties.Conservation
import DemoExchange.Reference.Output

/-!
# The engine's output: how much, and how it is numbered

Over any run the engine trades no more often than it accepted orders, and its
callbacks are linear in the number of requests. Reports and trades are numbered
from 1 without a gap, whatever comes between them.
-/

namespace DemoExchange.Properties
set_option autoImplicit false
open OrderEntry MatchingEngine Reference Refinement Pool

section Counting

theorem isTrade_unnumbered (event : Emission) : isTrade (unnumbered event) = isTrade event := by
  cases event with
  | marketData message => rfl
  | trade call => rfl
  | orderEntry event => cases event <;> rfl

theorem isAccepted_unnumbered (event : Emission) : isAccepted (unnumbered event) = isAccepted event := by
  cases event with
  | marketData message => rfl
  | trade call => rfl
  | orderEntry event => cases event <;> rfl

theorem tradeCount_unnumbered (log : List Emission) : tradeCount (log.map unnumbered) = tradeCount log := by
  rw [tradeCount, List.countP_map]
  exact List.countP_congr fun event _ => by rw [Function.comp, isTrade_unnumbered]

theorem acceptedCount_unnumbered (log : List Emission) : acceptedCount (log.map unnumbered) = acceptedCount log := by
  rw [acceptedCount, List.countP_map]
  exact List.countP_congr fun event _ => by rw [Function.comp, isAccepted_unnumbered]

/-- As many nodes are linked as orders are live. -/
theorem linkedNodes_length {e : Engine} {items : List Item} {x : Exchange} (h : Holds e items x) :
    e.linkedNodes.length = x.live.length := by
  have same : e.linkedNodes.Perm (items.map Prod.fst) :=
    (List.perm_ext_iff_of_nodup h.linkedNodes_nodup h.tracks.nodup).2 fun a => by rw [h.mem_linkedNodes, List.mem_map]
  rw [same.length_eq, List.length_map, ← h.live, List.length_map]

/-- **Trades are paid for by accepted orders.** After any requests, the trades
so far and the orders that rest are no more than the orders accepted, which are
no more than the requests; the other callbacks are at most six a request. -/
theorem output_linear (alloc : Allocator) (configuration : EngineConfig) (requests : List Request) :
    ∃ e trace, Engine.run alloc configuration requests = .ok (e, trace) ∧
      tradeCount (logOf trace) + e.linkedNodes.length ≤ acceptedCount (logOf trace) ∧
      acceptedCount (logOf trace) ≤ requests.length ∧
      (logOf trace).length ≤ tradeCount (logOf trace) + 6 * requests.length := by
  obtain ⟨e, ran, ⟨items, h⟩, -⟩ := engine_run alloc configuration requests
  obtain ⟨trades, accepted, others⟩ := run_paid configuration requests
  have inputs : (run configuration requests).2.length = requests.length := by
    rw [← List.length_map Prod.fst, run, Run.drive_inputs]
  rw [← logOf_unnumbered, tradeCount_unnumbered, acceptedCount_unnumbered] at trades
  rw [← logOf_unnumbered, acceptedCount_unnumbered, inputs] at accepted
  rw [← logOf_unnumbered, tradeCount_unnumbered, List.length_map, inputs] at others
  have live : e.linkedNodes.length = (run configuration requests).1.live.length := by
    rw [linkedNodes_length h, run_unnumbered]
  exact ⟨e, _, ran, by rw [live]; exact trades, accepted, others⟩

end Counting

section Numbering

def execId? : Emission → Option ExecId
  | .orderEntry (.executionReport r) => some r.execId
  | _ => none

def tradeId? : Emission → Option MarketData.TradeId
  | .trade call => some call.event.tradeId
  | _ => none

/-- The ids are 1, 2, 3 and so on, and the next comes after them. -/
structure Consecutive (ids : List UInt64) (next : UInt64) : Prop where
  counted : ids = (List.range ids.length).map fun i => UInt64.ofNat (i + 1)
  next : next = UInt64.ofNat (ids.length + 1)

theorem Consecutive.snoc {ids : List UInt64} {next : UInt64} (consecutive : Consecutive ids next) :
    Consecutive (ids ++ [next]) (next + 1) := by
  obtain ⟨counted, last⟩ := consecutive
  refine ⟨?_, ?_⟩
  · rw [List.length_append, List.length_singleton, List.range_succ, List.map_append, List.map_singleton, ← counted, ← last]
  · rw [List.length_append, List.length_singleton, last, UInt64.ofNat_add (ids.length + 1) 1]
    rfl

/-- Ids that do not wrap are all different. -/
theorem Consecutive.nodup {ids : List UInt64} {next : UInt64} (consecutive : Consecutive ids next) (few : ids.length < UInt64.size) :
    ids.Nodup := by
  rw [consecutive.counted]
  refine List.Nodup.map_on (fun i hi j hj same => ?_) List.nodup_range
  rw [List.mem_range] at hi hj
  have words := congrArg UInt64.toNat same
  rw [UInt64.toNat_ofNat', UInt64.toNat_ofNat'] at words
  have size : UInt64.size = 2 ^ 64 := rfl
  omega

/-- The reports and the trades of a log, with the counters behind it. -/
structure Numbered (log : List Emission) (out : Outbox) : Prop where
  execs : Consecutive (log.filterMap execId?) out.nextExecId
  trades : Consecutive (log.filterMap tradeId?) out.nextTradeId

theorem Numbered.emit {before : List Emission} {out : Outbox} (numbered : Numbered (before ++ out.events) out) (event : Emission) :
    Numbered (before ++ (Reference.emit out event).events) (Reference.emit out event) := by
  obtain ⟨execs, trades⟩ := numbered
  cases event with
  | marketData message =>
    simp only [Reference.emit, ← List.append_assoc]
    refine ⟨?_, ?_⟩
    · simpa [List.filterMap_cons, execId?] using execs
    · simpa [List.filterMap_cons, tradeId?] using trades
  | trade call =>
    simp only [Reference.emit, ← List.append_assoc]
    refine ⟨?_, ?_⟩
    · simpa [List.filterMap_cons, execId?] using execs
    · simpa [tradeId?] using trades.snoc
  | orderEntry event =>
    cases event with
    | executionReport r =>
      simp only [Reference.emit, ← List.append_assoc]
      refine ⟨?_, ?_⟩
      · simpa [execId?] using execs.snoc
      · simpa [List.filterMap_cons, tradeId?] using trades
    | cancelReject r =>
      simp only [Reference.emit, ← List.append_assoc]
      refine ⟨?_, ?_⟩
      · simpa [List.filterMap_cons, execId?] using execs
      · simpa [List.filterMap_cons, tradeId?] using trades

theorem Numbered.emitAll {before : List Emission} (events : List Emission) : ∀ {out : Outbox}, Numbered (before ++ out.events) out →
    Numbered (before ++ (Reference.emitAll out events).events) (Reference.emitAll out events) := by
  induction events with
  | nil => exact fun numbered => numbered
  | cons event events ih =>
    intro out numbered
    rw [emitAll_cons]
    exact ih (numbered.emit event)

/-- One request: its events are numbered behind the log. -/
theorem Numbered.step {x : Exchange} {out : Outbox} {trace : List (Request × List Emission)} (numbered : Numbered (logOf trace) out)
    (request : Request) :
    Numbered (logOf (trace ++ [(request, (numberedStep (x, out) request).2)])) (numberedStep (x, out) request).1.2 := by
  rw [logOf_snoc]
  refine Numbered.emitAll _ ?_
  rw [List.append_nil]
  exact ⟨numbered.execs, numbered.trades⟩

theorem numbered_run (configuration : EngineConfig) (requests : List Request) :
    Numbered (logOf (numberedRun configuration requests).2) (numberedRun configuration requests).1.2 :=
  Run.drive_rule (P := fun (s : Exchange × Outbox) trace => Numbered (logOf trace) s.2) (Q := fun _ => True)
    ⟨⟨rfl, rfl⟩, ⟨rfl, rfl⟩⟩ (fun _ _ request numbered _ => numbered.step request) requests fun _ _ => trivial

/-- **Ids without gaps.** Over any run the reports carry the ids 1, 2, 3 and so
on in the order of the callbacks, and so do the trades, across requests that
are refused and across flushes; while fewer than 2^64 were given, no id repeats. -/
theorem ids_consecutive (alloc : Allocator) (configuration : EngineConfig) (requests : List Request) :
    ∃ e trace, Engine.run alloc configuration requests = .ok (e, trace) ∧
      Consecutive ((logOf trace).filterMap execId?) e.core.out.nextExecId ∧
      Consecutive ((logOf trace).filterMap tradeId?) e.core.out.nextTradeId ∧
      ((logOf trace).length < UInt64.size →
        ((logOf trace).filterMap execId?).Nodup ∧ ((logOf trace).filterMap tradeId?).Nodup) := by
  obtain ⟨e, ran, -, same⟩ := engine_run alloc configuration requests
  obtain ⟨execs, trades⟩ := numbered_run configuration requests
  refine ⟨e, _, ran, same ▸ execs, same ▸ trades, fun few => ?_⟩
  exact ⟨execs.nodup ((List.length_filterMap_le _ _).trans_lt few), trades.nodup ((List.length_filterMap_le _ _).trans_lt few)⟩

end Numbering

end DemoExchange.Properties
