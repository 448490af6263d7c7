import DemoExchange.Refinement.Queues

/-!
# What numbering keeps

An outbox further on numbers the same events with ids that are further on by
as much, modulo the word size. Market data other than trades carries no id, so
it is what it was before it was numbered; trades and reports are, but for
their ids.
-/

namespace DemoExchange.Refinement
set_option autoImplicit false
open OrderEntry MatchingEngine Reference

/-- An event with its ids moved on. -/
def renumber (execs : ExecId) (trades : MarketData.TradeId) : Emission → Emission
  | .trade call => .trade { call with event := { call.event with tradeId := call.event.tradeId + trades } }
  | .orderEntry (.executionReport r) => .orderEntry (.executionReport { r with execId := r.execId + execs })
  | event => event

/-- An outbox with its counters and the ids of its events moved on. -/
def movedOn (execs : ExecId) (trades : MarketData.TradeId) (out : Outbox) : Outbox where
  nextExecId := out.nextExecId + execs
  nextTradeId := out.nextTradeId + trades
  events := out.events.map (renumber execs trades)

section Renumbering

variable {execs : ExecId} {trades : MarketData.TradeId}

theorem emit_movedOn (out : Outbox) (event : Emission) :
    emit (movedOn execs trades out) event = movedOn execs trades (emit out event) := by
  cases event with
  | marketData message => simp [emit, movedOn, renumber]
  | trade call => simp [emit, movedOn, renumber, add_right_comm]
  | orderEntry event =>
    cases event with
    | executionReport r => simp [emit, movedOn, renumber, add_right_comm]
    | cancelReject r => simp [emit, movedOn, renumber]

/-- **An outbox further on** gives ids that are further on by as much. -/
theorem emitAll_movedOn (events : List Emission) : ∀ out : Outbox,
    emitAll (movedOn execs trades out) events = movedOn execs trades (emitAll out events) := by
  induction events with
  | nil => exact fun _ => rfl
  | cons event events ih =>
    intro out
    rw [emitAll_cons, emitAll_cons, emit_movedOn, ih]

/-- An outbox before anything was sent. -/
def cleared (out : Outbox) : Outbox := { out with events := [] }

/-- What was sent before stays in front. -/
theorem emitAll_events (events : List Emission) : ∀ out : Outbox,
    (emitAll out events).events = out.events ++ (emitAll (cleared out) events).events ∧
      cleared (emitAll out events) = cleared (emitAll (cleared out) events) := by
  induction events with
  | nil => exact fun out => ⟨(List.append_nil _).symm, rfl⟩
  | cons event events ih =>
    intro out
    have one : (emit out event).events = out.events ++ (emit (cleared out) event).events ∧
        cleared (emit out event) = cleared (emit (cleared out) event) := by
      cases event with
      | marketData message => exact ⟨rfl, rfl⟩
      | trade call => exact ⟨rfl, rfl⟩
      | orderEntry event => cases event <;> exact ⟨rfl, rfl⟩
    obtain ⟨sent, left⟩ := ih (emit out event)
    obtain ⟨sent', left'⟩ := ih (emit (cleared out) event)
    rw [emitAll_cons, emitAll_cons, sent, sent', left, left', one.1, one.2, List.append_assoc]
    exact ⟨rfl, rfl⟩

end Renumbering

section Unnumbering

variable {numbered events : List Emission}

/-- Market data other than trades is not numbered. -/
theorem eq_of_unnumbered (data : ∀ event ∈ events, ∃ message, event = .marketData message)
    (same : numbered.map unnumbered = events) : numbered = events := by
  rw [← same, eq_comm]
  conv_rhs => rw [← List.map_id numbered]
  refine List.map_congr_left fun event member => ?_
  obtain ⟨message, is⟩ := data (unnumbered event) (same ▸ List.mem_map_of_mem member)
  cases event with
  | marketData message => rfl
  | trade call => cases is
  | orderEntry event => cases event <;> cases is

/-- Without the ids, what a step sends is what the step says. -/
theorem sent_unnumbered (x : Exchange) (request : Request) (out : Outbox) :
    (emitAll (cleared out) (x.step request).2).events.map unnumbered = (x.step request).2 := by
  rw [emitAll_unnumbered, step_unnumbered]
  rfl

theorem report_of_unnumbered {event : Emission} {r : ExecutionReport}
    (same : unnumbered event = .orderEntry (.executionReport r)) :
    ∃ r', event = .orderEntry (.executionReport r') ∧ { r' with execId := 0 } = r := by
  cases event with
  | marketData message => cases same
  | trade call => cases same
  | orderEntry event =>
    cases event with
    | executionReport r' =>
      cases same
      exact ⟨r', rfl, rfl⟩
    | cancelReject r' => cases same

/-- A trade before it was numbered. -/
def unnumberedCall (call : TradeCall) : TradeCall := { call with event := { call.event with tradeId := 0 } }

theorem trades_of_unnumbered {calls : List TradeCall} : ∀ {numbered : List Emission},
    numbered.map unnumbered = calls.map Emission.trade →
      ∃ calls' : List TradeCall, numbered = calls'.map Emission.trade ∧ calls'.map unnumberedCall = calls := by
  induction calls with
  | nil =>
    intro numbered same
    exact ⟨[], List.map_eq_nil_iff.1 same, rfl⟩
  | cons call calls ih =>
    intro numbered same
    obtain ⟨event, rest, rfl, first, others⟩ := List.map_eq_cons_iff.1 same
    obtain ⟨calls', rfl, matched⟩ := ih others
    cases event with
    | marketData message => cases first
    | trade call' =>
      cases first
      exact ⟨call' :: calls', rfl, by rw [List.map_cons, matched]; rfl⟩
    | orderEntry event => cases event <;> cases first

end Unnumbering

/-! ## From a run of the engine -/

section Reaching

variable {alloc : Pool.Allocator} {configuration : EngineConfig} {requests : List Request} {e : Engine}
  {trace : List (Request × List Emission)}

/-- The engine after a run is the exchange after it. -/
theorem reached (ran : Engine.run alloc configuration requests = .ok (e, trace)) :
    Represents e (run configuration requests).1 := by
  obtain ⟨e', ran', represents, -⟩ := engine_run alloc configuration requests
  rw [ran'] at ran
  cases ran
  rw [run_unnumbered]
  exact represents

/-- One more request: the events of the step, numbered. -/
theorem send_numbered {x : Exchange} (alloc : Pool.Allocator) (h : Represents e x) (request : Request) :
    ∃ e', Engine.send alloc e request = .ok (e', (emitAll (cleared e.core.out) (x.step request).2).events) ∧
      Represents e' (x.step request).1 ∧ e'.core.out = emitAll (cleared e.core.out) (x.step request).2 :=
  send_refines alloc e (x, e.core.out) request ⟨h, rfl⟩

end Reaching

end DemoExchange.Refinement
