import DemoExchange.Properties.Process
import DemoExchange.Refinement.Responses

/-!
# What the process comes to

In an endless interleaving that is fair to the threads `application::stop`
returns, and the records of each datagram that was handed over are printed. If
it is fair to the kernel too, a datagram that arrived is handed over, unless the
receiver is stopped or fails.
-/

namespace DemoExchange.Properties
set_option autoImplicit false
open Text Lab OrderEntry MatchingEngine Reference Server Refinement Interleaving Stages

section Liveness

variable {lib : Nlohmann} {decoder : Decoder} {alloc : Pool.Allocator} {configuration : Config}
  {trace : Trace (Process.step lib decoder alloc)}

/-- What holds of a trace of the process at any time. -/
structure Upheld (lib : Nlohmann) (decoder : Decoder) (alloc : Pool.Allocator) (configuration : Config) (process : Process) : Prop where
  chained : Chained lib decoder process
  attended : Attended process
  live : Live alloc configuration process.application

theorem upheld_trace (starts : trace.state 0 = .start alloc configuration) (i : Nat) :
    Upheld lib decoder alloc configuration (trace.state i) := by
  obtain ⟨actions, ran⟩ := starts ▸ trace.reaches (Nat.zero_le i)
  obtain ⟨chained, actions', ran'⟩ := chained_run ran
  exact ⟨chained, attended_run ran, live_run ran'⟩

/-- The messages of the requests that were received are published. -/
theorem received_published (starts : trace.state 0 = .start alloc configuration)
    (processing : trace.Fair (Process.Due .processing)) (output : trace.Fair (Process.Due .output)) (i : Nat) : ∃ j, i ≤ j ∧
      marketDataOf configuration.matchingEngine (trace.state i).application.received <+: (trace.state j).application.published := by
  have live := fun k => (upheld_trace starts k).live
  obtain ⟨j, later, answered⟩ :=
    (answers_progress lib decoder (trace.state i).application.received).leads (fun _ _ => processing) ⟨live i, List.prefix_rfl⟩
  have said : marketDataOf configuration.matchingEngine (trace.state i).application.received <+: raised (trace.state j).application := by
    rw [raised, ← answers_numbered (live j)]
    exact causal_marketDataOf _ _ _ answered
  obtain ⟨k, later', posted⟩ := (posted_progress lib decoder _).leads (fun _ _ => processing) ⟨live j, said⟩
  obtain ⟨l, later'', published⟩ :=
    (published_progress lib decoder _).leads (fun _ _ => output) ⟨live k, posted⟩
  exact ⟨l, later.trans (later'.trans later''), published⟩

/-- What is published is printed at once. -/
theorem published_printed {earlier later : Process} (before : Upheld lib decoder alloc configuration earlier)
    (after : Upheld lib decoder alloc configuration later)
    (published : marketDataOf configuration.matchingEngine earlier.application.received <+: later.application.published) :
    serve lib decoder configuration.matchingEngine earlier.delivered <+: later.stdout := by
  rw [after.chained.stdout, serve, ← before.chained.received]
  exact causal_recordsOf lib _ _ published

/-- **What was delivered is printed**, also while `stop` is under way. -/
theorem delivered_is_printed (starts : trace.state 0 = .start alloc configuration)
    (processing : trace.Fair (Process.Due .processing)) (output : trace.Fair (Process.Due .output)) (i : Nat) :
    ∃ j, i ≤ j ∧ serve lib decoder configuration.matchingEngine (trace.state i).delivered <+: (trace.state j).stdout := by
  obtain ⟨j, later, published⟩ := received_published starts processing output i
  exact ⟨j, later, published_printed (upheld_trace starts i) (upheld_trace starts j) published⟩

end Liveness

section Witness

/-- Nothing happens after the run of four datagrams, and that is fair. -/
theorem fourDatagrams_trace : ∃ trace : Trace (Process.step compact scripted .above),
    trace.state 0 = .start .above mixedConfig ∧ (∀ party, trace.Fair (Process.Due party)) ∧
      ∃ i, (trace.state i).application.controller ≠ .started := by
  obtain ⟨last, ran, seen⟩ := Option.map_eq_some_iff.1 fourDatagrams_run
  have returned := (Prod.mk.inj seen).1
  have started : (Trace.ending ran).state 0 = .start .above mixedConfig := rfl
  have done : (Trace.ending ran).state fourDatagrams.length = last := Trace.ending_last ran le_rfl
  have upheld := done ▸ upheld_trace started fourDatagrams.length
  have begun : last.application.controller ≠ .started := by rw [returned]; decide
  refine ⟨.ending ran, started, fun party => Trace.ending_fair ran ?_, _, by rwa [done]⟩
  exact quiet_of_returned ⟨upheld.live, upheld.attended, begun⟩ returned party

theorem delivered_is_printed_fourDatagrams : ∃ trace : Trace (Process.step compact scripted .above),
    ∀ i, ∃ j, i ≤ j ∧ serve compact scripted defaultConfig (trace.state i).delivered <+: (trace.state j).stdout := by
  obtain ⟨trace, starts, fair, -⟩ := fourDatagrams_trace
  exact ⟨trace, delivered_is_printed starts (fair _) (fair _)⟩

end Witness

end DemoExchange.Properties
