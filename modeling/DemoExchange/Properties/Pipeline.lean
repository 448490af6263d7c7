import DemoExchange.Properties.Agreement
import DemoExchange.Refinement.Shutdown

/-!
# The three-loop pipeline

However the loops, the input poller and the thread that calls `stop` take
turns, every request that was handed over is handled once and in order, and so
is every message of the engine.
-/

namespace DemoExchange.Properties
set_option autoImplicit false
open Lab OrderEntry MatchingEngine Server Refinement Interleaving

/-- **Nothing is lost in a shutdown.** When `stop` has returned, the engine has
handled what was received and the publisher was given what the engine emitted,
and the queues are empty. -/
theorem shutdown_exact (alloc : Pool.Allocator) (configuration : Config) {actions : List Action} {app : Application}
    (ran : exec (Application.step alloc) (.start alloc configuration) actions = some app) (returned : app.controller = .returned) :
    app.answers.map Prod.fst = app.received ∧
      Engine.run alloc configuration.matchingEngine app.received = .ok (app.engine, app.answers) ∧
      (app.answers.flatMap fun answer => messages answer.2) = app.published ∧
      app.inputLoop.taskQueue = [] ∧ app.processingLoop.taskQueue = [] ∧ app.outputLoop.taskQueue = [] := by
  have live := live_run ran
  have order := live.order
  obtain ⟨inputs, outputs, handled⟩ := live.exact
  obtain ⟨requests, messages, idle⟩ := order.returned returned
  have gone := order.joined
  rw [returned] at gone
  have waiting : (view app).waiting = [] := by simp only [view, unsent, idle, requests]
  have inTransit : (view app).inTransit = [] := by simp [view, unpublished, idle, messages, Refinement.messages]
  rw [waiting, List.append_nil] at inputs
  rw [inTransit, List.append_nil] at outputs
  rw [← inputs] at handled
  exact ⟨inputs.symm, handled, outputs, order.input.empty (gone .input (by decide)),
    order.processing.empty (gone .processing (by decide)), order.output.empty (gone .output (by decide))⟩

/-- **`stop` can always return.** Whatever the parties have done, some way of
going on lets it. -/
theorem stop_can_return {alloc : Pool.Allocator} {configuration : Config} {actions : List Action} {app : Application}
    (ran : exec (Application.step alloc) (.start alloc configuration) actions = some app) :
    ∃ more app', exec (Application.step alloc) app more = some app' ∧ app'.controller = .returned := by
  obtain ⟨app', ⟨more, went⟩, returned⟩ := (live_run ran).returns
  exact ⟨more, app', went, returned⟩

section Witness

/-- The bid of one client and the order of another that takes it. -/
def bid : Request := .newOrderSingle (makeNewOrderSingle alice 1 .buy 10)

def taker : Request := .newOrderSingle (makeNewOrderSingle bob 102 .sell 10)

def mixedConfig : Config := ⟨defaultConfig, .busySpin, .timedWait, .timedWait⟩

/-- A task of the processing loop with so many callbacks. -/
def runTask (callbacks : Nat) : List Action := [.send] ++ List.replicate callbacks .callback ++ [.sendReturns]

/-- The flag of the input loop goes down inside its poller, which hands over
one more request; the engine handles both in its loop's final drain while the
output loop waits. -/
def lateRequest : List Action :=
  [.inputLoop .loadRunning, .inputLoop .tryDequeue, .onRequest bid, .control, .control, .onRequest taker,
    .inputLoop (.pollerReturns true), .inputLoop .pollersDone, .outputLoop .loadRunning, .inputLoop .loadRunning, .inputLoop .tryDequeue,
    .control, .control, .processingLoop .loadRunning, .processingLoop .tryDequeue, .outputLoop .tryDequeue, .outputLoop .pollersDone] ++
  runTask 2 ++ [.outputLoop .waitDequeue, .processingLoop .tryDequeue, .publish] ++ runTask 5 ++
  [.processingLoop .tryDequeue, .control, .control, .outputLoop .loadRunning] ++
  (List.replicate 3 [.outputLoop .tryDequeue, .publish]).flatten ++ [.outputLoop .tryDequeue, .control]

theorem shutdown_exact_lateRequest :
    ∃ app, exec (Application.step .above) (.start .above mixedConfig) lateRequest = some app ∧ app.received = [bid, taker] ∧
      app.published.length = 4 ∧
      app.answers.map Prod.fst = app.received ∧
      Engine.run .above defaultConfig app.received = .ok (app.engine, app.answers) ∧
      (app.answers.flatMap fun answer => messages answer.2) = app.published ∧
      app.inputLoop.taskQueue = [] ∧ app.processingLoop.taskQueue = [] ∧ app.outputLoop.taskQueue = [] := by
  have seen : (exec (Application.step .above) (.start .above mixedConfig) lateRequest).map
      (fun app => (app.controller, app.received, app.published.length)) = some (.returned, [bid, taker], 4) := by
    decide
  obtain ⟨app, ran, same⟩ := Option.map_eq_some_iff.1 seen
  simp only [Prod.mk.injEq] at same
  obtain ⟨returned, received, published⟩ := same
  exact ⟨app, ran, received, published, shutdown_exact .above mixedConfig ran returned⟩

end Witness

end DemoExchange.Properties
