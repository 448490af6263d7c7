import DemoExchange.Lib.Interleaving
import DemoExchange.Lib.Pipeline
import DemoExchange.Server.Application

/-!
# The three loops as a machine between two queues

Seen through `view`, the loops are the two queues of `Pipeline.State`: a task
counts as queued until its effect has happened, also while the consumer has it
in hand, and the calls that the engine still has to make are in transit.
`InOrder` is what the order of `stop` and `join` keeps.
-/

namespace DemoExchange.Refinement
set_option autoImplicit false
open Lab OrderEntry MatchingEngine Server Interleaving

section Shutdown

variable {alloc : Pool.Allocator} {app app' : Application}

/-- The stages whose threads `stop` has joined. -/
def joined : Controller → List Stage
  | .started => []
  | .stopping .input => []
  | .joining .input => []
  | .stopping .processing => [.input]
  | .joining .processing => [.input]
  | .stopping .output => [.input, .processing]
  | .joining .output => [.input, .processing]
  | .returned => [.input, .processing, .output]

/-- The flag of a loop goes down only after its producer's thread has exited. -/
structure InOrder (app : Application) : Prop where
  input : app.inputLoop.Sound
  processing : app.processingLoop.Sound
  output : app.outputLoop.Sound
  sending : app.callbacks ≠ none → ∃ request, app.processingLoop.task? = some request
  processingStopped : app.processingLoop.running = false → app.inputLoop.exited = true
  outputStopped : app.outputLoop.running = false → app.processingLoop.exited = true
  joined : ∀ stage ∈ joined app.controller, app.exited stage = true

theorem InOrder.start (alloc : Pool.Allocator) (configuration : Config) : InOrder (.start alloc configuration) where
  input := .start _ _
  processing := .start _ _
  output := .start _ _
  sending := fun h => absurd rfl h
  processingStopped := fun h => nomatch h
  outputStopped := fun h => nomatch h
  joined := List.forall_mem_nil _

/-- While the input loop polls, the processing loop is live. -/
theorem InOrder.processing_live (order : InOrder app) (polling : app.inputLoop.inPoller = true) : app.processingLoop.exited = false :=
  order.processing.live order.processingStopped (EventLoop.not_exited_of_polling polling)

/-- While the processing loop runs a task, the output loop is live. -/
theorem InOrder.output_live (order : InOrder app) (sending : app.callbacks ≠ none) : app.outputLoop.exited = false := by
  obtain ⟨request, task⟩ := order.sending sending
  exact order.output.live order.outputStopped (EventLoop.not_exited_of_task task)

/-- What a step of the pipeline can do to one of its loops. -/
inductive Touched {τ : Type} (loop : EventLoop τ) : EventLoop τ → Prop where
  | kept : Touched loop loop
  | step {act : EventLoop.Act} {loop' : EventLoop τ} (stepped : loop.step act = some loop') : Touched loop loop'
  | post (task : τ) : Touched loop (loop.post task)
  | returns {loop' : EventLoop τ} (returned : loop.taskReturns = some loop') : Touched loop loop'
  | stop : Touched loop loop.stop

theorem touched_taken (taken : Application.Taken alloc app app') :
    Touched app.inputLoop app'.inputLoop ∧ Touched app.processingLoop app'.processingLoop ∧ Touched app.outputLoop app'.outputLoop := by
  cases taken with
  | inputLoop stepped => exact ⟨.step stepped, .kept, .kept⟩
  | processingLoop stepped => exact ⟨.kept, .step stepped, .kept⟩
  | outputLoop stepped => exact ⟨.kept, .kept, .step stepped⟩
  | onRequest request polling => exact ⟨.kept, .post request, .kept⟩
  | send idle task sent => exact ⟨.kept, .kept, .kept⟩
  | callback left =>
    rename_i emission rest
    refine ⟨.kept, .kept, ?_⟩
    simp only [Application.emit]
    cases emission.message? with
    | none => exact .kept
    | some message => exact .post message
  | sendReturns left returned => exact ⟨.kept, .returns returned, .kept⟩
  | publish task returned => exact ⟨.kept, .kept, .returns returned⟩
  | stopSession here => exact ⟨.kept, .kept, .kept⟩
  | stopLoop here =>
    rename_i stage
    cases stage with
    | input => exact ⟨.stop, .kept, .kept⟩
    | processing => exact ⟨.kept, .stop, .kept⟩
    | output => exact ⟨.kept, .kept, .stop⟩
  | join here gone => exact ⟨.kept, .kept, .kept⟩

theorem Touched.exited {τ : Type} {loop loop' : EventLoop τ} (touched : Touched loop loop') (exited : loop.exited = true) :
    loop'.exited = true := by
  cases touched with
  | kept => exact exited
  | step stepped => exact EventLoop.exited_step exited stepped
  | post task => exact exited
  | returns returned => exact EventLoop.exited_taskReturns exited returned
  | stop => exact exited

theorem Touched.running {τ : Type} {loop loop' : EventLoop τ} (touched : Touched loop loop') (down : loop.running = false) :
    loop'.running = false := by
  cases touched with
  | kept => exact down
  | step stepped => exact (EventLoop.running_step stepped).trans down
  | post task => exact down
  | returns returned => exact (EventLoop.running_taskReturns returned).trans down
  | stop => rfl

/-- A thread that has exited stays so. -/
theorem exited_taken (taken : Application.Taken alloc app app') {stage : Stage} (exited : app.exited stage = true) :
    app'.exited stage = true := by
  obtain ⟨input, processing, output⟩ := touched_taken taken
  cases stage with
  | input => exact input.exited exited
  | processing => exact processing.exited exited
  | output => exact output.exited exited

/-- A step that is not the controller's. -/
theorem InOrder.joined_of_same (order : InOrder app) (taken : Application.Taken alloc app app') (same : app'.controller = app.controller) :
    ∀ stage ∈ Refinement.joined app'.controller, app'.exited stage = true := by
  intro stage member
  rw [same] at member
  exact exited_taken taken (order.joined stage member)

theorem joined_next (stage : Stage) : joined stage.joined = joined (.joining stage) ++ [stage] := by
  cases stage <;> rfl

theorem joined_joining (stage : Stage) : joined (.joining stage) = joined (.stopping stage) := by
  cases stage <;> rfl

/-- **The order of shutdown** is kept by every step. -/
theorem InOrder.taken (order : InOrder app) (taken : Application.Taken alloc app app') : InOrder app' := by
  have later := fun same => order.joined_of_same taken same
  have exited := fun stage => @exited_taken alloc app app' taken stage
  cases taken with
  | inputLoop stepped =>
    exact { order with
      input := order.input.step stepped
      processingStopped := fun h => exited .input (order.processingStopped h)
      joined := later rfl }
  | processingLoop stepped =>
    exact { order with
      processing := order.processing.step stepped
      sending := fun h => by
        obtain ⟨request, task⟩ := order.sending h
        rw [(EventLoop.step_moved stepped).1] at task
        cases task
      processingStopped := fun h => order.processingStopped (EventLoop.running_step stepped ▸ h)
      outputStopped := fun h => exited .processing (order.outputStopped h)
      joined := later rfl }
  | outputLoop stepped =>
    exact { order with
      output := order.output.step stepped
      outputStopped := fun h => order.outputStopped (EventLoop.running_step stepped ▸ h)
      joined := later rfl }
  | onRequest request polling =>
    -- a post by a live producer: the flag of the consumer is still up
    exact { order with
      processing := order.processing.post (order.processing_live polling) request
      joined := later rfl }
  | send idle task sent =>
    exact { order with
      sending := fun _ => ⟨_, task⟩
      joined := later rfl }
  | callback left =>
    rename_i emission rest
    have live : app.callbacks ≠ none := by simp [left]
    refine { order with
      output := ?_
      sending := fun _ => order.sending live
      outputStopped := fun h => order.outputStopped ?_
      joined := later rfl }
    · simp only [Application.emit]
      cases emission.message? with
      | none => exact order.output
      | some message => exact order.output.post (order.output_live live) message
    · simp only [Application.emit] at h
      cases said : emission.message? <;> rw [said] at h <;> exact h
  | sendReturns left returned =>
    exact { order with
      processing := order.processing.taskReturns returned
      sending := fun h => absurd rfl h
      processingStopped := fun h => order.processingStopped (EventLoop.running_taskReturns returned ▸ h)
      outputStopped := fun h => exited .processing (order.outputStopped h)
      joined := later rfl }
  | publish task returned =>
    exact { order with
      output := order.output.taskReturns returned
      outputStopped := fun h => order.outputStopped (EventLoop.running_taskReturns returned ▸ h)
      joined := later rfl }
  | stopSession here =>
    exact { order with joined := List.forall_mem_nil _ }
  | stopLoop here =>
    rename_i stage
    have before : ∀ earlier ∈ Refinement.joined (.joining stage), app.exited earlier = true := by
      rw [joined_joining, ← here]
      exact order.joined
    have after := fun earlier member => exited earlier (before earlier member)
    cases stage with
    | input =>
      exact { order with
        input := order.input.stop
        joined := after }
    | processing =>
      exact { order with
        processing := order.processing.stop
        -- the flag goes down here, after the input thread was joined
        processingStopped := fun _ => before .input List.mem_cons_self
        joined := after }
    | output =>
      exact { order with
        output := order.output.stop
        outputStopped := fun _ => before .processing (List.mem_cons_of_mem _ List.mem_cons_self)
        joined := after }
  | join here gone =>
    rename_i stage
    refine { order with joined := fun earlier member => ?_ }
    rw [joined_next, ← here] at member
    rcases List.mem_append.1 member with member | member
    · exact order.joined earlier member
    · exact List.mem_singleton.1 member ▸ gone

end Shutdown

section View

variable {alloc : Pool.Allocator} {app app' : Application}

/-- The messages among the engine's calls. -/
def messages (emissions : List Emission) : List MarketData.Message := emissions.filterMap Emission.message?

/-- The requests that the engine has not been sent. -/
def unsent (app : Application) : List Request :=
  match app.callbacks with
  | none => app.processingLoop.unfinished
  | some _ => app.processingLoop.unfinished.tail

/-- The messages that the publisher has not been given. -/
def unpublished (app : Application) : List MarketData.Message := app.outputLoop.unfinished ++ messages (app.callbacks.getD [])

def view (app : Application) : Pipeline.State Engine Request (List Emission) MarketData.Message where
  accepted := app.received
  waiting := unsent app
  machine := app.engine
  answers := app.answers
  inTransit := unpublished app
  published := app.published

theorem unsent_onRequest (order : InOrder app) (request : Request) : unsent (app.onRequest request) = unsent app ++ [request] := by
  unfold unsent Application.onRequest
  cases sending : app.callbacks with
  | none => exact EventLoop.unfinished_post request
  | some rest =>
    obtain ⟨current, task⟩ := order.sending (by simp [sending])
    simp only [EventLoop.unfinished_post]
    exact List.tail_append_of_ne_nil (by simp [EventLoop.unfinished, task])

theorem view_callback {emission : Emission} {rest : List Emission} (left : app.callbacks = some (emission :: rest)) :
    view ({ app with callbacks := some rest }.emit emission) = view app := by
  unfold Application.emit
  cases said : emission.message? with
  | none => simp [view, unsent, unpublished, messages, left, said]
  | some message => simp [view, unsent, unpublished, messages, left, said]

/-- **A step of the loops** hands a request over, has the engine handle one,
gives a message to the publisher, or changes nothing in view. -/
theorem view_taken (order : InOrder app) (taken : Application.Taken alloc app app') :
    view app' = view app ∨ Pipeline.Step (Engine.send alloc) messages (view app) (view app') := by
  cases taken with
  | inputLoop stepped => exact .inl rfl
  | processingLoop stepped =>
    left
    simp only [view, unsent, EventLoop.unfinished_step stepped]
    rfl
  | outputLoop stepped =>
    left
    simp only [view, unpublished, EventLoop.unfinished_step stepped]
    rfl
  | onRequest request polling =>
    right
    have same : view (app.onRequest request) =
        { view app with
          accepted := (view app).accepted ++ [request]
          waiting := (view app).waiting ++ [request] } := by
      simp only [view, unsent_onRequest order]
      rfl
    exact same ▸ .accept (view app) request
  | send idle task sent =>
    right
    rename_i request engine emissions
    have first : app.processingLoop.unfinished = request :: app.processingLoop.taskQueue := by
      rw [EventLoop.unfinished, task]
      rfl
    have next : (view app).waiting = request :: app.processingLoop.taskQueue := by simp only [view, unsent, idle, first]
    have same : view { app with engine, callbacks := some emissions, answers := app.answers ++ [(request, emissions)] } =
        { view app with
          waiting := app.processingLoop.taskQueue
          machine := engine
          answers := (view app).answers ++ [(request, emissions)]
          inTransit := (view app).inTransit ++ messages emissions } := by
      simp [view, unsent, unpublished, messages, idle, first]
    exact same ▸ .handle next sent
  | callback left => exact .inl (view_callback left)
  | sendReturns left returned =>
    left
    -- the request left the queue in view when it was sent
    obtain ⟨request, -, first⟩ := EventLoop.unfinished_taskReturns returned
    simp [view, unsent, unpublished, left, first]
  | publish task returned =>
    right
    rename_i message loop
    obtain ⟨current, running, first⟩ := EventLoop.unfinished_taskReturns returned
    obtain rfl := Option.some.inj (task.symm.trans running)
    have next : (view app).inTransit = message :: (loop.unfinished ++ messages (app.callbacks.getD [])) := by
      simp only [view, unpublished, first, List.cons_append]
    exact .publish next
  | stopSession here => exact .inl rfl
  | stopLoop here =>
    rename_i stage
    cases stage <;> exact .inl rfl
  | join here gone => exact .inl rfl

/-- **When `stop` has returned**, nothing waits and nothing is in transit. -/
theorem InOrder.returned (order : InOrder app) (returned : app.controller = .returned) :
    app.processingLoop.unfinished = [] ∧ app.outputLoop.unfinished = [] ∧ app.callbacks = none := by
  have gone := order.joined
  rw [returned] at gone
  have processing : app.processingLoop.exited = true := gone .processing (by decide)
  have output : app.outputLoop.exited = true := gone .output (by decide)
  refine ⟨order.processing.finished processing, order.output.finished output, ?_⟩
  by_contra sending
  obtain ⟨request, task⟩ := order.sending sending
  rw [EventLoop.not_exited_of_task task] at processing
  cases processing

end View

section Flags

variable {alloc : Pool.Allocator} {app app' : Application}

/-- The running flag of a stage's loop. -/
def running (app : Application) : Stage → Bool
  | .input => app.inputLoop.running
  | .processing => app.processingLoop.running
  | .output => app.outputLoop.running

/-- A flag that is down stays so. -/
theorem running_taken (taken : Application.Taken alloc app app') {stage : Stage} (down : running app stage = false) :
    running app' stage = false := by
  obtain ⟨input, processing, output⟩ := touched_taken taken
  cases stage with
  | input => exact input.running down
  | processing => exact processing.running down
  | output => exact output.running down

end Flags

section Live

variable {alloc : Pool.Allocator} {configuration : Config} {app app' : Application} {stage : Stage}

/-- What holds after any interleaving. -/
structure Live (alloc : Pool.Allocator) (configuration : Config) (app : Application) : Prop where
  order : InOrder app
  refines : Relation.ReflTransGen (Pipeline.Step (Engine.send alloc) messages)
    (Pipeline.start (.init alloc configuration.matchingEngine)) (view app)
  told : ∀ stage, app.controller = .joining stage → running app stage = false

/-- A loop is told to stop before it is joined. -/
theorem told_taken (told : ∀ stage, app.controller = .joining stage → running app stage = false)
    (taken : Application.Taken alloc app app') : ∀ stage, app'.controller = .joining stage → running app' stage = false := by
  intro stage joining
  have kept : app.controller = .joining stage → running app' stage = false := fun h => running_taken taken (told stage h)
  cases taken with
  | stopSession here => cases joining
  | stopLoop here =>
    cases joining
    cases stage <;> rfl
  | join here gone =>
    rename_i joined
    cases joined <;> cases joining
  | _ => exact kept joining

theorem Live.start (alloc : Pool.Allocator) (configuration : Config) : Live alloc configuration (.start alloc configuration) where
  order := .start alloc configuration
  refines := .refl
  told := fun _ h => nomatch h

theorem Live.taken (live : Live alloc configuration app) (taken : Application.Taken alloc app app') : Live alloc configuration app' := by
  refine ⟨live.order.taken taken, ?_, told_taken live.told taken⟩
  rcases view_taken live.order taken with same | step
  · exact same ▸ live.refines
  · exact live.refines.tail step

theorem Live.exact (live : Live alloc configuration app) :
    Pipeline.Exact (Engine.send alloc) messages (.init alloc configuration.matchingEngine) (view app) := Pipeline.run_exact live.refines

/-- **After any interleaving** the loops are in order, and have done what the
machine between two queues can do. -/
theorem live_run {actions : List Action}
    (ran : exec (Application.step alloc) (.start alloc configuration) actions = some app) : Live alloc configuration app :=
  exec_invariant (Live.start alloc configuration) (fun _ _ _ live stepped => live.taken (Application.step_taken stepped)) ran

end Live

end DemoExchange.Refinement
