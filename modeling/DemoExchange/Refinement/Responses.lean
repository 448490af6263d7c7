import DemoExchange.Refinement.Progress

/-!
# What is received is published

Three things happen to a request one after the other, whatever else goes on:
the processing thread sends it to the engine, makes the engine's calls, and the
output thread publishes the messages that these posted. For each there is a
measure that the thread's steps make smaller and that no other step touches.
-/

namespace DemoExchange.Refinement
set_option autoImplicit false
open Text Lab OrderEntry MatchingEngine Server Interleaving

variable {lib : Nlohmann} {decoder : Decoder} {alloc : Pool.Allocator} {configuration : Config} {app app' : Application} {inner : Action}

section Grows

theorem received_grows (stepped : app.step alloc inner = some app') : app.received <+: app'.received := by
  by_cases given : ∃ request, inner = .onRequest request
  · obtain ⟨request, rfl⟩ := given
    cases onRequest_step stepped
    exact List.prefix_append _ _
  · rw [(step_frame stepped).received fun request same => given ⟨request, same⟩]

theorem answers_grow (taken : Application.Taken alloc app app') : app.answers <+: app'.answers := by
  cases taken with
  | send idle task sent => exact List.prefix_append _ _
  | stopLoop here =>
    rename_i stage
    cases stage <;> exact List.prefix_rfl
  | _ => exact List.prefix_rfl

/-- The messages that the engine raised. -/
def raised (app : Application) : List MarketData.Message := app.answers.flatMap fun answer => messages answer.2

/-- Those that its calls have posted to the output loop. -/
def posted (app : Application) : List MarketData.Message := app.published ++ app.outputLoop.unfinished

theorem raised_grows (taken : Application.Taken alloc app app') : raised app <+: raised app' := by
  obtain ⟨more, longer⟩ := answers_grow taken
  rw [raised, raised, ← longer, List.flatMap_append]
  exact List.prefix_append _ _

/-- What was raised is posted, or a call that is still to come posts it. -/
theorem raised_eq (live : Live alloc configuration app) : raised app = posted app ++ messages (app.callbacks.getD []) :=
  live.exact.outputs.trans (List.append_assoc _ _ _).symm

theorem posted_grows (taken : Application.Taken alloc app app') : posted app <+: posted app' := by
  cases taken with
  | outputLoop stepped =>
    simp only [posted, EventLoop.unfinished_step stepped]
    exact List.prefix_rfl
  | callback left =>
    rename_i emission rest
    simp only [posted, Application.emit]
    cases emission.message? with
    | none => exact List.prefix_rfl
    | some message =>
      rw [EventLoop.unfinished_post, ← List.append_assoc]
      exact List.prefix_append _ _
  | publish task returned =>
    obtain ⟨message, running, first⟩ := EventLoop.unfinished_taskReturns returned
    obtain rfl := Option.some.inj (task.symm.trans running)
    simp only [posted, first, List.append_assoc, List.singleton_append]
    exact List.prefix_rfl
  | stopLoop here =>
    rename_i stage
    cases stage <;> exact List.prefix_rfl
  | _ => exact List.prefix_rfl

end Grows

section Threads

variable {W : Type} {party : Party}

/-- A thread of the loops brings the process forward if it brings the application forward. -/
theorem progress_of_thread [LT W] (lib : Nlohmann) (decoder : Decoder) (P Q : Application → Prop) (measure : Application → W)
    (outside : party ≠ .input) (loops : party ≠ .socket) (own : party ≠ .controller)
    (can : ∀ app, P app → ¬Q app → ∃ inner : Action, inner.party = party ∧ (app.step alloc inner).isSome)
    (steps : ∀ app inner app', P app → ¬Q app → app.step alloc inner = some app' →
      P app' ∧ (measure app' < measure app ∨ measure app' = measure app ∧ inner.party ≠ party)) :
    Progress (Process.step lib decoder alloc) Process.Due (fun process => P process.application) (fun process => Q process.application)
      (fun _ => party) fun process => measure process.application where
  can process here later := by
    obtain ⟨inner, mine, goes⟩ := can _ here later
    exact can_inner mine outside (fun same => absurd same own) goes
  steps process action process' here later stepped := by
    obtain ⟨same, foreign⟩ | ⟨inner, whose, moved⟩ := step_seen stepped
    · refine .inr ⟨same ▸ here, .inr ⟨congrArg measure same, rfl, fun due => ?_⟩⟩
      rcases foreign _ due.1 with input | socket
      · exact outside input
      · exact loops socket
    · obtain ⟨there, less | ⟨equal, other⟩⟩ := steps _ inner _ here later moved
      · exact .inr ⟨there, .inl less⟩
      · exact .inr ⟨there, .inr ⟨equal, rfl, fun due => other (Option.some.inj (whose.symm.trans due.1))⟩⟩

end Threads

section Stages

/-- What the processing thread has before it until the next request is sent to the engine. -/
def untilSend (app : Application) : Nat :=
  match app.callbacks with
  | some emissions => 5 + emissions.length
  | none => app.processingLoop.ahead

/-- While requests wait, the consumer of the processing loop has a task or finds one. -/
theorem waiting_task {requests : List Request} (live : Live alloc configuration app) (received : requests <+: app.received)
    (later : ¬requests <+: app.answers.map Prod.fst) : app.answers.length < requests.length ∧ unsent app ≠ [] := by
  have inputs : app.received = app.answers.map Prod.fst ++ unsent app := live.exact.inputs
  refine ⟨?_, fun none => ?_⟩
  · by_contra long
    refine later (List.prefix_of_prefix_length_le received ⟨_, inputs.symm⟩ ?_)
    rw [List.length_map]
    omega
  · rw [none, List.append_nil] at inputs
    exact later (inputs ▸ received)

theorem taskQueue_ne_nil {τ : Type} {loop : EventLoop τ} (free : loop.task? = none) (some : loop.unfinished ≠ []) :
    loop.taskQueue ≠ [] := by
  rwa [EventLoop.unfinished, free] at some

/-- **Requests are sent to the engine.** -/
theorem answers_progress (lib : Nlohmann) (decoder : Decoder) (requests : List Request) :
    Progress (Process.step lib decoder alloc) Process.Due
      (fun process => Live alloc configuration process.application ∧ requests <+: process.application.received)
      (fun process => requests <+: process.application.answers.map Prod.fst) (fun _ => .processing)
      fun process => toLex (requests.length - process.application.answers.length, untilSend process.application) := by
  refine progress_of_thread lib decoder (fun app => Live alloc configuration app ∧ requests <+: app.received)
    (fun app => requests <+: app.answers.map Prod.fst) (fun app => toLex (requests.length - app.answers.length, untilSend app))
    (by decide) (by decide) (by decide) (fun app here later => ?_) fun app inner app' here later stepped => ?_
  · obtain ⟨live, received⟩ := here
    refine processing_goes live (Bool.eq_false_iff.2 fun exited => (waiting_task live received later).2 ?_)
    have none := live.order.processing.finished exited
    unfold unsent
    cases app.callbacks <;> simp [none]
  · obtain ⟨live, received⟩ := here
    refine ⟨⟨live.taken (Application.step_taken stepped), received.trans (received_grows stepped)⟩, ?_⟩
    obtain ⟨short, waiting⟩ := waiting_task live received later
    simp only [Prod.Lex.toLex_lt_toLex]
    obtain ⟨-, processes⟩ | kept := step_processing stepped
    · left
      cases processes with
      | loop moved =>
        have free := (EventLoop.step_moved moved).1
        have idle : app.callbacks = none := by
          by_contra sending
          obtain ⟨request, task⟩ := live.order.sending sending
          rw [free] at task
          cases task
        have full : app.processingLoop.taskQueue ≠ [] := taskQueue_ne_nil free (by simpa only [unsent, idle] using waiting)
        refine .inr ⟨rfl, ?_⟩
        simp only [untilSend, idle]
        exact EventLoop.ahead_step full moved
      | send idle task sent =>
        left
        simp only [List.length_append, List.length_singleton]
        omega
      | callback left => exact .inr ⟨rfl, by simp [untilSend, Application.emit, left]⟩
      | sendReturns left returned =>
        have near := EventLoop.ahead_taskReturns returned
        refine .inr ⟨rfl, ?_⟩
        simp only [untilSend, left]
        omega
    · refine .inr ⟨?_, kept.foreign⟩
      rw [kept.answers, untilSend, untilSend, kept.callbacks, EventLoop.ahead, EventLoop.ahead, kept.position]

/-- **What the engine raised is posted.** -/
theorem posted_progress (lib : Nlohmann) (decoder : Decoder) (said : List MarketData.Message) :
    Progress (Process.step lib decoder alloc) Process.Due
      (fun process => Live alloc configuration process.application ∧ said <+: raised process.application)
      (fun process => said <+: posted process.application) (fun _ => .processing)
      fun process => (process.application.callbacks.getD []).length := by
  have sending : ∀ app, Live alloc configuration app → said <+: raised app → ¬said <+: posted app →
      ∃ emission rest, app.callbacks = some (emission :: rest) := by
    intro app live before later
    rw [raised_eq live] at before
    cases left : app.callbacks with
    | none => exact absurd (by simpa [left, messages] using before) later
    | some emissions =>
      cases emissions with
      | nil => exact absurd (by simpa [left, messages] using before) later
      | cons emission rest => exact ⟨emission, rest, rfl⟩
  refine progress_of_thread lib decoder (fun app => Live alloc configuration app ∧ said <+: raised app)
    (fun app => said <+: posted app) (fun app => (app.callbacks.getD []).length)
    (by decide) (by decide) (by decide) (fun app here later => ?_) fun app inner app' here later stepped => ?_
  · obtain ⟨emission, rest, left⟩ := sending app here.1 here.2 later
    exact ⟨.callback, rfl, by simp only [Application.step, left, Option.isSome_some]⟩
  · obtain ⟨live, before⟩ := here
    have taken := Application.step_taken stepped
    refine ⟨⟨live.taken taken, before.trans (raised_grows taken)⟩, ?_⟩
    obtain ⟨emission, rest, left⟩ := sending app live before later
    obtain ⟨-, processes⟩ | kept := step_processing stepped
    · left
      cases processes with
      | loop moved =>
        -- the consumer is in a task
        obtain ⟨request, task⟩ := live.order.sending (by simp [left])
        rw [(EventLoop.step_moved moved).1] at task
        cases task
      | send idle task sent =>
        rw [left] at idle
        cases idle
      | callback left' =>
        rw [left] at left'
        cases left'
        simp [Application.emit, left]
      | sendReturns left' returned =>
        rw [left] at left'
        cases left'
    · exact .inr ⟨by rw [kept.callbacks], kept.foreign⟩

/-- **What was posted is published.** -/
theorem published_progress (lib : Nlohmann) (decoder : Decoder) (said : List MarketData.Message) :
    Progress (Process.step lib decoder alloc) Process.Due
      (fun process => Live alloc configuration process.application ∧ said <+: posted process.application)
      (fun process => said <+: process.application.published) (fun _ => .output)
      fun process => toLex (said.length - process.application.published.length, process.application.outputLoop.ahead) := by
  have waiting : ∀ app : Application, said <+: posted app → ¬said <+: app.published →
      app.published.length < said.length ∧ app.outputLoop.unfinished ≠ [] := by
    intro app before later
    refine ⟨?_, fun none => ?_⟩
    · by_contra long
      exact later (List.prefix_of_prefix_length_le before (List.prefix_append _ _) (by omega))
    · rw [posted, none, List.append_nil] at before
      exact later before
  refine progress_of_thread lib decoder (fun app => Live alloc configuration app ∧ said <+: posted app)
    (fun app => said <+: app.published) (fun app => toLex (said.length - app.published.length, app.outputLoop.ahead))
    (by decide) (by decide) (by decide) (fun app here later => ?_) fun app inner app' here later stepped => ?_
  · exact output_goes alloc (Bool.eq_false_iff.2 fun exited => (waiting app here.2 later).2 (here.1.order.output.finished exited))
  · obtain ⟨live, before⟩ := here
    have taken := Application.step_taken stepped
    refine ⟨⟨live.taken taken, before.trans (posted_grows taken)⟩, ?_⟩
    obtain ⟨short, some⟩ := waiting app before later
    simp only [Prod.Lex.toLex_lt_toLex]
    obtain ⟨-, outputs⟩ | kept := step_output stepped
    · left
      cases outputs with
      | loop moved => exact .inr ⟨rfl, EventLoop.ahead_step (taskQueue_ne_nil (EventLoop.step_moved moved).1 some) moved⟩
      | publish task returned =>
        left
        simp only [List.length_append, List.length_singleton]
        omega
    · refine .inr ⟨?_, kept.foreign⟩
      rw [kept.published, EventLoop.ahead, EventLoop.ahead, kept.position]

end Stages

section Arrivals

variable {process process' : Process} {action : ProcessAction}

/-- Some datagrams have arrived. -/
structure Arrived (lib : Nlohmann) (decoder : Decoder) (datagrams : List Bytes) (process : Process) : Prop where
  chained : Chained lib decoder process
  attended : Attended process
  arrived : datagrams <+: process.arrived.map AsioUdpReceiver.cut

/-- They were handed over, or `stop` was called, or the receive loop has ended. -/
def Received (datagrams : List Bytes) (process : Process) : Prop :=
  datagrams <+: process.delivered ∨ process.application.controller ≠ .started ∨ process.receiver.ended = true

/-- The receiver and the input loop are open for more datagrams, and one of these is still to be handed over. -/
structure Open (datagrams : List Bytes) (process : Process) : Prop where
  running : process.application.inputLoop.running = true
  started : process.application.controller = .started
  short : process.delivered.length < datagrams.length
  left : process.receiver.undelivered ≠ []
  reading : process.receiver.ended = false

theorem Arrived.open {datagrams : List Bytes} (here : Arrived lib decoder datagrams process) (later : ¬Received datagrams process) :
    Open datagrams process := by
  simp only [Received, not_or, ne_eq, not_not, Bool.not_eq_true] at later
  obtain ⟨later, started, reading⟩ := later
  have socket := here.chained.socket
  refine ⟨here.attended.running started, started, ?_, fun none => ?_, reading⟩
  · by_contra long
    exact later (List.prefix_of_prefix_length_le here.arrived ⟨_, socket.symm⟩ (by omega))
  · rw [none, List.append_nil] at socket
    exact later (socket ▸ here.arrived)

theorem Arrived.step {datagrams : List Bytes} (here : Arrived lib decoder datagrams process)
    (stepped : process.step lib decoder alloc action = some process') : Arrived lib decoder datagrams process' := by
  have taken := Process.step_taken stepped
  refine ⟨here.chained.taken taken, here.attended.taken taken, here.arrived.trans ?_⟩
  have grows : process.arrived <+: process'.arrived := by
    cases taken with
    | arrive datagram => exact List.prefix_append _ _
    | _ => exact List.prefix_rfl
  obtain ⟨more, longer⟩ := grows
  rw [← longer, List.map_append]
  exact List.prefix_append _ _

/-- A receiver that is not in its handler and reads on waits for a datagram or has one. -/
theorem Open.operation {datagrams : List Bytes} (open' : Open datagrams process) (outside : process.receiver.inHandler = false) :
    process.receiver.operation = .outstanding ∨ ∃ datagram, process.receiver.operation = .received datagram := by
  have reading := open'.reading
  cases here : process.receiver.operation with
  | outstanding => exact .inl rfl
  | received datagram => exact .inr ⟨datagram, rfl⟩
  | none =>
    rw [AsioUdpReceiver.ended_iff.2 ⟨outside, .inl here⟩] at reading
    cases reading
  | failed =>
    rw [AsioUdpReceiver.ended_iff.2 ⟨outside, .inr here⟩] at reading
    cases reading

end Arrivals

end DemoExchange.Refinement
