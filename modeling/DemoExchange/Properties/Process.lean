import DemoExchange.Properties.Json
import DemoExchange.Properties.Pipeline
import DemoExchange.Refinement.Receiving

/-!
# From the socket to stdout

However the network, the three loops and the thread that calls `stop` take
turns, the process is a sequential program that lags behind: what is on stdout
is the beginning of what the reference exchange has to say about the datagrams
delivered so far, and all of it once `stop` has returned. Whether `stop` ends
the receiving depends on where it finds the receiver.
-/

namespace DemoExchange.Properties
set_option autoImplicit false
open Text Lab OrderEntry MatchingEngine Reference Server Refinement Interleaving Stages

section Serving

variable {lib : Nlohmann} {decoder : Decoder} {alloc : Pool.Allocator} {configuration : Config} {process : Process}

/-- What the engine answered is what the numbered exchange answers. -/
theorem answers_numbered {app : Application} (live : Live alloc configuration app) :
    (numberedRun configuration.matchingEngine (app.answers.map Prod.fst)).2 = app.answers := by
  obtain ⟨e, ran, -⟩ := engine_run alloc configuration.matchingEngine (app.answers.map Prod.fst)
  exact (Prod.mk.inj (Except.ok.inj (ran.symm.trans live.exact.handled))).2

/-- The application has published a beginning of what there is to say about what it received. -/
theorem published_lags {app : Application} (live : Live alloc configuration app) :
    app.published <+: marketDataOf configuration.matchingEngine app.received := by
  have handled : app.answers.map Prod.fst <+: app.received := ⟨_, live.exact.inputs.symm⟩
  have said : marketDataOf configuration.matchingEngine (app.answers.map Prod.fst) = app.published ++ (view app).inTransit := by
    rw [marketDataOf, answers_numbered live]
    exact live.exact.outputs
  exact (causal_marketDataOf _).lags handled ⟨_, said.symm⟩

/-- When `stop` has returned, every request was handled. -/
theorem handled_all {app : Application} (live : Live alloc configuration app) (returned : app.controller = .returned) :
    app.received = app.answers.map Prod.fst := by
  obtain ⟨requests, -, idle⟩ := live.order.returned returned
  have waiting : (view app).waiting = [] := by simp only [view, unsent, idle, requests]
  have inputs := live.exact.inputs
  rw [waiting, List.append_nil] at inputs
  exact inputs

/-- **When `stop` has returned**, everything was published. -/
theorem published_all {app : Application} (live : Live alloc configuration app) (returned : app.controller = .returned) :
    app.published = marketDataOf configuration.matchingEngine app.received := by
  obtain ⟨-, messages, idle⟩ := live.order.returned returned
  have inTransit : (view app).inTransit = [] := by simp [view, unpublished, idle, messages, Refinement.messages]
  have outputs := live.exact.outputs
  rw [inTransit, List.append_nil] at outputs
  rw [handled_all live returned, marketDataOf, answers_numbered live]
  exact outputs.symm

theorem stdout_lags {actions : List ProcessAction}
    (ran : exec (Process.step lib decoder alloc) (.start alloc configuration) actions = some process) :
    process.stdout <+: serve lib decoder configuration.matchingEngine process.delivered := by
  obtain ⟨chained, actions', ran'⟩ := chained_run ran
  rw [chained.stdout, serve, ← chained.received]
  exact causal_recordsOf lib _ _ (published_lags (live_run ran'))

theorem stdout_all {actions : List ProcessAction}
    (ran : exec (Process.step lib decoder alloc) (.start alloc configuration) actions = some process)
    (returned : process.application.controller = .returned) :
    process.stdout = serve lib decoder configuration.matchingEngine process.delivered := by
  obtain ⟨chained, actions', ran'⟩ := chained_run ran
  rw [chained.stdout, serve, ← chained.received, published_all (live_run ran') returned]

/-- **The process lags behind a sequential one.** The session has answered the
first datagrams that arrived, in order, and stdout is the beginning of what is
to be printed for them. -/
theorem process_serves {actions : List ProcessAction}
    (ran : exec (Process.step lib decoder alloc) (.start alloc configuration) actions = some process) :
    process.delivered <+: process.arrived.map AsioUdpReceiver.cut ∧
      process.rejected = process.delivered.filterMap (rejectedOf decoder) ∧
      process.stdout <+: serve lib decoder configuration.matchingEngine process.delivered :=
  have chained := (chained_run ran).1
  ⟨⟨_, chained.socket.symm⟩, chained.rejected, stdout_lags ran⟩

/-- **When `stop` has returned**, stdout is what a sequential program prints
for the datagrams that were delivered; the others that arrived were not read. -/
theorem process_served {actions : List ProcessAction}
    (ran : exec (Process.step lib decoder alloc) (.start alloc configuration) actions = some process)
    (returned : process.application.controller = .returned) :
    process.stdout = serve lib decoder configuration.matchingEngine process.delivered ∧
      process.arrived.map AsioUdpReceiver.cut = process.delivered ++ process.receiver.undelivered :=
  ⟨stdout_all ran returned, (chained_run ran).1.socket⟩

/-- **Stopping the receiver** ends its receive loop exactly when a receive is
outstanding, if it had not ended already. Otherwise `stop` came while a handler
ran or was ready to, and some way of going on still delivers a datagram. -/
theorem stop_ends_receiving_iff {actions : List ProcessAction} {process' : Process}
    (ran : exec (Process.step lib decoder alloc) (.start alloc configuration) actions = some process)
    (first : process.application.controller = .started)
    (stepped : process.step lib decoder alloc (.application .control) = some process') :
    (∀ more process'', exec (Process.step lib decoder alloc) process' more = some process'' → process''.delivered = process'.delivered) ↔
      process.receiver.operation = .outstanding ∨ process.receiver.ended = true := by
  have sound := (chained_run ran).1.sound
  have attended := attended_run ran
  have attended' := attended.taken (Process.step_taken stepped)
  obtain ⟨receiver, inputLoop⟩ := control_started first stepped
  obtain ⟨posted, stopped⟩ | ⟨unposted, same⟩ := AsioUdpReceiver.stop_cases process.receiver
  · refine iff_of_true (fun more process'' ran => delivered_exec ?_ ran) (.inl posted)
    rw [receiver, stopped, AsioUdpReceiver.ended_iff]
    refine ⟨Bool.eq_false_iff.2 fun inside => ?_, .inr rfl⟩
    rw [sound inside] at posted
    cases posted
  · rw [same] at receiver
    cases gone : process.receiver.ended with
    | true => exact iff_of_true (fun more process'' ran => delivered_exec (receiver ▸ gone) ran) (.inr rfl)
    | false =>
      refine iff_of_false (fun silent => ?_) (by simp [unposted])
      have running : process'.application.inputLoop.running = true := inputLoop ▸ attended.running first
      obtain ⟨last, ⟨more, ran⟩, longer⟩ : Delivers lib decoder alloc process' :=
        delivers_open attended' running (receiver ▸ unposted) (receiver ▸ gone)
      rw [silent more last ran] at longer
      exact absurd longer (lt_irrefl _)

end Serving

section Witness

/-- A scripted decoder: a packet is the name of an order. -/
def scripted : Decoder := fun packet =>
  if packet = ascii "bid" then .ok bid
  else if packet = ascii "taker" then .ok taker
  else .error (.matched (ascii "parser error: unknown order"))

/-- The input loop polls once and a datagram is taken through the session. -/
def pollDatagram : List ProcessAction :=
  [.application (.inputLoop .loadRunning), .application (.inputLoop .tryDequeue), .complete, .pollOne, .onDatagram, .postReceive,
    .pollReturns, .application (.inputLoop .pollersDone)]

/-- The loops finish what was posted and are joined. -/
def shutdown : List Action :=
  [.inputLoop .pollersDone, .inputLoop .loadRunning, .inputLoop .tryDequeue, .control, .control, .processingLoop .loadRunning,
    .processingLoop .tryDequeue] ++
  runTask 2 ++
  [.processingLoop .tryDequeue, .control, .control, .outputLoop .loadRunning, .outputLoop .tryDequeue, .publish,
    .outputLoop .tryDequeue, .control]

/-- Four datagrams arrive: an order and a blank one are delivered, and an
unknown order is in its handler. -/
def thirdInHandler : List ProcessAction :=
  [.arrive (ascii "bid"), .arrive (ascii " "), .arrive (ascii "ask"), .arrive (ascii "taker")] ++ pollDatagram ++ pollDatagram ++
  [.application (.inputLoop .loadRunning), .application (.inputLoop .tryDequeue), .complete, .pollOne]

/-- There comes `stop`, and the fourth datagram stays in the socket. -/
def fourDatagrams : List ProcessAction :=
  thirdInHandler ++ [.application .control, .onDatagram, .postReceive, .application .control, .pollReturns] ++
  shutdown.map ProcessAction.application

theorem fourDatagrams_run :
    (exec (Process.step compact scripted .above) (.start .above mixedConfig) fourDatagrams).map
        (fun process => (process.application.controller, process.delivered, process.rejected.length, process.receiver.socketBuffer)) =
      some (.returned, [ascii "bid", ascii " ", ascii "ask"], 1, [ascii "taker"]) := by
  decide +kernel

theorem process_serves_fourDatagrams :
    ∃ process, exec (Process.step compact scripted .above) (.start .above mixedConfig) fourDatagrams = some process ∧
      process.delivered <+: process.arrived.map AsioUdpReceiver.cut ∧
      process.rejected = process.delivered.filterMap (rejectedOf scripted) ∧
      process.stdout <+: serve compact scripted defaultConfig process.delivered := by
  obtain ⟨process, ran, -⟩ := Option.map_eq_some_iff.1 fourDatagrams_run
  exact ⟨process, ran, process_serves ran⟩

theorem process_served_fourDatagrams :
    ∃ process, exec (Process.step compact scripted .above) (.start .above mixedConfig) fourDatagrams = some process ∧
      process.stdout = serve compact scripted defaultConfig process.delivered ∧
      process.arrived.map AsioUdpReceiver.cut = process.delivered ++ process.receiver.undelivered := by
  obtain ⟨process, ran, seen⟩ := Option.map_eq_some_iff.1 fourDatagrams_run
  exact ⟨process, ran, process_served ran (Prod.mk.inj seen).1⟩

theorem stop_ends_receiving_iff_thirdInHandler :
    ∃ process process', exec (Process.step compact scripted .above) (.start .above mixedConfig) thirdInHandler = some process ∧
      process.step compact scripted .above (.application .control) = some process' ∧
      ((∀ more process'', exec (Process.step compact scripted .above) process' more = some process'' →
          process''.delivered = process'.delivered) ↔
        process.receiver.operation = .outstanding ∨ process.receiver.ended = true) := by
  have here : (exec (Process.step compact scripted .above) (.start .above mixedConfig) thirdInHandler).map
      (fun process => process.application.controller) = some .started := by
    decide +kernel
  obtain ⟨process, ran, first⟩ := Option.map_eq_some_iff.1 here
  have stepped : ∃ process', process.step compact scripted .above (.application .control) = some process' := by
    simp [Process.step, Process.applicationStep, Process.control, Application.step, Application.control, first]
  obtain ⟨process', stepped⟩ := stepped
  exact ⟨process, process', ran, stepped, stop_ends_receiving_iff ran first stepped⟩

end Witness

end DemoExchange.Properties
