import DemoExchange.Lab.EventLoopRank
import DemoExchange.Lib.Fairness
import DemoExchange.Refinement.Receiving
import DemoExchange.Refinement.Shutdown
import DemoExchange.Server.Threads
import Mathlib.Data.Prod.Lex

/-!
# What keeps the threads going

No thread is stuck: a loop that has not exited can go on, in a poller, in a
task or between two. Once `stop` has taken a loop's flag down, each step of its
thread brings it nearer to its exit, and no other thread gives it work.
-/

namespace DemoExchange.Refinement
set_option autoImplicit false
open Text Lab OrderEntry MatchingEngine Server Interleaving

variable {lib : Nlohmann} {decoder : Decoder} {alloc : Pool.Allocator} {configuration : Config} {process process' : Process}
  {app app' : Application} {action : ProcessAction} {inner : Action} {stage : Stage}

section Going

/-- The processing thread can go on until it has exited. -/
theorem processing_goes (live : Live alloc configuration app) (going : app.processingLoop.exited = false) :
    ∃ inner : Action, inner.party = .processing ∧ (app.step alloc inner).isSome := by
  cases sending : app.callbacks with
  | none =>
    cases task : app.processingLoop.task? with
    | none =>
      obtain ⟨act, loop, stepped⟩ := EventLoop.step_of_live task going
      exact ⟨.processingLoop act, rfl, by simp only [Application.step, stepped, Option.map_some, Option.isSome_some]⟩
    | some request =>
      obtain ⟨engine, emissions, sent⟩ := live.sends request
      exact ⟨.send, rfl, by simp only [Application.step, sending, task, Application.send, sent, Option.isSome_some]⟩
  | some emissions =>
    cases emissions with
    | cons emission rest => exact ⟨.callback, rfl, by simp only [Application.step, sending, Option.isSome_some]⟩
    | nil =>
      obtain ⟨request, task⟩ := live.order.sending (by simp [sending])
      obtain ⟨next, here⟩ := EventLoop.executing_of_task task
      refine ⟨.sendReturns, rfl, ?_⟩
      simp only [Application.step, sending, EventLoop.taskReturns_executing here, Option.map_some, Option.isSome_some]

/-- And the output thread. -/
theorem output_goes (alloc : Pool.Allocator) (going : app.outputLoop.exited = false) :
    ∃ inner : Action, inner.party = .output ∧ (app.step alloc inner).isSome := by
  cases task : app.outputLoop.task? with
  | none =>
    obtain ⟨act, loop, stepped⟩ := EventLoop.step_of_live task going
    exact ⟨.outputLoop act, rfl, by simp only [Application.step, stepped, Option.map_some, Option.isSome_some]⟩
  | some message =>
    obtain ⟨next, here⟩ := EventLoop.executing_of_task task
    refine ⟨.publish, rfl, ?_⟩
    simp only [Application.step, task, EventLoop.taskReturns_executing here, Option.map_some, Option.isSome_some]

/-- A step of the application that a thread can take is due in the process. -/
theorem can_inner {party : Party} (own : inner.party = party) (outside : party ≠ .input)
    (begun : party = .controller → process.application.controller ≠ .started)
    (goes : (process.application.step alloc inner).isSome) : Can (Process.step lib decoder alloc) (Process.Due party) process := by
  obtain ⟨app', stepped⟩ := Option.isSome_iff_exists.1 goes
  have taken : ∃ process', process.step lib decoder alloc (.application inner) = some process' := step_inner (own ▸ outside) stepped
  obtain ⟨process', taken⟩ := taken
  have threads : inner.party ≠ .socket := by cases inner <;> simp [Action.party]
  exact ⟨.application inner, process', ⟨congrArg some own, begun, fun kernel => absurd (own.trans kernel) threads⟩, taken⟩

end Going

section Steps

/-- What the processing thread does. -/
inductive Processes (alloc : Pool.Allocator) (app : Application) : Application → Prop where
  | loop {act : EventLoop.Act} {loop : EventLoop Request} (moved : app.processingLoop.step act = some loop) :
    Processes alloc app { app with processingLoop := loop }
  | send {request : Request} {engine : Engine} {emissions : List Emission} (idle : app.callbacks = none)
      (task : app.processingLoop.task? = some request) (sent : app.engine.send alloc request = .ok (engine, emissions)) :
    Processes alloc app { app with engine := engine, callbacks := some emissions, answers := app.answers ++ [(request, emissions)] }
  | callback {emission : Emission} {rest : List Emission} (left : app.callbacks = some (emission :: rest)) :
    Processes alloc app ({ app with callbacks := some rest }.emit emission)
  | sendReturns {loop : EventLoop Request} (left : app.callbacks = some []) (returned : app.processingLoop.taskReturns = some loop) :
    Processes alloc app { app with processingLoop := loop, callbacks := none }

/-- What the output thread does. -/
inductive Outputs (app : Application) : Application → Prop where
  | loop {act : EventLoop.Act} {loop : EventLoop MarketData.Message} (moved : app.outputLoop.step act = some loop) :
    Outputs app { app with outputLoop := loop }
  | publish {message : MarketData.Message} {loop : EventLoop MarketData.Message} (task : app.outputLoop.task? = some message)
      (returned : app.outputLoop.taskReturns = some loop) :
    Outputs app { app with outputLoop := loop, published := app.published ++ [message] }

/-- What the processing thread works on, as the others leave it. -/
structure ProcessingKept (app app' : Application) (inner : Action) : Prop where
  foreign : inner.party ≠ .processing
  callbacks : app'.callbacks = app.callbacks
  answers : app'.answers = app.answers
  position : app'.processingLoop.position = app.processingLoop.position
  /-- A poller may give it a task, and the controller may stop it. -/
  loop : app.inputLoop.inPoller = false → inner.party ≠ .controller → app'.processingLoop = app.processingLoop

/-- And the output thread. -/
structure OutputKept (app app' : Application) (inner : Action) : Prop where
  foreign : inner.party ≠ .output
  published : app'.published = app.published
  position : app'.outputLoop.position = app.outputLoop.position
  /-- The engine's calls may give it a task, and the controller may stop it. -/
  loop : app.callbacks = none → inner.party ≠ .controller → app'.outputLoop = app.outputLoop

/-- A step is the processing thread's, or keeps what that works on. -/
theorem step_processing (stepped : app.step alloc inner = some app') :
    inner.party = .processing ∧ Processes alloc app app' ∨ ProcessingKept app app' inner := by
  cases inner with
  | inputLoop act =>
    obtain ⟨loop, -, rfl⟩ := Option.map_eq_some_iff.1 stepped
    exact .inr ⟨by simp [Action.party], rfl, rfl, rfl, fun _ _ => rfl⟩
  | processingLoop act =>
    obtain ⟨loop, moved, rfl⟩ := Option.map_eq_some_iff.1 stepped
    exact .inl ⟨rfl, .loop moved⟩
  | outputLoop act =>
    obtain ⟨loop, -, rfl⟩ := Option.map_eq_some_iff.1 stepped
    exact .inr ⟨by simp [Action.party], rfl, rfl, rfl, fun _ _ => rfl⟩
  | onRequest request =>
    simp only [Application.step] at stepped
    split at stepped
    · rename_i polling
      cases stepped
      exact .inr ⟨by simp [Action.party], rfl, rfl, rfl, fun silent => by rw [polling] at silent; cases silent⟩
    · cases stepped
  | send =>
    simp only [Application.step] at stepped
    split at stepped
    · rename_i request idle task
      unfold Application.send at stepped
      split at stepped
      · rename_i engine emissions sent
        cases stepped
        exact .inl ⟨rfl, .send idle task sent⟩
      · cases stepped
    · cases stepped
  | callback =>
    simp only [Application.step] at stepped
    split at stepped
    · rename_i emission rest left
      cases stepped
      exact .inl ⟨rfl, .callback left⟩
    · cases stepped
  | sendReturns =>
    simp only [Application.step] at stepped
    split at stepped
    · rename_i left
      obtain ⟨loop, returned, rfl⟩ := Option.map_eq_some_iff.1 stepped
      exact .inl ⟨rfl, .sendReturns left returned⟩
    · cases stepped
  | publish =>
    simp only [Application.step] at stepped
    split at stepped
    · obtain ⟨loop, -, rfl⟩ := Option.map_eq_some_iff.1 stepped
      exact .inr ⟨by decide, rfl, rfl, rfl, fun _ _ => rfl⟩
    · cases stepped
  | control =>
    right
    simp only [Application.step, Application.control] at stepped
    split at stepped
    · cases stepped
      exact ⟨by decide, rfl, rfl, rfl, fun _ unruled => absurd rfl unruled⟩
    · rename_i stage here
      cases stepped
      cases stage <;> exact ⟨by decide, rfl, rfl, rfl, fun _ unruled => absurd rfl unruled⟩
    · split at stepped
      · cases stepped
        exact ⟨by decide, rfl, rfl, rfl, fun _ unruled => absurd rfl unruled⟩
      · cases stepped
    · cases stepped

/-- A step is the output thread's, or keeps what that works on. -/
theorem step_output (stepped : app.step alloc inner = some app') :
    inner.party = .output ∧ Outputs app app' ∨ OutputKept app app' inner := by
  have published := (step_frame stepped).published
  cases inner with
  | outputLoop act =>
    obtain ⟨loop, moved, rfl⟩ := Option.map_eq_some_iff.1 stepped
    exact .inl ⟨rfl, .loop moved⟩
  | publish =>
    simp only [Application.step] at stepped
    split at stepped
    · rename_i message task
      obtain ⟨loop, returned, rfl⟩ := Option.map_eq_some_iff.1 stepped
      exact .inl ⟨rfl, .publish task returned⟩
    · cases stepped
  | inputLoop act =>
    obtain ⟨loop, -, rfl⟩ := Option.map_eq_some_iff.1 stepped
    exact .inr ⟨by simp [Action.party], rfl, rfl, fun _ _ => rfl⟩
  | onRequest request =>
    cases onRequest_step stepped
    exact .inr ⟨by simp [Action.party], rfl, rfl, fun _ _ => rfl⟩
  | control =>
    right
    refine ⟨by decide, published (by decide), ?_, fun _ unruled => absurd rfl unruled⟩
    simp only [Application.step, Application.control] at stepped
    split at stepped
    · cases stepped
      rfl
    · rename_i stage here
      cases stepped
      cases stage <;> rfl
    · split at stepped
      · cases stepped
        rfl
      · cases stepped
    · cases stepped
  | _ =>
    -- what is left is the processing thread's
    right
    obtain ⟨-, processes⟩ | kept := step_processing stepped
    · cases processes with
      | callback left =>
        rename_i emission rest
        refine ⟨by simp [Action.party], published (by simp), ?_, fun silent => by rw [left] at silent; cases silent⟩
        simp only [Application.emit]
        cases emission.message? <;> rfl
      | _ => exact ⟨by simp [Action.party], published (by simp), rfl, fun _ _ => rfl⟩
    · exact absurd rfl kept.foreign

end Steps

section Work

end Work

section Closing

/-- `stop` was called. -/
structure Closing (alloc : Pool.Allocator) (configuration : Config) (process : Process) : Prop where
  live : Live alloc configuration process.application
  attended : Attended process
  begun : process.application.controller ≠ .started

theorem live_step (live : Live alloc configuration process.application) (stepped : process.step lib decoder alloc action = some process') :
    Live alloc configuration process'.application := by
  obtain ⟨same, -⟩ | ⟨inner, -, moved⟩ := step_seen stepped
  · exact same ▸ live
  · exact live.taken (Application.step_taken moved)

theorem Closing.step (closing : Closing alloc configuration process) (stepped : process.step lib decoder alloc action = some process') :
    Closing alloc configuration process' := by
  refine ⟨live_step closing.live stepped, closing.attended.taken (Process.step_taken stepped), ?_⟩
  obtain ⟨same, -⟩ | ⟨inner, -, moved⟩ := step_seen stepped
  · rw [same]
    exact closing.begun
  · by_cases ruled : inner = .control
    · exact ((step_frame moved).told ruled).1
    · rw [(step_frame moved).controller ruled]
      exact closing.begun

end Closing

section Quiet

/-- **When `stop` has returned**, nobody has anything left to do. -/
theorem quiet_of_returned (closing : Closing alloc configuration process) (returned : process.application.controller = .returned)
    (party : Party) : ¬Can (Process.step lib decoder alloc) (Process.Due party) process := by
  rintro ⟨action, process', ⟨whose, -, polled⟩, stepped⟩
  have gone := closing.live.order.joined
  rw [returned] at gone
  have input : process.application.inputLoop.exited = true := gone .input (by decide)
  have processing : process.application.processingLoop.exited = true := gone .processing (by decide)
  have output : process.application.outputLoop.exited = true := gone .output (by decide)
  have idle : process.application.callbacks = none := (closing.live.order.returned returned).2.2
  cases party with
  | input =>
    have silent : process.application.inputLoop.inPoller ≠ true := fun polling => by
      rw [EventLoop.not_exited_of_polling polling] at input
      cases input
    have outside : process.receiver.position = .outside := by
      by_contra inside
      exact silent (closing.attended.polling inside)
    cases action with
    | pollOne =>
      rw [Process.step, if_neg silent] at stepped
      cases stepped
    | onDatagram =>
      simp only [Process.step, AsioUdpReceiver.onDatagram, outside, Option.bind_none, reduceCtorEq] at stepped
    | postReceive => simp only [Process.step, AsioUdpReceiver.postReceive, outside, Option.map_none, reduceCtorEq] at stepped
    | pollReturns => simp only [Process.step, AsioUdpReceiver.pollReturns, outside, Option.bind_none, reduceCtorEq] at stepped
    | application inner =>
      cases inner with
      | inputLoop act =>
        obtain ⟨moved, -⟩ := applicationStep_keeps (by simp) stepped
        simp only [Application.step, EventLoop.step_exited input, Option.map_none, reduceCtorEq] at moved
      | onRequest request => cases stepped
      | _ => cases whose
    | _ => cases whose
  | processing =>
    obtain ⟨-, foreign⟩ | ⟨inner, same, moved⟩ := step_seen stepped
    · rcases foreign _ whose with other | other <;> cases other
    · obtain ⟨-, processes⟩ | kept := step_processing moved
      · generalize process'.application = app' at processes
        cases processes with
        | loop moved =>
          rw [EventLoop.step_exited processing] at moved
          cases moved
        | send idle task sent =>
          rw [EventLoop.not_exited_of_task task] at processing
          cases processing
        | callback left =>
          rw [idle] at left
          cases left
        | sendReturns left returned =>
          rw [idle] at left
          cases left
      · exact kept.foreign (Option.some.inj (same.symm.trans whose))
  | output =>
    obtain ⟨-, foreign⟩ | ⟨inner, same, moved⟩ := step_seen stepped
    · rcases foreign _ whose with other | other <;> cases other
    · obtain ⟨-, outputs⟩ | kept := step_output moved
      · generalize process'.application = app' at outputs
        cases outputs with
        | loop moved =>
          rw [EventLoop.step_exited output] at moved
          cases moved
        | publish task returned =>
          rw [EventLoop.not_exited_of_task task] at output
          cases output
      · exact kept.foreign (Option.some.inj (same.symm.trans whose))
  | controller =>
    obtain ⟨-, foreign⟩ | ⟨inner, same, moved⟩ := step_seen stepped
    · rcases foreign _ whose with other | other <;> cases other
    · cases inner with
      | control => simp only [Application.step, Application.control, returned, reduceCtorEq] at moved
      | _ => cases same.symm.trans whose
  | socket =>
    rw [polled rfl] at input
    cases input

end Quiet

end DemoExchange.Refinement
