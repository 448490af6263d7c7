import DemoExchange.Server.Process

/-!
# Whose step is whose

Three loops have a thread each, a fourth thread calls `application::stop`, and
the kernel completes a receive for which there is a datagram. That a datagram
arrives or a receive fails is nobody's turn, and neither is the call of `stop`.
asio completes a receive from within `poll_one`, so once the input loop has
exited nobody has to.
-/

namespace DemoExchange.Server
set_option autoImplicit false
open Text Lab OrderEntry

inductive Party where
  | input
  | processing
  | output
  | controller
  | socket
  deriving DecidableEq, Repr

/-- The thread that a stage's loop runs in. -/
def Stage.party : Stage → Party
  | .input => .input
  | .processing => .processing
  | .output => .output

/-- The thread that takes a step of the application. -/
def Action.party : Action → Party
  | .inputLoop _ => .input
  | .onRequest _ => .input
  | .processingLoop _ => .processing
  | .send => .processing
  | .callback => .processing
  | .sendReturns => .processing
  | .outputLoop _ => .output
  | .publish => .output
  | .control => .controller

/-- Who takes a step of the process. A handler runs in the thread that polls. -/
def ProcessAction.party? : ProcessAction → Option Party
  | .arrive _ => none
  | .complete => some .socket
  | .fail => none
  | .pollOne => some .input
  | .onDatagram => some .input
  | .postReceive => some .input
  | .pollReturns => some .input
  | .application action => some action.party

/-- The steps that a party takes sooner or later when it can. Nobody has to call
`stop`; once it is called, its thread goes on. A receive is completed as long as
the loop that polls goes on. -/
def Process.Due (party : Party) (process : Process) (action : ProcessAction) : Prop :=
  action.party? = some party ∧ (party = .controller → process.application.controller ≠ .started) ∧
    (party = .socket → process.application.inputLoop.exited = false)

variable {lib : Nlohmann} {decoder : Decoder} {alloc : Pool.Allocator} {process process' : Process}

/-- A step of the application leaves the socket's side alone, unless it is the controller's. -/
theorem applicationStep_keeps {inner : Action} (unruled : inner ≠ .control)
    (stepped : process.applicationStep lib alloc inner = some process') :
    process.application.step alloc inner = some process'.application ∧ process'.receiver = process.receiver ∧
      process'.delivered = process.delivered := by
  unfold Process.applicationStep at stepped
  split at stepped
  · cases stepped
  · cases stepped
  · simp only [Process.publish] at stepped
    split at stepped
    · obtain ⟨application, moved, rfl⟩ := Option.map_eq_some_iff.1 stepped
      exact ⟨moved, rfl, rfl⟩
    · cases stepped
  · exact absurd rfl unruled
  · obtain ⟨application, moved, rfl⟩ := Option.map_eq_some_iff.1 stepped
    exact ⟨moved, rfl, rfl⟩

theorem control_step (stepped : process.control alloc = some process') :
    process.application.step alloc .control = some process'.application := by
  obtain ⟨application, moved, rfl⟩ := Option.map_eq_some_iff.1 stepped
  exact moved

/-- A step of the process outside its socket is one of the application, of the same party. -/
theorem step_seen {action : ProcessAction} (stepped : process.step lib decoder alloc action = some process') :
    (process'.application = process.application ∧ ∀ party, action.party? = some party → party = .input ∨ party = .socket) ∨
      ∃ inner : Action, action.party? = some inner.party ∧ process.application.step alloc inner = some process'.application := by
  cases action with
  | arrive datagram =>
    cases stepped
    exact .inl ⟨rfl, fun _ same => by cases same⟩
  | complete =>
    obtain ⟨receiver, -, rfl⟩ := Option.map_eq_some_iff.1 stepped
    exact .inl ⟨rfl, fun _ same => .inr (Option.some.inj same).symm⟩
  | fail =>
    obtain ⟨receiver, -, rfl⟩ := Option.map_eq_some_iff.1 stepped
    exact .inl ⟨rfl, fun _ same => by cases same⟩
  | pollOne =>
    simp only [Process.step] at stepped
    split at stepped
    · obtain ⟨receiver, -, rfl⟩ := Option.map_eq_some_iff.1 stepped
      exact .inl ⟨rfl, fun _ same => .inl (Option.some.inj same).symm⟩
    · cases stepped
  | onDatagram =>
    obtain ⟨⟨datagram, receiver⟩, -, stepped⟩ := Option.bind_eq_some_iff.1 stepped
    simp only [Process.onDatagram] at stepped
    split at stepped
    · obtain ⟨application, moved, rfl⟩ := Option.map_eq_some_iff.1 stepped
      exact .inr ⟨_, rfl, moved⟩
    · cases stepped
      exact .inl ⟨rfl, fun _ same => .inl (Option.some.inj same).symm⟩
    · cases stepped
      exact .inl ⟨rfl, fun _ same => .inl (Option.some.inj same).symm⟩
  | postReceive =>
    obtain ⟨receiver, -, rfl⟩ := Option.map_eq_some_iff.1 stepped
    exact .inl ⟨rfl, fun _ same => .inl (Option.some.inj same).symm⟩
  | pollReturns =>
    obtain ⟨⟨worked, receiver⟩, -, stepped⟩ := Option.bind_eq_some_iff.1 stepped
    obtain ⟨application, moved, rfl⟩ := Option.map_eq_some_iff.1 stepped
    exact .inr ⟨_, rfl, moved⟩
  | application inner =>
    refine .inr ⟨inner, rfl, ?_⟩
    by_cases ruled : inner = .control
    · subst ruled
      exact control_step stepped
    · exact (applicationStep_keeps ruled stepped).1

/-- A step of the application that no handler takes is one of the process. -/
theorem step_inner {inner : Action} {application : Application} (own : inner.party ≠ .input)
    (stepped : process.application.step alloc inner = some application) :
    ∃ process', process.step lib decoder alloc (.application inner) = some process' := by
  have other : ∃ process', (process.application.step alloc inner).map
      (fun application => ({ process with application } : Process)) = some process' := by
    rw [stepped]
    exact ⟨_, rfl⟩
  cases inner with
  | inputLoop act => exact absurd rfl own
  | onRequest request => exact absurd rfl own
  | publish =>
    cases task : process.application.outputLoop.task? with
    | none =>
      simp only [Application.step, task] at stepped
      cases stepped
    | some message =>
      simp only [Process.step, Process.applicationStep, Process.publish, task, stepped, Option.map_some]
      exact ⟨_, rfl⟩
  | control =>
    simp only [Process.step, Process.applicationStep, Process.control, stepped, Option.map_some]
    exact ⟨_, rfl⟩
  | processingLoop act => exact other
  | outputLoop act => exact other
  | send => exact other
  | callback => exact other
  | sendReturns => exact other

end DemoExchange.Server
