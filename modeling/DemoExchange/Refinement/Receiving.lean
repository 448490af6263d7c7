import DemoExchange.Refinement.Process

/-!
# Stopping the receiver

`stop` aborts a receive that is outstanding, and then the receive loop has
ended. If it comes while a datagram is on its way through the handler, or ready
to be, there is nothing to abort: the handler posts the next receive, and as
long as the input loop polls, datagrams are delivered as before.
-/

namespace DemoExchange.Refinement
set_option autoImplicit false
open Text Lab OrderEntry MatchingEngine Server Interleaving

variable {lib : Nlohmann} {decoder : Decoder} {alloc : Pool.Allocator} {configuration : Config} {process process' : Process}

section Ended

/-- **A process whose receive loop has ended** delivers nothing more. -/
theorem delivered_taken (ended : process.receiver.ended = true) (taken : Process.Taken lib decoder alloc process process') :
    process'.receiver.ended = true ∧ process'.delivered = process.delivered := by
  have outside := (AsioUdpReceiver.ended_iff.1 ended).1
  have here : ∀ {datagram receiver}, process.receiver.onDatagram ≠ some (datagram, receiver) := by
    intro datagram receiver given
    rw [AsioUdpReceiver.inHandler, (AsioUdpReceiver.onDatagram_cases given).1] at outside
    cases outside
  refine ⟨?_, ?_⟩
  · rcases receiver_taken taken with same | moved
    · rw [same]
      exact ended
    · exact AsioUdpReceiver.ended_moved ended moved
  · cases taken with
    | onRequest given sent stepped => exact absurd given here
    | onRejected given sent => exact absurd given here
    | dropped given sent => exact absurd given here
    | _ => rfl

theorem delivered_exec (ended : process.receiver.ended = true) {more : List ProcessAction}
    (ran : exec (Process.step lib decoder alloc) process more = some process') : process'.delivered = process.delivered :=
  (exec_invariant (P := fun p => p.receiver.ended = true ∧ p.delivered = process.delivered) ⟨ended, rfl⟩
    (fun _ _ _ kept stepped => by
      obtain ⟨ended', same⟩ := delivered_taken kept.1 (Process.step_taken stepped)
      exact ⟨ended', same.trans kept.2⟩) ran).2

end Ended

section Attended

/-- What a step of the input loop other than the poller's return needs and keeps. -/
theorem inPoller_step {τ : Type} {loop loop' : EventLoop τ} {act : EventLoop.Act} (polling : loop.inPoller = true)
    (stepped : loop.step act = some loop') : ∃ worked, act = .pollerReturns worked := by
  unfold EventLoop.inPoller at polling
  split at polling
  · rename_i left didWork here
    cases act with
    | pollerReturns worked => exact ⟨worked, rfl⟩
    | _ => simp only [EventLoop.step, here, reduceCtorEq] at stepped
  · cases polling

theorem pollers_step {τ : Type} {loop loop' : EventLoop τ} {act : EventLoop.Act} (stepped : loop.step act = some loop') :
    loop'.pollers = loop.pollers := by
  cases (EventLoop.step_moved stepped).2 <;> rfl

/-- The receiver is polled by the poller of the input loop, which runs until it is told to stop. -/
structure Attended (process : Process) : Prop where
  loop : process.application.inputLoop.Sound
  pollers : process.application.inputLoop.pollers = 1
  polling : process.receiver.position ≠ .outside → process.application.inputLoop.inPoller = true
  running : process.application.controller = .started → process.application.inputLoop.running = true

theorem Attended.start (alloc : Pool.Allocator) (configuration : Config) : Attended (.start alloc configuration) :=
  ⟨.start _ _, rfl, fun h => absurd rfl h, fun _ => rfl⟩

/-- The input loop and the controller are where they were. -/
theorem Attended.same (attended : Attended process) (loop : process'.application.inputLoop = process.application.inputLoop)
    (controller : process'.application.controller = process.application.controller)
    (polling : process'.receiver.position ≠ .outside → process.application.inputLoop.inPoller = true) : Attended process' := by
  refine ⟨loop ▸ attended.loop, loop ▸ attended.pollers, fun inside => loop ▸ polling inside, fun started => ?_⟩
  rw [loop]
  exact attended.running (controller ▸ started)

theorem Attended.taken (attended : Attended process) (taken : Process.Taken lib decoder alloc process process') : Attended process' := by
  cases taken with
  | arrive datagram => exact attended.same rfl rfl attended.polling
  | complete stepped =>
    obtain ⟨-, datagram, rest, -, rfl⟩ := AsioUdpReceiver.complete_cases stepped
    exact attended.same rfl rfl attended.polling
  | fail stepped =>
    obtain ⟨-, rfl⟩ := AsioUdpReceiver.fail_cases stepped
    exact attended.same rfl rfl attended.polling
  | pollOne polling stepped => exact attended.same rfl rfl fun _ => polling
  | onRequest given sent stepped =>
    have inside : process.receiver.position ≠ .outside := by rw [(AsioUdpReceiver.onDatagram_cases given).1]; simp
    have frame := step_frame stepped
    exact attended.same (frame.inputLoop (by simp) (by simp)) (frame.controller (by simp)) fun _ => attended.polling inside
  | onRejected given sent =>
    have inside : process.receiver.position ≠ .outside := by rw [(AsioUdpReceiver.onDatagram_cases given).1]; simp
    exact attended.same rfl rfl fun _ => attended.polling inside
  | dropped given sent =>
    have inside : process.receiver.position ≠ .outside := by rw [(AsioUdpReceiver.onDatagram_cases given).1]; simp
    exact attended.same rfl rfl fun _ => attended.polling inside
  | postReceive stepped =>
    have inside : process.receiver.position ≠ .outside := by rw [(AsioUdpReceiver.postReceive_cases stepped).1]; simp
    exact attended.same rfl rfl fun _ => attended.polling inside
  | pollReturns returned stepped =>
    obtain ⟨-, rfl⟩ := AsioUdpReceiver.pollReturns_cases returned
    obtain ⟨loop, moved, rfl⟩ := Option.map_eq_some_iff.1 stepped
    exact ⟨attended.loop.step moved, (pollers_step moved).trans attended.pollers, fun inside => absurd rfl inside,
      fun started => (EventLoop.running_step moved).trans (attended.running started)⟩
  | publish task stepped =>
    have frame := step_frame stepped
    exact attended.same (frame.inputLoop (by simp) (by simp)) (frame.controller (by simp)) attended.polling
  | control stepped =>
    obtain ⟨later, same⟩ := (step_frame stepped).told rfl
    have inside : ∀ {receiver : AsioUdpReceiver},
        receiver = (if process.application.controller = .started then process.receiver.stop else process.receiver) →
          receiver.position = process.receiver.position := by
      rintro _ rfl
      split
      · obtain ⟨-, same⟩ | ⟨-, same⟩ := AsioUdpReceiver.stop_cases process.receiver <;> rw [same]
      · rfl
    have polling := fun out => attended.polling (inside rfl ▸ out)
    rcases same with same | same
    · exact ⟨same ▸ attended.loop, same ▸ attended.pollers, fun out => same ▸ polling out, fun started => absurd started later⟩
    · exact ⟨same ▸ attended.loop.stop, same ▸ attended.pollers, fun out => same ▸ polling out, fun started => absurd started later⟩
  | other own own' quiet unruled stepped =>
    rename_i action application
    have frame := step_frame stepped
    by_cases input : ∃ act, action = .inputLoop act
    · obtain ⟨act, rfl⟩ := input
      obtain ⟨loop, moved, rfl⟩ := Option.map_eq_some_iff.1 stepped
      refine ⟨attended.loop.step moved, (pollers_step moved).trans attended.pollers, fun inside => ?_,
        fun started => (EventLoop.running_step moved).trans (attended.running started)⟩
      obtain ⟨worked, rfl⟩ := inPoller_step (attended.polling inside) moved
      exact absurd rfl (own' worked)
    · exact attended.same (frame.inputLoop (fun act same => input ⟨act, same⟩) unruled) (frame.controller unruled) attended.polling

theorem attended_run {actions : List ProcessAction}
    (ran : exec (Process.step lib decoder alloc) (.start alloc configuration) actions = some process) : Attended process :=
  exec_invariant (Attended.start alloc configuration) (fun _ _ _ attended stepped => attended.taken (Process.step_taken stepped)) ran

end Attended

section Delivering

/-- Some way of going on delivers a datagram. -/
def Delivers (lib : Nlohmann) (decoder : Decoder) (alloc : Pool.Allocator) (process : Process) : Prop :=
  ∃ process', Reaches (Process.step lib decoder alloc) process process' ∧ process.delivered.length < process'.delivered.length

theorem Delivers.head {action : ProcessAction} (stepped : process.step lib decoder alloc action = some process')
    (same : process'.delivered = process.delivered) (later : Delivers lib decoder alloc process') : Delivers lib decoder alloc process := by
  obtain ⟨last, reached, more⟩ := later
  exact ⟨last, .head stepped reached, same ▸ more⟩

/-- The handler delivers its datagram. -/
theorem delivers_handler {datagram : Bytes} (polling : process.application.inputLoop.inPoller = true)
    (here : process.receiver.position = .onDatagram datagram) : Delivers lib decoder alloc process := by
  have given : process.receiver.onDatagram = some (datagram, { process.receiver with position := .postReceive }) := by
    rw [AsioUdpReceiver.onDatagram, here]
  have stepped : process.step lib decoder alloc .onDatagram =
      process.onDatagram decoder alloc datagram { process.receiver with position := .postReceive } := by
    rw [Process.step, given]
    rfl
  suffices went : ∃ process', process.onDatagram decoder alloc datagram { process.receiver with position := .postReceive } = some process' ∧
      process'.delivered = process.delivered ++ [datagram] by
    obtain ⟨process', went, more⟩ := went
    exact ⟨process', .single (stepped.trans went), by simp [more]⟩
  unfold Process.onDatagram
  cases sent : Session.send decoder datagram with
  | none => exact ⟨_, rfl, rfl⟩
  | some event =>
    cases event with
    | onRequest request =>
      have handed : process.application.step alloc (.onRequest request) = some (process.application.onRequest request) := by
        rw [Application.step, if_pos polling]
      simp only [handed, Option.map_some]
      exact ⟨_, rfl, rfl⟩
    | onRejected rejection => exact ⟨_, rfl, rfl⟩

/-- A datagram that is ready is delivered when it is polled for. -/
theorem delivers_polled {datagram : Bytes} (polling : process.application.inputLoop.inPoller = true)
    (outside : process.receiver.position = .outside) (ready : process.receiver.operation = .received datagram) :
    Delivers lib decoder alloc process := by
  have polled : process.step lib decoder alloc .pollOne =
      some { process with receiver := { process.receiver with operation := .none, position := .onDatagram datagram } } := by
    simp only [Process.step, polling, if_true, AsioUdpReceiver.pollOne, outside, ready, Option.map_some]
  exact .head polled rfl (delivers_handler polling rfl)

/-- A step of the input loop that is not its poller's. -/
theorem step_input {act : EventLoop.Act} {loop : EventLoop Empty} (own : ∀ worked, act ≠ .pollerReturns worked)
    (stepped : process.application.inputLoop.step act = some loop) :
    process.step lib decoder alloc (.application (.inputLoop act)) =
      some { process with application := { process.application with inputLoop := loop } } := by
  have moved : process.application.step alloc (.inputLoop act) = some { process.application with inputLoop := loop } := by
    simp only [Application.step, stepped, Option.map_some]
  cases act with
  | pollerReturns worked => exact absurd rfl (own worked)
  | _ => exact congrArg (Option.map _) moved

/-- The input loop comes to poll, wherever it stands. -/
theorem delivers_ready {datagram : Bytes} (attended : Attended process) (running : process.application.inputLoop.running = true)
    (outside : process.receiver.position = .outside) (ready : process.receiver.operation = .received datagram) :
    Delivers lib decoder alloc process := by
  have dequeuing : ∀ {process : Process} {didWork : Bool}, process.application.inputLoop.position = .dequeue didWork →
      process.application.inputLoop.pollers = 1 → process.receiver.position = .outside →
        process.receiver.operation = .received datagram → Delivers lib decoder alloc process := by
    intro process didWork here pollers outside ready
    refine .head (step_input (by simp) (EventLoop.step_dequeue here)) rfl (delivers_polled ?_ outside ready)
    unfold EventLoop.dequeue EventLoop.inPoller
    cases queue : process.application.inputLoop.taskQueue with
    | nil => simp [pollers]
    | cons task rest => exact task.elim
  have entering : ∀ {process : Process}, process.application.inputLoop.position = .enter →
      process.application.inputLoop.running = true → process.application.inputLoop.pollers = 1 →
        process.receiver.position = .outside → process.receiver.operation = .received datagram → Delivers lib decoder alloc process := by
    intro process here running pollers outside ready
    refine .head (step_input (by simp) (EventLoop.step_enter here)) rfl (dequeuing (if_pos running) pollers outside ready)
  have waiting : ∀ {process : Process}, process.application.inputLoop.position = .wait →
      process.application.inputLoop.running = true → process.application.inputLoop.pollers = 1 →
        process.receiver.position = .outside → process.receiver.operation = .received datagram → Delivers lib decoder alloc process := by
    intro process here running pollers outside ready
    exact .head (step_input (by simp) (EventLoop.step_wait here)) rfl (entering rfl running pollers outside ready)
  have pollers := attended.pollers
  have past : ¬process.application.inputLoop.position.past := fun past => by
    rw [attended.loop.past past] at running
    cases running
  cases here : process.application.inputLoop.position with
  | enter => exact entering here running pollers outside ready
  | dequeue didWork => exact dequeuing here pollers outside ready
  | executing task next => exact task.elim
  | polling left didWork =>
    cases left with
    | succ left => exact delivers_polled (by rw [EventLoop.inPoller, here]) outside ready
    | zero =>
      refine .head (step_input (by simp) (EventLoop.step_pollersDone here)) rfl ?_
      rcases EventLoop.idle_cases process.application.inputLoop didWork with idle | idle
      · exact entering idle running pollers outside ready
      · exact waiting idle running pollers outside ready
  | wait => exact waiting here running pollers outside ready
  | drain => exact absurd (by rw [here]; trivial) past
  | exited => exact absurd (by rw [here]; trivial) past

/-- A poll that is under way returns, and a datagram that is ready is found by the next. -/
theorem delivers_returning {datagram : Bytes} {worked : Bool} (attended : Attended process)
    (running : process.application.inputLoop.running = true) (here : process.receiver.position = .returning worked)
    (ready : process.receiver.operation = .received datagram) : Delivers lib decoder alloc process := by
  have polling := attended.polling (by rw [here]; simp)
  unfold EventLoop.inPoller at polling
  split at polling
  · rename_i left didWork position
    have stepped : process.step lib decoder alloc .pollReturns =
        some { process with
          application := { process.application with
            inputLoop := { process.application.inputLoop with position := .polling left (worked || didWork) } }
          receiver := { process.receiver with position := .outside } } := by
      simp only [Process.step, AsioUdpReceiver.pollReturns, here, Option.bind_some, Application.step,
        EventLoop.step_poller position worked, Option.map_some]
    exact .head stepped rfl (delivers_ready (attended.taken (Process.step_taken stepped)) running rfl ready)
  · cases polling

/-- A receive that is outstanding completes when there is a datagram. -/
theorem delivers_outstanding {worked : Bool} {first : Bytes} {rest : List Bytes} (attended : Attended process)
    (running : process.application.inputLoop.running = true) (here : process.receiver.position = .returning worked)
    (posted : process.receiver.operation = .outstanding) (buffer : process.receiver.socketBuffer = first :: rest) :
    Delivers lib decoder alloc process := by
  have completed : process.step lib decoder alloc .complete =
      some { process with
        receiver := { process.receiver with socketBuffer := rest, operation := .received (AsioUdpReceiver.cut first) } } := by
    simp only [Process.step, AsioUdpReceiver.complete, posted, buffer, Option.map_some]
    rfl
  exact .head completed rfl (delivers_returning (attended.taken (Process.step_taken completed)) running here rfl)

/-- The handler posts a receive, and a datagram may arrive. -/
theorem delivers_posting (attended : Attended process) (running : process.application.inputLoop.running = true)
    (here : process.receiver.position = .postReceive) : Delivers lib decoder alloc process := by
  have arrived : process.step lib decoder alloc (.arrive []) =
      some { process with receiver := process.receiver.arrive [], arrived := process.arrived ++ [[]] } := rfl
  have attended' := attended.taken (Process.step_taken arrived)
  refine .head arrived rfl ?_
  generalize some' : { process with receiver := process.receiver.arrive [], arrived := process.arrived ++ [[]] } = next at attended' ⊢
  have position : next.receiver.position = .postReceive := by subst some'; exact here
  obtain ⟨first, rest, buffer⟩ : ∃ first rest, next.receiver.socketBuffer = first :: rest := by
    subst some'
    exact List.exists_cons_of_ne_nil (by simp [AsioUdpReceiver.arrive])
  have posted : next.step lib decoder alloc .postReceive =
      some { next with receiver := { next.receiver with operation := .outstanding, position := .returning true } } := by
    simp only [Process.step, AsioUdpReceiver.postReceive, position, Option.map_some]
  refine .head posted rfl (delivers_outstanding (attended'.taken (Process.step_taken posted)) ?_ rfl rfl buffer)
  subst some'
  exact running

/-- A datagram may be delivered as long as a handler runs or is ready to. -/
theorem delivers_open (attended : Attended process)
    (running : process.application.inputLoop.running = true) (posted : process.receiver.operation ≠ .outstanding)
    (open' : process.receiver.ended = false) : Delivers lib decoder alloc process := by
  have received : process.receiver.inHandler = false → ∃ datagram, process.receiver.operation = .received datagram := by
    intro outside
    cases here : process.receiver.operation with
    | none => rw [AsioUdpReceiver.ended_iff.2 ⟨outside, .inl here⟩] at open'; cases open'
    | outstanding => exact absurd here posted
    | received datagram => exact ⟨datagram, rfl⟩
    | failed => rw [AsioUdpReceiver.ended_iff.2 ⟨outside, .inr here⟩] at open'; cases open'
  cases here : process.receiver.position with
  | outside =>
    obtain ⟨datagram, ready⟩ := received (by rw [AsioUdpReceiver.inHandler, here])
    exact delivers_ready attended running here ready
  | onDatagram datagram => exact delivers_handler (attended.polling (by rw [here]; simp)) here
  | postReceive => exact delivers_posting attended running here
  | returning worked =>
    obtain ⟨datagram, ready⟩ := received (by rw [AsioUdpReceiver.inHandler, here])
    exact delivers_returning attended running here ready

/-- The first step of `application::stop` stops the receiver and not yet the input loop. -/
theorem control_started (first : process.application.controller = .started)
    (stepped : process.step lib decoder alloc (.application .control) = some process') :
    process'.receiver = process.receiver.stop ∧ process'.application.inputLoop = process.application.inputLoop := by
  obtain ⟨application, moved, rfl⟩ := Option.map_eq_some_iff.1 stepped
  simp only [Application.step, Application.control, first] at moved
  cases moved
  exact ⟨if_pos first, rfl⟩

end Delivering

end DemoExchange.Refinement
