import DemoExchange.Properties.Process
import DemoExchange.Refinement.Lifecycle

/-!
# From the constructor to the destructor

Whatever the owner of an application calls, however its starts fail and
however the threads take turns: no thread uses a member that is not there, but
that the destructor may come to a receiver whose `io_context` was replaced; what
is on stdout is what a sequential program prints; and only the first call of
`start` can succeed.
-/

namespace DemoExchange.Properties
set_option autoImplicit false
open Text Lab OrderEntry MatchingEngine Server Refinement Interleaving

section Lives

variable {lib : Nlohmann} {decoder : Decoder} {alloc : Pool.Allocator} {configuration : Config} {receiver : Backend}
  {lifecycle : Lifecycle} {actions : List LifecycleAction}

/-- A thread that exited is in no poller and in no task. -/
theorem inPoller_exited {τ : Type} {loop : EventLoop τ} (exited : loop.exited = true) : loop.inPoller = false := by
  rw [EventLoop.inPoller, EventLoop.exited_iff.1 exited]

theorem task_exited {τ : Type} {loop : EventLoop τ} (exited : loop.exited = true) : loop.task? = none := by
  rw [EventLoop.task?, EventLoop.exited_iff.1 exited]
  rfl

/-- When all threads have exited nothing is used. -/
theorem unused_of_exited (exited : ∀ stage, lifecycle.process.application.exited stage = true) (member : Member) :
    ¬lifecycle.Uses member := by
  have input : lifecycle.process.application.inputLoop.exited = true := exited .input
  have processing : lifecycle.process.application.processingLoop.exited = true := exited .processing
  have output : lifecycle.process.application.outputLoop.exited = true := exited .output
  cases member with
  | ioContext => simp [Lifecycle.Uses, inPoller_exited input]
  | orderEntry => simp [Lifecycle.Uses, inPoller_exited input]
  | engine => simp [Lifecycle.Uses, task_exited processing]
  | publisher => simp [Lifecycle.Uses, task_exited output]
  | loop stage =>
    cases stage with
    | input => simp [Lifecycle.Uses, input]
    | processing => simp [Lifecycle.Uses, processing, inPoller_exited input]
    | output => simp [Lifecycle.Uses, output, task_exited processing]

/-- Before the input loop runs, a thread uses its loop and nothing else. -/
theorem used_waiting (waits : Waits configuration lifecycle) {member : Member} (used : lifecycle.Uses member) :
    ∃ stage ∈ lifecycle.launched, member = .loop stage ∧ lifecycle.process.application.exited stage = false := by
  have input := waits.quiet.input
  have processing := no_task waits.quiet.processing
  have output := no_task waits.quiet.output
  cases member with
  | ioContext => simp [Lifecycle.Uses, input.inPoller] at used
  | orderEntry => simp [Lifecycle.Uses, input.inPoller] at used
  | engine => simp [Lifecycle.Uses, processing] at used
  | publisher => simp [Lifecycle.Uses, output] at used
  | loop stage =>
    cases stage with
    | input => simp [Lifecycle.Uses, input.exited] at used
    | processing =>
      simp only [Lifecycle.Uses, input.inPoller, Bool.false_eq_true, or_false] at used
      refine ⟨.processing, ?_, rfl, used⟩
      by_contra absent
      rw [waits.processing absent] at used
      cases used
    | output =>
      simp only [Lifecycle.Uses, processing, reduceCtorEq, exists_false, or_false] at used
      refine ⟨.output, ?_, rfl, used⟩
      by_contra absent
      rw [waits.output absent] at used
      cases used

/-- While the application is started every member is there to be used. -/
theorem ready_started (called : Called receiver lifecycle) (serves : Serves lib decoder alloc configuration lifecycle)
    (there : Bound lifecycle) (member : Member) : lifecycle.Ready member := by
  obtain ⟨-, -, engine, publisher⟩ := called.after there.set
  cases member with
  | ioContext => exact there.there
  | orderEntry => exact ⟨there.set, there.there, there.borrowed, there.bound⟩
  | engine => exact engine
  | publisher => exact publisher
  | loop stage => exact serves.launched stage

/-- What a loop's thread uses was set up and is not destroyed. -/
theorem ready_of_used (called : Called receiver lifecycle) (stands : Stands lib decoder alloc configuration lifecycle) (member : Member)
    (used : lifecycle.Uses member) : lifecycle.Ready member ∧ member ∉ lifecycle.destroyed := by
  have waiting : Waits configuration lifecycle →
      (∀ stage, .loop stage ∈ lifecycle.destroyed → lifecycle.process.application.exited stage = true) →
        lifecycle.Ready member ∧ member ∉ lifecycle.destroyed := by
    intro waits gone
    obtain ⟨stage, live, rfl, running⟩ := used_waiting waits used
    exact ⟨live, fun there => absurd ((gone stage there).symm.trans running) (by decide)⟩
  have none : lifecycle.destroyed = [] →
      ∀ stage, .loop stage ∈ lifecycle.destroyed → lifecycle.process.application.exited stage = true :=
    fun whole stage there => absurd (whole ▸ there) List.not_mem_nil
  have resting : Rests lib decoder alloc configuration lifecycle →
      (∀ stage, .loop stage ∈ lifecycle.destroyed → lifecycle.process.application.exited stage = true) →
        lifecycle.Ready member ∧ member ∉ lifecycle.destroyed := by
    intro rests gone
    rcases rests with waits | ⟨serves, returned⟩
    · exact waiting waits gone
    · exact absurd used (unused_of_exited (fun stage => (serves.gone returned stage).1) member)
  cases stands with
  | fresh here unset launched same unbound flag whole => exact waiting (waits_new same launched) (none whole)
  | binding here launched waits ready wired set unbound flag whole => exact waiting waits (none whole)
  | launching here launched waits reached wired there flag whole => exact waiting waits (none whole)
  | started here serves there flag whole => exact ⟨ready_started called serves there member, by simp [whole]⟩
  | resting here set rests flag whole => exact resting rests (none whole)
  | ending here rests flag gone => exact resting rests gone

/-- In `stop` every member is there to be used. -/
theorem ready_of_stopping (called : Called receiver lifecycle) (stands : Stands lib decoder alloc configuration lifecycle)
    {destructing : Bool} (stopping : lifecycle.owner = .stopping destructing) (member : Member) : lifecycle.Ready member := by
  cases stands with
  | started here serves there flag whole => exact ready_started called serves there member
  | _ => simp_all

/-- Only a session that was set up for asio holds a receiver. -/
theorem asio_of_receiver (called : Called receiver lifecycle) (some : lifecycle.session.asioReceiver.isSome = true) :
    receiver = .asioUdp ∧ lifecycle.session.isSetUp = true := by
  have set : lifecycle.session.isSetUp = true := by
    by_contra unset
    rw [(called.before (Bool.eq_false_iff.2 unset)).1] at some
    cases some
  refine ⟨?_, set⟩
  rw [(called.after set).1] at some
  cases receiver with
  | asioUdp => rfl
  | efViUdp => cases some

/-- **No use before setup, none after destruction.** What a loop's thread uses
was set up by `start` and is not destroyed. What the owner's thread uses in
`start`, in `stop` and in the destructor is not destroyed, and in `stop` it was
set up. When a thread uses the asio receiver the `io_context` is there, and it
is the one that the receiver was made with, except when the destructor comes to
a receiver whose `io_context` a later call of `start` has replaced. -/
theorem members_outlive_threads
    (ran : exec (Lifecycle.step lib decoder alloc) (.new receiver alloc configuration) actions = some lifecycle) :
    (∀ member, lifecycle.Uses member → lifecycle.Ready member ∧ member ∉ lifecycle.destroyed) ∧
      (∀ member, lifecycle.OwnerUses member →
        member ∉ lifecycle.destroyed ∧ ∀ destructing, lifecycle.owner = .stopping destructing → lifecycle.Ready member) ∧
      (lifecycle.UsesReceiver → .ioContext ∉ lifecycle.destroyed ∧
        (lifecycle.session.asioReceiver = lifecycle.ioContext ↔
          ¬(lifecycle.Destroys .orderEntry ∧ .error RuntimeSession.alreadySetUp ∈ lifecycle.results))) := by
  obtain ⟨called, ordered, stands⟩ := stands_run ran
  refine ⟨ready_of_used called stands, fun member used =>
    ⟨ordered.absent (ordered.used member used), fun _ stopping => ready_of_stopping called stands stopping member⟩, ?_⟩
  rintro ⟨some, uses⟩
  obtain ⟨rfl, set⟩ := asio_of_receiver called some
  constructor
  · obtain polls | owns := uses
    · exact (ready_of_used called stands .ioContext polls).2
    · exact ordered.absent (ordered.used .ioContext (.inl owns))
  by_cases destroys : lifecycle.Destroys .orderEntry
  · simpa [destroys] using called.borrowed_iff set
  -- Where the owner's thread is elsewhere no later call of `start` has come in between.
  refine iff_of_true ?_ fun both => destroys both.1
  obtain polls | binding | ⟨⟨destructing, stopping⟩, -⟩ | here := uses
  · exact (ready_of_used called stands .orderEntry polls).1.2.2.1
  · refine (called.borrowed_iff set).2 ?_
    rw [(called.first (.inl binding)).1]
    exact List.not_mem_nil
  · exact (ready_of_stopping called stands stopping .orderEntry).2.2.1
  · exact absurd here destroys

/-- What `start` and `stop` promise of stdout. -/
structure Prints (lib : Nlohmann) (decoder : Decoder) (configuration : Config) (process : Process) : Prop where
  delivered : process.delivered <+: process.arrived.map AsioUdpReceiver.cut
  rejected : process.rejected = process.delivered.filterMap (rejectedOf decoder)
  stdout : process.stdout <+: serve lib decoder configuration.matchingEngine process.delivered

theorem Serves.prints (serves : Serves lib decoder alloc configuration lifecycle) : Prints lib decoder configuration lifecycle.process := by
  obtain ⟨actions', ran'⟩ := serves.reached
  have chained := (chained_run ran').1
  exact ⟨⟨_, chained.socket.symm⟩, chained.rejected, stdout_lags ran'⟩

theorem Waits.prints (waits : Waits configuration lifecycle) : Prints lib decoder configuration lifecycle.process ∧
    lifecycle.process.stdout = serve lib decoder configuration.matchingEngine lifecycle.process.delivered := by
  obtain ⟨-, -, -, -, -, delivered, rejected, stdout⟩ := waits.quiet
  refine ⟨⟨?_, ?_, ?_⟩, ?_⟩
  · rw [delivered]
    exact List.nil_prefix
  · rw [delivered, rejected]
    rfl
  · rw [stdout]
    exact List.nil_prefix
  · rw [delivered, stdout]
    rfl

/-- **What is on stdout**, from the constructor to the destructor: the beginning
of what a sequential program prints for the datagrams delivered, and all of it
when the application is not started, be it that no start has succeeded, that
`stop` has returned or that the destructor is past its own `stop`. -/
theorem lifecycle_serves
    (ran : exec (Lifecycle.step lib decoder alloc) (.new receiver alloc configuration) actions = some lifecycle) :
    Prints lib decoder configuration lifecycle.process ∧
      (lifecycle.started = false →
        lifecycle.process.stdout = serve lib decoder configuration.matchingEngine lifecycle.process.delivered) := by
  have resting : Rests lib decoder alloc configuration lifecycle → Prints lib decoder configuration lifecycle.process ∧
      (lifecycle.started = false →
        lifecycle.process.stdout = serve lib decoder configuration.matchingEngine lifecycle.process.delivered) := by
    rintro (waits | ⟨serves, returned⟩)
    · exact (Waits.prints waits).imp id fun printed _ => printed
    · obtain ⟨actions', ran'⟩ := serves.reached
      exact ⟨Serves.prints serves, fun _ => stdout_all ran' returned⟩
  cases (stands_run ran).2.2 with
  | fresh here unset launched same unbound flag whole => exact resting (.inl (waits_new same launched))
  | binding here launched waits ready wired set unbound flag whole => exact resting (.inl waits)
  | launching here launched waits reached wired there flag whole => exact resting (.inl waits)
  | started here serves there flag whole => exact ⟨Serves.prints serves, fun idle => absurd (flag.symm.trans idle) (by decide)⟩
  | resting here set rests flag whole => exact resting rests
  | ending here rests flag gone => exact resting rests

/-- **One start.** Every call of `start` after the first is refused, an
application with the ef_vi backend never gets started, and the `io_context`
under the asio receiver is the application's until a call of `start` that finds
the application stopped, or not started, after the first has replaced it. -/
theorem start_succeeds_once
    (ran : exec (Lifecycle.step lib decoder alloc) (.new receiver alloc configuration) actions = some lifecycle) :
    (∀ result ∈ lifecycle.results.tail, StartRefused result) ∧
      (receiver = .efViUdp → lifecycle.started = false) ∧
      (receiver = .asioUdp → lifecycle.session.isSetUp = true →
        (lifecycle.session.asioReceiver = lifecycle.ioContext ↔ .error RuntimeSession.alreadySetUp ∉ lifecycle.results)) := by
  obtain ⟨called, -, stands⟩ := stands_run ran
  refine ⟨called.refused, fun stub => ?_, fun asio set => ?_⟩
  · rw [Bool.eq_false_iff]
    intro started
    cases stands with
    | started here serves there flag whole =>
      have borrowed := there.borrowed
      rw [(called.after there.set).1, stub] at borrowed
      have context := there.there
      rw [← borrowed] at context
      cases context
    | _ => simp_all
  · subst asio
    exact called.borrowed_iff set

end Lives

section Witness

/-- The steps of `stop` are the owner's. -/
def lived : ProcessAction → LifecycleAction
  | .application .control => .control
  | action => .process action

def startUp : List LifecycleAction := [.start, .bind .bound, .launch none, .launch none, .launch none]

/-- The third datagram is in its handler, in the input loop's poller. -/
def handling : List LifecycleAction := startUp ++ thirdInHandler.map lived

/-- The destructor comes while the handler runs, and goes through. -/
def wholeLife : List LifecycleAction := startUp ++ [.destruct] ++ fourDatagrams.map lived ++ [.stopReturns] ++ List.replicate 10 .destroy

/-- `start` is called once more after `stop` has returned. -/
def secondStart : List LifecycleAction := startUp ++ [.stop] ++ fourDatagrams.map lived ++ [.stopReturns, .start]

/-- After that the destructor has come to the session. -/
def lateDestruction : List LifecycleAction := secondStart ++ [.destruct, .destroy, .destroy]

/-- The output loop runs alone, since making the next thread throws. -/
def outputAlone : List LifecycleAction := [.start, .bind .bound, .launch none, .launch (some []), .start]

theorem wholeLife_run :
    (exec (Lifecycle.step compact scripted .above) (.new .asioUdp .above mixedConfig) wholeLife).map
        (fun lifecycle => (lifecycle.owner, lifecycle.started, lifecycle.process.delivered.length)) =
      some (.destroying [], false, 3) := by
  decide +kernel

theorem handling_run :
    (exec (Lifecycle.step compact scripted .above) (.new .asioUdp .above mixedConfig) handling).map
        (fun lifecycle => (lifecycle.process.application.inputLoop.inPoller, lifecycle.session.asioReceiver.isSome, lifecycle.owner)) =
      some (true, true, .outside) := by
  decide +kernel

theorem lateDestruction_run :
    (exec (Lifecycle.step compact scripted .above) (.new .asioUdp .above mixedConfig) lateDestruction).map
        (fun lifecycle => (lifecycle.owner, lifecycle.session.asioReceiver, lifecycle.ioContext)) =
      some (.destroying [.orderEntry, .loop .output, .loop .processing, .loop .input, .ioContext], some 1, some 2) := by
  decide +kernel

theorem outputAlone_run :
    (exec (Lifecycle.step compact scripted .above) (.new .asioUdp .above mixedConfig) outputAlone).map
        (fun lifecycle => (lifecycle.process.application.outputLoop.exited, lifecycle.session.asioReceiver, lifecycle.ioContext)) =
      some (false, some 1, some 2) := by
  decide +kernel

theorem secondStart_run :
    (exec (Lifecycle.step compact scripted .above) (.new .asioUdp .above mixedConfig) secondStart).map
        (fun lifecycle => (lifecycle.session.isSetUp, lifecycle.session.asioReceiver, lifecycle.ioContext)) =
      some (true, some 1, some 2) := by
  decide +kernel

theorem members_outlive_threads_handling :
    (∃ lifecycle, exec (Lifecycle.step compact scripted .above) (.new .asioUdp .above mixedConfig) handling = some lifecycle ∧
      lifecycle.Ready .orderEntry ∧ .orderEntry ∉ lifecycle.destroyed ∧ .ioContext ∉ lifecycle.destroyed ∧
        lifecycle.session.asioReceiver = lifecycle.ioContext) ∧
    (∃ lifecycle, exec (Lifecycle.step compact scripted .above) (.new .asioUdp .above mixedConfig) outputAlone = some lifecycle ∧
      lifecycle.Ready (.loop .output) ∧ .loop .output ∉ lifecycle.destroyed ∧ lifecycle.session.asioReceiver ≠ lifecycle.ioContext) ∧
    ∃ lifecycle, exec (Lifecycle.step compact scripted .above) (.new .asioUdp .above mixedConfig) lateDestruction = some lifecycle ∧
      .orderEntry ∉ lifecycle.destroyed ∧ .ioContext ∉ lifecycle.destroyed ∧
        lifecycle.session.asioReceiver ≠ lifecycle.ioContext ∧ .error RuntimeSession.alreadySetUp ∈ lifecycle.results := by
  refine ⟨?_, ?_, ?_⟩
  · obtain ⟨lifecycle, ran, seen⟩ := Option.map_eq_some_iff.1 handling_run
    obtain ⟨polls, seen⟩ := Prod.mk.inj seen
    obtain ⟨some, outside⟩ := Prod.mk.inj seen
    obtain ⟨threads, -, receiver⟩ := members_outlive_threads ran
    obtain ⟨context, -⟩ := receiver ⟨some, .inl polls⟩
    obtain ⟨ready, there⟩ := threads .orderEntry polls
    exact ⟨lifecycle, ran, ready, there, context, ready.2.2.1⟩
  · obtain ⟨lifecycle, ran, seen⟩ := Option.map_eq_some_iff.1 outputAlone_run
    obtain ⟨running, seen⟩ := Prod.mk.inj seen
    obtain ⟨old, new⟩ := Prod.mk.inj seen
    obtain ⟨ready, there⟩ := (members_outlive_threads ran).1 (.loop .output) (.inl running)
    exact ⟨lifecycle, ran, ready, there, by rw [old, new]; decide⟩
  · obtain ⟨lifecycle, ran, seen⟩ := Option.map_eq_some_iff.1 lateDestruction_run
    obtain ⟨here, seen⟩ := Prod.mk.inj seen
    obtain ⟨old, new⟩ := Prod.mk.inj seen
    have destroys : lifecycle.Destroys .orderEntry := .inl ⟨_, here⟩
    obtain ⟨-, owner, receiver⟩ := members_outlive_threads ran
    have there := (owner .orderEntry (.inr (.inr destroys))).1
    obtain ⟨context, borrowed⟩ := receiver ⟨by rw [old]; rfl, .inr (.inr (.inr destroys))⟩
    have other : lifecycle.session.asioReceiver ≠ lifecycle.ioContext := by
      rw [old, new]
      decide
    refine ⟨lifecycle, ran, there, context, other, ?_⟩
    by_contra absent
    exact other (borrowed.2 fun both => absent both.2)

theorem lifecycle_serves_wholeLife :
    ∃ lifecycle, exec (Lifecycle.step compact scripted .above) (.new .asioUdp .above mixedConfig) wholeLife = some lifecycle ∧
      lifecycle.process.stdout = serve compact scripted defaultConfig lifecycle.process.delivered := by
  obtain ⟨lifecycle, ran, seen⟩ := Option.map_eq_some_iff.1 wholeLife_run
  exact ⟨lifecycle, ran, (lifecycle_serves ran).2 (Prod.mk.inj (Prod.mk.inj seen).2).1⟩

theorem start_succeeds_once_secondStart :
    ∃ lifecycle, exec (Lifecycle.step compact scripted .above) (.new .asioUdp .above mixedConfig) secondStart = some lifecycle ∧
      (∀ result ∈ lifecycle.results.tail, StartRefused result) ∧ .error RuntimeSession.alreadySetUp ∈ lifecycle.results := by
  obtain ⟨lifecycle, ran, seen⟩ := Option.map_eq_some_iff.1 secondStart_run
  obtain ⟨set, contexts⟩ := Prod.mk.inj seen
  obtain ⟨old, new⟩ := Prod.mk.inj contexts
  obtain ⟨refused, -, replaced⟩ := start_succeeds_once ran
  refine ⟨lifecycle, ran, refused, ?_⟩
  by_contra absent
  have same := (replaced rfl set).2 absent
  rw [old, new] at same
  exact absurd same (by decide)

end Witness

end DemoExchange.Properties
