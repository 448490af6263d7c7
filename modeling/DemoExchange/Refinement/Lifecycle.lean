import DemoExchange.Refinement.Receiving
import DemoExchange.Server.Lifecycle

/-!
# A life as a run of the process

While `start` is under way the loops that it has made find nothing to do, so
the loops that are still to come can be thought to be there already: what the
threads did until then is a run of the process from its start (`caughtUp`).
If a start fails the process stays `Quiet`. `Called` is what holds of the
owner's calls alone, `Stands` what holds of the threads for each place where
the owner's thread can be.
-/

namespace DemoExchange.Refinement
set_option autoImplicit false
open Text Lab OrderEntry MatchingEngine Server Interleaving

section Calls

variable {lib : Nlohmann} {decoder : Decoder} {alloc : Pool.Allocator} {receiver : Backend} {lifecycle lifecycle' : Lifecycle}

/-- The session after its first setup. -/
def sessionFor : Backend → RuntimeSession
  | .asioUdp => ⟨true, some 1, false⟩
  | .efViUdp => ⟨true, none, true⟩

/-- How often a set up session was to be set up again. -/
def repeats (lifecycle : Lifecycle) : Nat := lifecycle.results.countP fun result =>
  match result with
  | .error error => error = RuntimeSession.alreadySetUp
  | .ok () => false

def contextsFor (repeats : Nat) : Backend → Nat
  | .asioUdp => 1 + repeats
  | .efViUdp => 0

/-- The owner is in `start`. -/
def Starting (lifecycle : Lifecycle) : Prop := lifecycle.owner = .binding ∨ ∃ stage, lifecycle.owner = .launching stage

/-- A refusal of a call of `start` after the first. -/
def StartRefused (result : Result Unit) : Prop := result = .error Lifecycle.alreadyStarted ∨ result = .error RuntimeSession.alreadySetUp

/-- What the owner's calls have set up. -/
structure Called (receiver : Backend) (lifecycle : Lifecycle) : Prop where
  backend : lifecycle.receiver = receiver
  before : lifecycle.session.isSetUp = false → lifecycle.session = ⟨false, none, false⟩ ∧ lifecycle.ioContexts = 0 ∧
    lifecycle.engineIsSetUp = false ∧ lifecycle.publisherIsSetUp = false ∧ lifecycle.results = [] ∧ lifecycle.started = false ∧
    ¬Starting lifecycle
  after : lifecycle.session.isSetUp = true → lifecycle.session = sessionFor receiver ∧
    lifecycle.ioContexts = contextsFor (repeats lifecycle) receiver ∧ lifecycle.engineIsSetUp = true ∧ lifecycle.publisherIsSetUp = true
  first : Starting lifecycle → lifecycle.results = [] ∧ lifecycle.started = false
  later : (Starting lifecycle → False) → lifecycle.session.isSetUp = true → lifecycle.results ≠ []
  refused : ∀ result ∈ lifecycle.results.tail, StartRefused result

/-- What `start` does before it starts anything. -/
theorem start_cases (called : Called receiver lifecycle) :
    lifecycle.started = true ∧ lifecycle.start = lifecycle.returns (.error Lifecycle.alreadyStarted) ∨
      lifecycle.started = false ∧ lifecycle.session.isSetUp = true ∧
        lifecycle.start = lifecycle.emplaceIoContext.returns (.error RuntimeSession.alreadySetUp) ∨
      lifecycle.started = false ∧ lifecycle.session.isSetUp = false ∧
        lifecycle.start = { lifecycle with
          ioContexts := contextsFor 0 receiver
          session := sessionFor receiver
          engineIsSetUp := true
          publisherIsSetUp := true
          owner := .binding }.wirePipeline := by
  obtain ⟨backend, before, after, -, -, -⟩ := called
  cases started : lifecycle.started with
  | true => exact .inl ⟨rfl, by rw [Lifecycle.start, if_pos started]⟩
  | false =>
    right
    have going : ¬lifecycle.started = true := by rw [started]; exact Bool.false_ne_true
    cases set : lifecycle.session.isSetUp with
    | true =>
      refine .inl ⟨rfl, rfl, ?_⟩
      obtain ⟨isSession, -⟩ := after set
      subst backend
      cases which : lifecycle.receiver <;>
        simp [Lifecycle.start, going, Lifecycle.emplaceIoContext, which, isSession, sessionFor, RuntimeSession.setup, Lifecycle.returns]
    | false =>
      refine .inr ⟨rfl, rfl, ?_⟩
      obtain ⟨isSession, contexts, engine, publisher, -⟩ := before set
      subst backend
      cases which : lifecycle.receiver <;>
        simp [Lifecycle.start, going, Lifecycle.emplaceIoContext, which, isSession, contexts, engine, publisher, sessionFor, contextsFor,
          RuntimeSession.setup, Lifecycle.ioContext, setupEngine, setupPublisher, setupOnce]

/-- Steps that are not of `start` leave what it has set up. -/
theorem Called.keeps (called : Called receiver lifecycle) (backend : lifecycle'.receiver = lifecycle.receiver)
    (session : lifecycle'.session = lifecycle.session) (contexts : lifecycle'.ioContexts = lifecycle.ioContexts)
    (engine : lifecycle'.engineIsSetUp = lifecycle.engineIsSetUp) (publisher : lifecycle'.publisherIsSetUp = lifecycle.publisherIsSetUp)
    (results : lifecycle'.results = lifecycle.results) (starting : Starting lifecycle' ↔ Starting lifecycle)
    (started : lifecycle.started = false → lifecycle'.started = false) : Called receiver lifecycle' := by
  obtain ⟨backend', before, after, first, later, refused⟩ := called
  have same : repeats lifecycle' = repeats lifecycle := by rw [repeats, results, ← repeats]
  refine ⟨backend.trans backend', ?_, ?_, ?_, ?_, ?_⟩
  · rw [session, contexts, engine, publisher, results, starting]
    exact fun unset => (before unset).imp id (.imp id (.imp id (.imp id (.imp id (.imp started id)))))
  · rw [session, contexts, engine, publisher, same]
    exact after
  · rw [starting, results]
    exact fun here => (first here).imp id started
  · rw [starting, session, results]
    exact later
  · rw [results]
    exact refused

theorem not_starting (outside : lifecycle.owner = .outside) : ¬Starting lifecycle := by
  rintro (here | ⟨stage, here⟩) <;> rw [outside] at here <;> cases here

/-- The first call of `start` returns. -/
theorem Called.returns (called : Called receiver lifecycle) (starting : Starting lifecycle) (result : Result Unit)
    (other : result ≠ .error RuntimeSession.alreadySetUp) (backend : lifecycle'.receiver = lifecycle.receiver)
    (session : lifecycle'.session = lifecycle.session) (contexts : lifecycle'.ioContexts = lifecycle.ioContexts)
    (engine : lifecycle'.engineIsSetUp = lifecycle.engineIsSetUp) (publisher : lifecycle'.publisherIsSetUp = lifecycle.publisherIsSetUp)
    (results : lifecycle'.results = lifecycle.results ++ [result]) (outside : lifecycle'.owner = .outside) :
    Called receiver lifecycle' := by
  have set : lifecycle.session.isSetUp = true := by
    by_contra unset
    exact (called.before (Bool.eq_false_iff.2 unset)).2.2.2.2.2.2 starting
  have none : lifecycle.results = [] := (called.first starting).1
  rw [none, List.nil_append] at results
  have same : repeats lifecycle' = repeats lifecycle := by
    rw [repeats, repeats, results, none]
    cases result with
    | ok _ => rfl
    | error error => simpa using other
  refine ⟨backend.trans called.backend, ?_, ?_, fun here => absurd here (not_starting outside), ?_, ?_⟩
  · rw [session, set]
    exact fun unset => nomatch unset
  · rw [session, contexts, engine, publisher, same]
    exact called.after
  · rw [results]
    exact fun _ _ => List.cons_ne_nil _ _
  · rw [results]
    exact List.forall_mem_nil _

theorem start_error {session : RuntimeSession} {binding : RuntimeSession.Binding} {error : Error}
    (failed : session.start binding = .error error) : error ≠ RuntimeSession.alreadySetUp := by
  have code : error.errorCode ≠ Lab.ErrorCode.alreadyInProgress.value := by
    unfold RuntimeSession.start at failed
    repeat' split at failed
    all_goals cases failed <;> simp only [Lab.ErrorCode.value, ne_eq, Nat.reduceEqDiff, not_false_eq_true]
  rintro rfl
  exact code rfl

theorem loop_error {τ : Type} {loop : EventLoop τ} {thrown : Option Bytes} {error : Error}
    (failed : (loop.tryStart thrown).1 = .error error) : error ≠ RuntimeSession.alreadySetUp := by
  unfold EventLoop.tryStart at failed
  split at failed
  · cases failed
    decide
  · cases thrown with
    | none => cases failed
    | some what =>
      cases failed
      exact fun same => absurd (congrArg Error.errorCode same) (by simp [RuntimeSession.alreadySetUp, Lab.ErrorCode.value])

theorem tryStart_error {stage : Stage} {thrown : Option Bytes} {error : Error} {process : Process}
    (failed : lifecycle.tryStart stage thrown = (.error error, process)) : error ≠ RuntimeSession.alreadySetUp := by
  cases stage with
  | input => exact loop_error (congrArg Prod.fst failed)
  | processing => exact loop_error (congrArg Prod.fst failed)
  | output => exact loop_error (congrArg Prod.fst failed)

theorem not_refusal {error : Error} (other : error ≠ RuntimeSession.alreadySetUp) :
    (.error error : Result Unit) ≠ .error RuntimeSession.alreadySetUp := fun same => other (Except.error.inj same)

/-- A call of `start` after the first is refused. -/
theorem Called.start (called : Called receiver lifecycle) (outside : lifecycle.owner = .outside) : Called receiver lifecycle.start := by
  have quiet := not_starting outside
  have cases := start_cases called
  obtain ⟨backend, before, after, first, later, refused⟩ := called
  have behind : ∀ {result : Result Unit}, lifecycle.results ≠ [] → StartRefused result →
      ∀ r ∈ (lifecycle.results ++ [result]).tail, StartRefused r := by
    intro result some again r member
    rw [List.tail_append_of_ne_nil some] at member
    rcases List.mem_append.1 member with member | member
    · exact refused r member
    · exact List.mem_singleton.1 member ▸ again
  obtain ⟨started, same⟩ | ⟨started, set, same⟩ | ⟨started, unset, same⟩ := cases
  · have set : lifecycle.session.isSetUp = true := by
      by_contra unset
      rw [(before (Bool.eq_false_iff.2 unset)).2.2.2.2.2.1] at started
      cases started
    have others : repeats (lifecycle.returns (.error Lifecycle.alreadyStarted)) = repeats lifecycle := by
      rw [repeats, Lifecycle.returns, List.countP_append, ← repeats]
      rfl
    rw [same]
    refine ⟨backend, fun unset => ?_, fun _ => others ▸ after set, fun here => absurd here (not_starting rfl),
      fun _ _ => by simp [Lifecycle.returns], behind (later quiet set) (.inl rfl)⟩
    exact absurd (set.symm.trans unset) (by decide)
  · have once : repeats (lifecycle.emplaceIoContext.returns (.error RuntimeSession.alreadySetUp)) = repeats lifecycle + 1 := by
      rw [repeats, Lifecycle.returns, List.countP_append, ← repeats]
      rfl
    rw [same]
    refine ⟨backend, fun unset => ?_, fun _ => ?_, fun here => absurd here (not_starting rfl), fun _ _ => by simp [Lifecycle.returns],
      behind (later quiet set) (.inr rfl)⟩
    · exact absurd (set.symm.trans unset) (by decide)
    · obtain ⟨session, contexts, engine, publisher⟩ := after set
      refine ⟨session, ?_, engine, publisher⟩
      rw [once]
      simp only [Lifecycle.returns, Lifecycle.emplaceIoContext, backend, contexts]
      cases receiver <;> rfl
  · obtain ⟨-, -, -, -, none, -⟩ := before unset
    rw [same]
    have zero : repeats lifecycle = 0 := by rw [repeats, none, List.countP_nil]
    refine ⟨backend, fun unset => ?_, fun _ => ⟨rfl, ?_, rfl, rfl⟩, fun _ => ⟨none, started⟩, fun idle => absurd (.inl rfl) idle, ?_⟩
    · cases receiver <;> cases unset
    · exact congrArg (fun n => contextsFor n receiver) zero.symm
    · exact fun result member => refused result member

/-- **What is set up** is set up once, whatever the owner calls. -/
theorem Called.taken (called : Called receiver lifecycle) (taken : Lifecycle.Taken lib decoder alloc lifecycle lifecycle') :
    Called receiver lifecycle' := by
  have elsewhere : ∀ {owner : Owner}, lifecycle.owner = owner → owner ≠ .binding → (∀ stage, owner ≠ .launching stage) →
      ¬Starting lifecycle := by
    rintro owner rfl binding launching (here | ⟨stage, here⟩)
    · exact binding here
    · exact launching stage here
  cases taken with
  | start outside => exact called.start outside
  | bind here =>
    rename_i binding
    unfold Lifecycle.bind
    split
    · rename_i error failed
      exact called.returns (.inl here) _ (not_refusal (start_error failed)) rfl rfl rfl rfl rfl rfl rfl
    · exact called.keeps rfl rfl rfl rfl rfl rfl (iff_of_true (.inr ⟨_, rfl⟩) (.inl here)) id
  | launch here =>
    rename_i stage thrown
    unfold Lifecycle.launch
    split
    · rename_i error process failed
      exact called.returns (.inr ⟨stage, here⟩) _ (not_refusal (tryStart_error failed)) rfl rfl rfl rfl rfl rfl rfl
    · split
      · exact called.keeps rfl rfl rfl rfl rfl rfl (iff_of_true (.inr ⟨_, rfl⟩) (.inr ⟨stage, here⟩)) id
      · exact called.returns (.inr ⟨stage, here⟩) (.ok ()) (by simp) rfl rfl rfl rfl rfl rfl rfl
  | stop outside started =>
    refine called.keeps rfl rfl rfl rfl rfl rfl (iff_of_false ?_ (elsewhere outside (by simp) (by simp))) id
    rintro (there | ⟨stage, there⟩) <;> cases there
  | unstopped outside idle => exact called
  | control here stepped => exact called.keeps rfl rfl rfl rfl rfl rfl .rfl id
  | stopReturns here returned =>
    rename_i destructing
    refine called.keeps rfl rfl rfl rfl rfl rfl (iff_of_false ?_ (elsewhere here (by simp) (by simp))) fun _ => rfl
    cases destructing <;> rintro (there | ⟨stage, there⟩) <;> cases there
  | destruct outside =>
    refine called.keeps rfl rfl rfl rfl rfl rfl (iff_of_false ?_ (elsewhere outside (by simp) (by simp))) id
    cases lifecycle.started <;> rintro (there | ⟨stage, there⟩) <;> cases there
  | stopLoop here =>
    refine called.keeps rfl rfl rfl rfl rfl rfl (iff_of_false ?_ (elsewhere here (by simp) (by simp))) id
    rintro (there | ⟨stage, there⟩) <;> cases there
  | destroyMember here plain =>
    refine called.keeps rfl rfl rfl rfl rfl rfl (iff_of_false ?_ (elsewhere here (by simp) (by simp))) id
    rintro (there | ⟨stage, there⟩) <;> cases there
  | join here exited =>
    refine called.keeps rfl rfl rfl rfl rfl rfl (iff_of_false ?_ (elsewhere here (by simp) (by simp))) id
    rintro (there | ⟨stage, there⟩) <;> cases there
  | process allowed stepped => exact called.keeps rfl rfl rfl rfl rfl rfl .rfl id

theorem called_new (receiver : Backend) (alloc : Pool.Allocator) (configuration : Config) :
    Called receiver (.new receiver alloc configuration) where
  backend := rfl
  before := fun _ => ⟨rfl, rfl, rfl, rfl, rfl, rfl, not_starting rfl⟩
  after := fun set => nomatch set
  first := fun here => absurd here (not_starting rfl)
  later := fun _ set => nomatch set
  refused := List.forall_mem_nil _

/-- **The borrowed context**: the receiver's is the application's until a call
of `start` was refused because the session was set up. -/
theorem Called.borrowed_iff (called : Called .asioUdp lifecycle) (set : lifecycle.session.isSetUp = true) :
    lifecycle.session.asioReceiver = lifecycle.ioContext ↔ .error RuntimeSession.alreadySetUp ∉ lifecycle.results := by
  obtain ⟨session, contexts, -⟩ := called.after set
  have counted : repeats lifecycle = 0 ↔ .error RuntimeSession.alreadySetUp ∉ lifecycle.results := by
    rw [repeats, List.countP_eq_zero]
    refine ⟨fun none member => absurd (none _ member) (by simp), fun absent result member again => ?_⟩
    cases result with
    | ok _ => cases again
    | error error => exact absent (of_decide_eq_true again ▸ member)
  rw [← counted, session, Lifecycle.ioContext, contexts]
  simp [sessionFor, contextsFor]

end Calls

section Destruction

variable {lib : Nlohmann} {decoder : Decoder} {alloc : Pool.Allocator} {receiver : Backend} {lifecycle lifecycle' : Lifecycle}

/-- The members that the destructor has still to destroy. -/
def remaining : Owner → List Member
  | .destroying left => left
  | .joining stage left => .loop stage :: left
  | _ => Member.reversed

/-- What was destroyed and what is left make up the order of destruction. -/
def Ordered (lifecycle : Lifecycle) : Prop := lifecycle.destroyed ++ remaining lifecycle.owner = Member.reversed

theorem Ordered.keeps (ordered : Ordered lifecycle) (destroyed : lifecycle'.destroyed = lifecycle.destroyed)
    (left : remaining lifecycle'.owner = remaining lifecycle.owner) : Ordered lifecycle' := by
  rw [Ordered, destroyed, left]
  exact ordered

theorem Ordered.destroyMember (ordered : Ordered lifecycle) {member : Member} {left : List Member}
    (next : remaining lifecycle.owner = member :: left) : Ordered (lifecycle.destroyMember member left) := by
  rw [Ordered, next] at ordered
  rw [Ordered, Lifecycle.destroyMember, remaining, List.append_assoc]
  exact ordered

/-- A step destroys at most the member that is next. -/
theorem Ordered.taken (ordered : Ordered lifecycle) (called : Called receiver lifecycle)
    (taken : Lifecycle.Taken lib decoder alloc lifecycle lifecycle') : Ordered lifecycle' := by
  cases taken with
  | start outside =>
    obtain ⟨-, same⟩ | ⟨-, -, same⟩ | ⟨-, -, same⟩ := start_cases called <;>
      exact ordered.keeps (by rw [same]; rfl) (by rw [same, outside]; rfl)
  | bind here =>
    unfold Lifecycle.bind
    split <;> exact ordered.keeps rfl (by rw [here]; rfl)
  | launch here =>
    unfold Lifecycle.launch
    split
    · exact ordered.keeps rfl (by rw [here]; rfl)
    · split <;> exact ordered.keeps rfl (by rw [here]; rfl)
  | stop outside started => exact ordered.keeps rfl (by rw [outside]; rfl)
  | unstopped outside idle => exact ordered
  | control here stepped => exact ordered
  | stopReturns here returned =>
    rename_i destructing
    cases destructing <;> exact ordered.keeps rfl (by rw [here]; rfl)
  | destruct outside =>
    refine ordered.keeps rfl ?_
    rw [outside]
    cases lifecycle.started <;> rfl
  | stopLoop here => exact ordered.keeps rfl (by rw [here]; rfl)
  | destroyMember here plain => exact ordered.destroyMember (by rw [here, remaining])
  | join here exited => exact ordered.destroyMember (by rw [here, remaining])
  | process allowed stepped => exact ordered

theorem Ordered.absent (ordered : Ordered lifecycle) {member : Member} (left : member ∈ remaining lifecycle.owner) :
    member ∉ lifecycle.destroyed := by
  have distinct : (lifecycle.destroyed ++ remaining lifecycle.owner).Nodup := by
    rw [show lifecycle.destroyed ++ remaining lifecycle.owner = Member.reversed from ordered]
    decide
  exact fun gone => List.disjoint_of_nodup_append distinct gone left

/-- The `io_context` is there until the end. -/
theorem Ordered.context (ordered : Ordered lifecycle) {member : Member} (left : member ∈ remaining lifecycle.owner) :
    .ioContext ∈ remaining lifecycle.owner := by
  have some := List.ne_nil_of_mem left
  have whole : lifecycle.destroyed ++ remaining lifecycle.owner = Member.reversed := ordered
  have last : (lifecycle.destroyed ++ remaining lifecycle.owner).getLast? = .some .ioContext := by rw [whole]; rfl
  rw [List.getLast?_append, List.getLast?_eq_getLast_of_ne_nil some, Option.some_or] at last
  rw [← Option.some.inj last]
  exact List.getLast_mem some

/-- What the owner's thread uses is still to be destroyed. -/
theorem Ordered.used (ordered : Ordered lifecycle) (member : Member) (used : lifecycle.OwnerUses member) :
    member ∈ remaining lifecycle.owner := by
  have every : ∀ {other : Member}, other ∈ Member.reversed := by
    intro other
    cases other with
    | loop stage => cases stage <;> decide
    | _ => decide
  have destroys : ∀ {other : Member}, lifecycle.Destroys other → other ∈ remaining lifecycle.owner := by
    rintro other (⟨left, here⟩ | ⟨stage, left, rfl, here⟩) <;> rw [here] <;> exact List.mem_cons_self
  have owns : lifecycle.OwnsReceiver → .orderEntry ∈ remaining lifecycle.owner := by
    rintro (here | ⟨⟨destructing, here⟩, -⟩ | here)
    · rw [here]
      exact every
    · rw [here]
      exact every
    · exact destroys here
  cases member with
  | ioContext => exact used.elim (fun here => ordered.context (owns here)) destroys
  | orderEntry => exact owns used
  | engine => exact destroys used
  | publisher => exact destroys used
  | loop stage =>
    obtain here | ⟨⟨destructing, here⟩, -⟩ | here := used
    · rw [here]
      exact every
    · rw [here]
      exact every
    · exact destroys here

end Destruction

section Waiting

variable {lib : Nlohmann} {decoder : Decoder} {alloc : Pool.Allocator} {configuration : Config} {launched : List Stage}
  {process process' : Process}

/-- The input loop was not started, and there is nothing to do. -/
structure Quiet (process : Process) : Prop where
  input : process.application.inputLoop.Idle
  processing : process.application.processingLoop.unfinished = []
  output : process.application.outputLoop.unfinished = []
  callbacks : process.application.callbacks = none
  outside : process.receiver.position = .outside
  delivered : process.delivered = []
  rejected : process.rejected = []
  stdout : process.stdout = []

theorem no_task {τ : Type} {loop : EventLoop τ} (finished : loop.unfinished = []) : loop.task? = none := by
  rw [EventLoop.unfinished, List.append_eq_nil_iff, Option.toList_eq_nil_iff] at finished
  exact finished.1

/-- The process if all loops had been started from the beginning. -/
def caughtUp (configuration : Config) (launched : List Stage) (process : Process) : Process :=
  let application := process.application
  { process with application := { application with
      inputLoop := if .input ∈ launched then application.inputLoop else .start configuration.inputThread 1
      processingLoop := if .processing ∈ launched then application.processingLoop else .start configuration.processingThread 0
      outputLoop := if .output ∈ launched then application.outputLoop else .start configuration.outputThread 0 } }

/-- Only the loops that were started take steps, and these find nothing to do. -/
inductive Idles (launched : List Stage) (process : Process) : ProcessAction → Process → Prop where
  | arrive (datagram : Bytes) :
    Idles launched process (.arrive datagram)
      { process with receiver := process.receiver.arrive datagram, arrived := process.arrived ++ [datagram] }
  | complete {receiver : AsioUdpReceiver} (stepped : process.receiver.complete = some receiver) :
    Idles launched process .complete { process with receiver }
  | fail {receiver : AsioUdpReceiver} (stepped : process.receiver.fail = some receiver) :
    Idles launched process .fail { process with receiver }
  | processingLoop {act : EventLoop.Act} {loop : EventLoop Request} (live : .processing ∈ launched)
      (stepped : process.application.processingLoop.step act = some loop) :
    Idles launched process (.application (.processingLoop act))
      { process with application := { process.application with processingLoop := loop } }
  | outputLoop {act : EventLoop.Act} {loop : EventLoop MarketData.Message} (live : .output ∈ launched)
      (stepped : process.application.outputLoop.step act = some loop) :
    Idles launched process (.application (.outputLoop act))
      { process with application := { process.application with outputLoop := loop } }

theorem idles (quiet : Quiet process) (processing : .processing ∉ launched → process.application.processingLoop.Idle)
    (output : .output ∉ launched → process.application.outputLoop.Idle) {action : ProcessAction} (other : action ≠ .application .control)
    (stepped : process.step lib decoder alloc action = some process') : Idles launched process action process' := by
  have inside := quiet.outside
  cases action with
  | arrive datagram =>
    cases stepped
    exact .arrive datagram
  | complete =>
    obtain ⟨receiver, moved, rfl⟩ := Option.map_eq_some_iff.1 stepped
    exact .complete moved
  | fail =>
    obtain ⟨receiver, moved, rfl⟩ := Option.map_eq_some_iff.1 stepped
    exact .fail moved
  | pollOne =>
    simp only [Process.step, quiet.input.inPoller, Bool.false_eq_true, if_false, reduceCtorEq] at stepped
  | onDatagram => simp only [Process.step, AsioUdpReceiver.onDatagram, inside, Option.bind_none, reduceCtorEq] at stepped
  | postReceive => simp only [Process.step, AsioUdpReceiver.postReceive, inside, Option.map_none, reduceCtorEq] at stepped
  | pollReturns => simp only [Process.step, AsioUdpReceiver.pollReturns, inside, Option.bind_none, reduceCtorEq] at stepped
  | application action =>
    cases action with
    | inputLoop act =>
      have none := EventLoop.step_exited quiet.input.exited act
      cases act <;> simp only [Process.step, Process.applicationStep, Application.step, none, Option.map_none, reduceCtorEq] at stepped
    | processingLoop act =>
      obtain ⟨application, taken, rfl⟩ := Option.map_eq_some_iff.1 stepped
      obtain ⟨loop, moved, rfl⟩ := Option.map_eq_some_iff.1 taken
      by_cases live : .processing ∈ launched
      · exact .processingLoop live moved
      · rw [EventLoop.step_exited (processing live).exited] at moved
        cases moved
    | outputLoop act =>
      obtain ⟨application, taken, rfl⟩ := Option.map_eq_some_iff.1 stepped
      obtain ⟨loop, moved, rfl⟩ := Option.map_eq_some_iff.1 taken
      by_cases live : .output ∈ launched
      · exact .outputLoop live moved
      · rw [EventLoop.step_exited (output live).exited] at moved
        cases moved
    | onRequest request => cases stepped
    | send =>
      simp only [Process.step, Process.applicationStep, Application.step, quiet.callbacks, no_task quiet.processing, Option.map_none,
        reduceCtorEq] at stepped
    | callback =>
      simp only [Process.step, Process.applicationStep, Application.step, quiet.callbacks, Option.map_none, reduceCtorEq] at stepped
    | sendReturns =>
      simp only [Process.step, Process.applicationStep, Application.step, quiet.callbacks, Option.map_none, reduceCtorEq] at stepped
    | publish =>
      simp only [Process.step, Process.applicationStep, Process.publish, no_task quiet.output, reduceCtorEq] at stepped
    | control => exact absurd rfl other

/-- What idles stays quiet. -/
theorem Quiet.idles (quiet : Quiet process) {action : ProcessAction} (idles : Idles launched process action process') : Quiet process' := by
  cases idles with
  | arrive datagram => exact { quiet with }
  | complete stepped =>
    obtain ⟨-, datagram, rest, -, rfl⟩ := AsioUdpReceiver.complete_cases stepped
    exact { quiet with }
  | fail stepped =>
    obtain ⟨-, rfl⟩ := AsioUdpReceiver.fail_cases stepped
    exact { quiet with }
  | processingLoop live stepped => exact { quiet with processing := (EventLoop.unfinished_step stepped).trans quiet.processing }
  | outputLoop live stepped => exact { quiet with output := (EventLoop.unfinished_step stepped).trans quiet.output }

/-- **What idles** could as well have done so when all loops had been started. -/
theorem caughtUp_idles {action : ProcessAction} (idles : Idles launched process action process') :
    (caughtUp configuration launched process).step lib decoder alloc action = some (caughtUp configuration launched process') := by
  cases idles with
  | arrive datagram => rfl
  | complete stepped => simp only [Process.step, caughtUp, stepped, Option.map_some]
  | fail stepped => simp only [Process.step, caughtUp, stepped, Option.map_some]
  | processingLoop live stepped =>
    simp only [Process.step, Process.applicationStep, Application.step, caughtUp, if_pos live, stepped, Option.map_some]
  | outputLoop live stepped =>
    simp only [Process.step, Process.applicationStep, Application.step, caughtUp, if_pos live, stepped, Option.map_some]

end Waiting

section Standing

variable {lib : Nlohmann} {decoder : Decoder} {alloc : Pool.Allocator} {configuration : Config} {receiver : Backend}
  {lifecycle lifecycle' : Lifecycle} {process process' : Process}

/-- The input loop was not started; a loop that was not is new. -/
structure Waits (configuration : Config) (lifecycle : Lifecycle) : Prop where
  quiet : Quiet lifecycle.process
  input : .input ∉ lifecycle.launched
  processing : .processing ∉ lifecycle.launched → lifecycle.process.application.processingLoop = .new configuration.processingThread
  output : .output ∉ lifecycle.launched → lifecycle.process.application.outputLoop = .new configuration.outputThread

/-- All loops were started: the process is one that has run from its start. -/
structure Serves (lib : Nlohmann) (decoder : Decoder) (alloc : Pool.Allocator) (configuration : Config) (lifecycle : Lifecycle) : Prop where
  launched : ∀ stage, stage ∈ lifecycle.launched
  reached : Reaches (Process.step lib decoder alloc) (.start alloc configuration) lifecycle.process

/-- The receiver is bound, with the `io_context` that is there. -/
structure Bound (lifecycle : Lifecycle) : Prop where
  set : lifecycle.session.isSetUp = true
  there : lifecycle.ioContext.isSome = true
  borrowed : lifecycle.session.asioReceiver = lifecycle.ioContext
  bound : lifecycle.bound = true

theorem Waits.idles (waits : Waits configuration lifecycle) {action : ProcessAction} (other : action ≠ .application .control)
    (stepped : lifecycle.process.step lib decoder alloc action = some process) :
    Idles lifecycle.launched lifecycle.process action process :=
  Refinement.idles waits.quiet (fun absent => by rw [waits.processing absent]; exact EventLoop.idle_new _)
    (fun absent => by rw [waits.output absent]; exact EventLoop.idle_new _) other stepped

/-- A process that waits still does after a step. -/
theorem Waits.step (waits : Waits configuration lifecycle) {action : ProcessAction} (other : action ≠ .application .control)
    (stepped : lifecycle.process.step lib decoder alloc action = some process) : Waits configuration { lifecycle with process } := by
  have idles := waits.idles other stepped
  refine ⟨waits.quiet.idles idles, waits.input, fun absent => ?_, fun absent => ?_⟩
  · cases idles with
    | processingLoop live stepped => exact absurd live absent
    | _ => exact waits.processing absent
  · cases idles with
    | outputLoop live stepped => exact absurd live absent
    | _ => exact waits.output absent

theorem Serves.step (serves : Serves lib decoder alloc configuration lifecycle) {action : ProcessAction}
    (stepped : lifecycle.process.step lib decoder alloc action = some process) :
    Serves lib decoder alloc configuration { lifecycle with process } :=
  ⟨serves.launched, serves.reached.trans (.single stepped)⟩

/-- A step of the process is some steps of the application. -/
theorem reaches_step {action : ProcessAction} (stepped : process.step lib decoder alloc action = some process') :
    Reaches (Application.step alloc) process.application process'.application := reaches_taken (Process.step_taken stepped)

theorem exited_process {action : ProcessAction} (stepped : process.step lib decoder alloc action = some process') {stage : Stage}
    (exited : process.application.exited stage = true) : process'.application.exited stage = true := by
  obtain ⟨actions, ran⟩ := reaches_step stepped
  exact exec_invariant (P := fun app : Application => app.exited stage = true) exited
    (fun _ _ _ gone taken => exited_taken (Application.step_taken taken) gone) ran

theorem returned_process {action : ProcessAction} (stepped : process.step lib decoder alloc action = some process')
    (returned : process.application.controller = .returned) : process'.application.controller = .returned := by
  obtain ⟨actions, ran⟩ := reaches_step stepped
  refine exec_invariant (P := fun app : Application => app.controller = .returned) returned (fun app _ _ here stepped => ?_) ran
  cases Application.step_taken stepped with
  | stopSession other => exact absurd (here.symm.trans other) (by simp)
  | stopLoop other => exact absurd (here.symm.trans other) (by simp)
  | join other exited => exact absurd (here.symm.trans other) (by simp)
  | _ => exact here

/-- **When `stop` has returned** every thread has exited. -/
theorem Serves.gone (serves : Serves lib decoder alloc configuration lifecycle)
    (returned : lifecycle.process.application.controller = .returned) (stage : Stage) :
    lifecycle.process.application.exited stage = true ∧ lifecycle.process.application.stopLoop stage = lifecycle.process.application := by
  obtain ⟨actions, ran⟩ := serves.reached
  obtain ⟨-, actions', ran'⟩ := chained_run ran
  have order := (live_run ran').order
  have exited : lifecycle.process.application.exited stage = true :=
    order.joined stage (by rw [returned]; cases stage <;> simp [Refinement.joined])
  refine ⟨exited, ?_⟩
  cases stage with
  | input => simp only [Application.stopLoop, EventLoop.Idle.stop ⟨exited, order.input.running_of_exited exited⟩]
  | processing => simp only [Application.stopLoop, EventLoop.Idle.stop ⟨exited, order.processing.running_of_exited exited⟩]
  | output => simp only [Application.stopLoop, EventLoop.Idle.stop ⟨exited, order.output.running_of_exited exited⟩]

/-- Either the input loop was never started, or `stop` has returned. -/
def Rests (lib : Nlohmann) (decoder : Decoder) (alloc : Pool.Allocator) (configuration : Config) (lifecycle : Lifecycle) : Prop :=
  Waits configuration lifecycle ∨
    Serves lib decoder alloc configuration lifecycle ∧ lifecycle.process.application.controller = .returned

/-- The stages whose loops `start` has started when it comes to one. -/
def launchedBefore : Stage → List Stage
  | .output => []
  | .processing => [.output]
  | .input => [.output, .processing]

/-- Where the threads stand, for each place of the owner's. -/
inductive Stands (lib : Nlohmann) (decoder : Decoder) (alloc : Pool.Allocator) (configuration : Config) (lifecycle : Lifecycle) : Prop where
  | fresh (here : lifecycle.owner = .outside) (unset : lifecycle.session.isSetUp = false) (launched : lifecycle.launched = [])
      (same : lifecycle.process = .new alloc configuration) (unbound : lifecycle.bound = false) (flag : lifecycle.started = false)
      (whole : lifecycle.destroyed = [])
  | binding (here : lifecycle.owner = .binding) (launched : lifecycle.launched = []) (waits : Waits configuration lifecycle)
      (ready : caughtUp configuration [] { lifecycle.process with receiver := .start } = .start alloc configuration)
      (wired : lifecycle.process.application.inputLoop = (EventLoop.new configuration.inputThread).addPoller)
      (set : lifecycle.session.isSetUp = true) (unbound : lifecycle.bound = false) (flag : lifecycle.started = false)
      (whole : lifecycle.destroyed = [])
  | launching {stage : Stage} (here : lifecycle.owner = .launching stage) (launched : lifecycle.launched = launchedBefore stage)
      (waits : Waits configuration lifecycle)
      (reached : Reaches (Process.step lib decoder alloc) (.start alloc configuration)
        (caughtUp configuration lifecycle.launched lifecycle.process))
      (wired : lifecycle.process.application.inputLoop = (EventLoop.new configuration.inputThread).addPoller)
      (there : Bound lifecycle) (flag : lifecycle.started = false) (whole : lifecycle.destroyed = [])
  | started (here : lifecycle.owner = .outside ∨ ∃ destructing, lifecycle.owner = .stopping destructing)
      (serves : Serves lib decoder alloc configuration lifecycle) (there : Bound lifecycle) (flag : lifecycle.started = true)
      (whole : lifecycle.destroyed = [])
  | resting (here : lifecycle.owner = .outside) (set : lifecycle.session.isSetUp = true)
      (rests : Rests lib decoder alloc configuration lifecycle) (flag : lifecycle.started = false) (whole : lifecycle.destroyed = [])
  | ending (here : (∃ left, lifecycle.owner = .destroying left) ∨ ∃ stage left, lifecycle.owner = .joining stage left)
      (rests : Rests lib decoder alloc configuration lifecycle) (flag : lifecycle.started = false)
      (gone : ∀ stage, .loop stage ∈ lifecycle.destroyed → lifecycle.process.application.exited stage = true)

theorem waits_new (called : lifecycle.process = .new alloc configuration) (launched : lifecycle.launched = []) :
    Waits configuration lifecycle := by
  refine ⟨?_, by simp [launched], fun _ => by rw [called]; rfl, fun _ => by rw [called]; rfl⟩
  rw [called]
  exact ⟨EventLoop.idle_new _, rfl, rfl, rfl, rfl, rfl, rfl, rfl⟩

theorem stands_new (receiver : Backend) : Stands lib decoder alloc configuration (.new receiver alloc configuration) :=
  .fresh rfl rfl rfl rfl rfl rfl rfl

/-- A process step of a lifecycle that rests. -/
theorem Rests.step (rests : Rests lib decoder alloc configuration lifecycle) {action : ProcessAction}
    (other : action ≠ .application .control) (stepped : lifecycle.process.step lib decoder alloc action = some process) :
    Rests lib decoder alloc configuration { lifecycle with process } := by
  rcases rests with waits | ⟨serves, returned⟩
  · exact .inl (waits.step other stepped)
  · exact .inr ⟨serves.step stepped, returned_process stepped returned⟩

theorem not_control {action : ProcessAction} (allowed : lifecycle.allows action = true) : action ≠ .application .control := by
  rintro rfl
  cases allowed

/-- Nothing happens before the socket is bound. -/
theorem no_step (waits : Waits configuration lifecycle) (launched : lifecycle.launched = []) (unbound : lifecycle.bound = false)
    {action : ProcessAction} (allowed : lifecycle.allows action = true)
    (stepped : lifecycle.process.step lib decoder alloc action = some process) : False := by
  have idles := waits.idles (not_control allowed) stepped
  rw [launched] at idles
  cases idles with
  | arrive datagram => exact absurd (unbound.symm.trans allowed) (by decide)
  | complete stepped => exact absurd (unbound.symm.trans allowed) (by decide)
  | fail stepped => exact absurd (unbound.symm.trans allowed) (by decide)
  | processingLoop live stepped => cases live
  | outputLoop live stepped => cases live

/-- The threads go on while the owner stands still. -/
theorem Stands.goes (stands : Stands lib decoder alloc configuration lifecycle) {action : ProcessAction}
    (allowed : lifecycle.allows action = true) (stepped : lifecycle.process.step lib decoder alloc action = some process) :
    Stands lib decoder alloc configuration { lifecycle with process } := by
  have other := not_control allowed
  cases stands with
  | fresh here unset launched same unbound flag whole =>
    exact (no_step (waits_new same launched) launched unbound allowed stepped).elim
  | binding here launched waits ready wired set unbound flag whole => exact (no_step waits launched unbound allowed stepped).elim
  | launching here launched waits reached wired there flag whole =>
    refine .launching here launched (waits.step other stepped) ?_ ?_ { there with } flag whole
    · exact reached.trans (.single (caughtUp_idles (waits.idles other stepped)))
    · cases waits.idles other stepped <;> exact wired
  | started here serves there flag whole =>
    exact .started here (serves.step stepped) { there with } flag whole
  | resting here set rests flag whole => exact .resting here set (rests.step other stepped) flag whole
  | ending here rests flag gone =>
    exact .ending here (rests.step other stepped) flag fun stage member => exited_process stepped (gone stage member)

/-- `start` is called. -/
theorem Stands.start (stands : Stands lib decoder alloc configuration lifecycle) (called : Called receiver lifecycle)
    (outside : lifecycle.owner = .outside) : Stands lib decoder alloc configuration lifecycle.start := by
  cases stands with
  | fresh here unset launched process unbound flag whole =>
    obtain ⟨started, -⟩ | ⟨-, set, -⟩ | ⟨-, -, same⟩ := start_cases called
    · exact absurd (flag.symm.trans started) (by decide)
    · exact absurd (unset.symm.trans set) (by decide)
    · have waits := waits_new process launched
      rw [same]
      refine .binding rfl launched ?_ ?_ ?_ ?_ unbound flag whole
      · exact ⟨{ waits.quiet with input := ⟨waits.quiet.input.exited, waits.quiet.input.stopped⟩ }, waits.input, waits.processing,
          waits.output⟩
      · simp only [Lifecycle.wirePipeline, process]
        rfl
      · simp only [Lifecycle.wirePipeline, process]
        rfl
      · cases receiver <;> rfl
  | started here serves there flag whole =>
    obtain ⟨-, same⟩ | ⟨idle, -⟩ | ⟨idle, -⟩ := start_cases called
    · rw [same]
      exact .started (.inl rfl) { serves with } { there with } flag whole
    · exact absurd (flag.symm.trans idle) (by decide)
    · exact absurd (flag.symm.trans idle) (by decide)
  | resting here set rests flag whole =>
    obtain ⟨started, -⟩ | ⟨-, -, same⟩ | ⟨-, unset, -⟩ := start_cases called
    · exact absurd (flag.symm.trans started) (by decide)
    · rw [same]
      exact .resting rfl set (rests.imp (fun waits => { waits with })
        fun gone => ⟨⟨gone.1.launched, gone.1.reached⟩, gone.2⟩) flag whole
    · exact absurd (set.symm.trans unset) (by decide)
  | _ => simp_all

/-- A receiver that is bound was made with the `io_context` that is there. -/
theorem Called.bound (called : Called receiver lifecycle) (binding : lifecycle.owner = .binding) (set : lifecycle.session.isSetUp = true)
    {outcome : RuntimeSession.Binding} (ok : lifecycle.session.start outcome = .ok ()) :
    lifecycle.ioContext = some 1 ∧ lifecycle.session.asioReceiver = some 1 := by
  obtain ⟨session, contexts, -⟩ := called.after set
  have none : repeats lifecycle = 0 := by rw [repeats, (called.first (.inl binding)).1, List.countP_nil]
  rw [none] at contexts
  cases receiver with
  | asioUdp => exact ⟨by rw [Lifecycle.ioContext, contexts]; rfl, by rw [session]; rfl⟩
  | efViUdp =>
    rw [session] at ok
    cases ok

/-- `order_entry_.start()` returns. -/
theorem Stands.bind (stands : Stands lib decoder alloc configuration lifecycle) (called : Called receiver lifecycle)
    (binding : lifecycle.owner = .binding) (outcome : RuntimeSession.Binding) :
    Stands lib decoder alloc configuration (lifecycle.bind outcome) := by
  cases stands with
  | binding here launched waits ready wired set unbound flag whole =>
    unfold Lifecycle.bind
    split
    · exact .resting rfl set (.inl { waits with }) flag whole
    · rename_i bound
      refine .launching rfl launched ⟨{ waits.quiet with outside := rfl }, waits.input, waits.processing, waits.output⟩ ?_ wired ?_
        flag whole
      · rw [launched, ready]
        exact .refl
      · obtain ⟨context, borrowed⟩ := called.bound binding set bound
        have there : lifecycle.ioContext.isSome = true := by rw [context]; rfl
        exact ⟨set, there, borrowed.trans context.symm, rfl⟩
  | _ => simp_all

/-- `start` starts the loop of a stage. -/
theorem Stands.launch (stands : Stands lib decoder alloc configuration lifecycle) {stage : Stage}
    (launching : lifecycle.owner = .launching stage) (thrown : Option Bytes) :
    Stands lib decoder alloc configuration (lifecycle.launch stage thrown) := by
  cases stands with
  | launching here launched waits reached wired there flag whole =>
    obtain rfl := Owner.launching.inj (launching.symm.trans here)
    cases stage with
    | output =>
      have same := waits.output (by rw [launched]; decide)
      obtain ⟨what, -, failed⟩ | ⟨-, ok⟩ := EventLoop.tryStart_cases (same ▸ EventLoop.idle_new _) thrown
      · simp only [Lifecycle.launch, Lifecycle.tryStart, failed, makeLeafError]
        exact .resting rfl there.set (.inl { waits with }) flag whole
      · simp only [Lifecycle.launch, Lifecycle.tryStart, ok, Lifecycle.launchedNext]
        refine .launching rfl (by rw [launched]; rfl) ⟨{ waits.quiet with output := ?_ }, by simp [launched, launchedBefore],
          fun _ => waits.processing (by rw [launched]; decide), fun absent => absurd (by simp) absent⟩ ?_ wired
          { there with } flag whole
        · simp only [same]
          rfl
        · have caught := reached
          rw [launched] at caught ⊢
          simpa [caughtUp, launchedBefore, same, EventLoop.new, EventLoop.start] using caught
    | processing =>
      have same := waits.processing (by rw [launched]; decide)
      obtain ⟨what, -, failed⟩ | ⟨-, ok⟩ := EventLoop.tryStart_cases (same ▸ EventLoop.idle_new _) thrown
      · simp only [Lifecycle.launch, Lifecycle.tryStart, failed, makeLeafError]
        exact .resting rfl there.set (.inl { waits with }) flag whole
      · simp only [Lifecycle.launch, Lifecycle.tryStart, ok, Lifecycle.launchedNext]
        refine .launching rfl (by rw [launched]; rfl) ⟨{ waits.quiet with processing := ?_ }, by simp [launched, launchedBefore],
          fun absent => absurd (by simp) absent, fun absent => absurd (by simp [launched, launchedBefore]) absent⟩ ?_ wired
          { there with } flag whole
        · simp only [same]
          rfl
        · have caught := reached
          rw [launched] at caught ⊢
          simpa [caughtUp, launchedBefore, same, EventLoop.new, EventLoop.start] using caught
    | input =>
      obtain ⟨what, -, failed⟩ | ⟨-, ok⟩ := EventLoop.tryStart_cases waits.quiet.input thrown
      · simp only [Lifecycle.launch, Lifecycle.tryStart, failed, makeLeafError]
        exact .resting rfl there.set (.inl { waits with }) flag whole
      · simp only [Lifecycle.launch, Lifecycle.tryStart, ok, Lifecycle.launchedNext]
        refine .started (.inl rfl) ⟨fun stage => ?_, ?_⟩ { there with } rfl whole
        · cases stage <;> simp [Lifecycle.returns, launched, launchedBefore]
        · have caught := reached
          rw [launched] at caught
          simpa [caughtUp, launchedBefore, wired, EventLoop.new, EventLoop.addPoller, EventLoop.start, Lifecycle.returns] using caught
  | _ => simp_all

/-- Only the process and the loops that were launched count. -/
theorem Rests.same (rests : Rests lib decoder alloc configuration lifecycle)
    (process : lifecycle'.process = lifecycle.process := by rfl) (launched : lifecycle'.launched = lifecycle.launched := by rfl) :
    Rests lib decoder alloc configuration lifecycle' := by
  rcases rests with waits | ⟨serves, returned⟩
  · exact .inl ⟨process ▸ waits.quiet, launched ▸ waits.input, by rw [process, launched]; exact waits.processing,
      by rw [process, launched]; exact waits.output⟩
  · exact .inr ⟨⟨launched ▸ serves.launched, process ▸ serves.reached⟩, process ▸ returned⟩

/-- The destructor stops a loop, which was stopped or has nothing to do. -/
theorem Rests.stopLoop (rests : Rests lib decoder alloc configuration lifecycle) (stage : Stage) (left : List Member) :
    Rests lib decoder alloc configuration (lifecycle.stopLoop stage left) := by
  rcases rests with waits | ⟨serves, returned⟩
  · left
    obtain ⟨quiet, input, processing, output⟩ := waits
    cases stage with
    | input =>
      refine ⟨{ quiet with input := ?_ }, input, processing, output⟩
      change EventLoop.Idle lifecycle.process.application.inputLoop.stop
      rw [quiet.input.stop]
      exact quiet.input
    | processing =>
      refine ⟨{ quiet with processing := quiet.processing }, input, fun absent => ?_, output⟩
      change lifecycle.process.application.processingLoop.stop = _
      rw [processing absent]
      rfl
    | output =>
      refine ⟨{ quiet with output := quiet.output }, input, processing, fun absent => ?_⟩
      change lifecycle.process.application.outputLoop.stop = _
      rw [output absent]
      rfl
  · right
    have same := (serves.gone returned stage).2
    refine ⟨⟨serves.launched, ?_⟩, ?_⟩
    · simp only [Lifecycle.stopLoop, same]
      exact serves.reached
    · simp only [Lifecycle.stopLoop, same]
      exact returned

theorem exited_stopLoop {app : Application} (stage : Stage) {stage' : Stage} (exited : app.exited stage' = true) :
    (app.stopLoop stage).exited stage' = true := by
  cases stage <;> cases stage' <;> exact exited

/-- **Where the threads stand** after every step. -/
theorem Stands.taken (stands : Stands lib decoder alloc configuration lifecycle) (called : Called receiver lifecycle)
    (taken : Lifecycle.Taken lib decoder alloc lifecycle lifecycle') : Stands lib decoder alloc configuration lifecycle' := by
  cases taken with
  | start outside => exact stands.start called outside
  | bind here => exact stands.bind called here _
  | launch here => exact stands.launch here _
  | stop outside started =>
    cases stands with
    | started here serves there flag whole =>
      exact .started (.inr ⟨false, rfl⟩) { serves with } { there with } flag whole
    | _ => simp_all
  | unstopped outside idle => exact stands
  | control stopping stepped =>
    cases stands with
    | started here serves there flag whole =>
      have step : lifecycle.process.step lib decoder alloc (.application .control) = some _ := stepped
      exact .started here (serves.step step) { there with } flag whole
    | _ => simp_all
  | stopReturns stopping returned =>
    rename_i destructing
    cases stands with
    | started here serves there flag whole =>
      cases destructing with
      | true =>
        refine .ending (.inl ⟨_, rfl⟩) (.inr ⟨{ serves with }, returned⟩) rfl fun stage member => ?_
        exact absurd (whole ▸ member) List.not_mem_nil
      | false => exact .resting rfl there.set (.inr ⟨{ serves with }, returned⟩) rfl whole
    | _ => simp_all
  | destruct outside =>
    cases stands with
    | started here serves there flag whole =>
      rw [if_pos flag]
      exact .started (.inr ⟨true, rfl⟩) { serves with } { there with } flag whole
    | fresh here unset launched same unbound flag whole =>
      rw [if_neg (by rw [flag]; exact Bool.false_ne_true)]
      have waits := waits_new same launched
      exact .ending (.inl ⟨_, rfl⟩) (.inl { waits with }) flag
        fun stage member => absurd (whole ▸ member) List.not_mem_nil
    | resting here set rests flag whole =>
      rw [if_neg (by rw [flag]; exact Bool.false_ne_true)]
      exact .ending (.inl ⟨_, rfl⟩) rests.same flag fun stage member => absurd (whole ▸ member) List.not_mem_nil
    | _ => simp_all
  | stopLoop destroying =>
    cases stands with
    | ending here rests flag gone =>
      exact .ending (.inr ⟨_, _, rfl⟩) (rests.stopLoop _ _) flag fun stage member => exited_stopLoop _ (gone stage member)
    | _ => simp_all
  | destroyMember destroying plain =>
    cases stands with
    | ending here rests flag gone =>
      refine .ending (.inl ⟨_, rfl⟩) rests.same flag fun stage member => ?_
      rcases List.mem_append.1 member with member | member
      · exact gone stage member
      · exact absurd (List.mem_singleton.1 member).symm (plain stage)
    | _ => simp_all
  | join joining exited =>
    cases stands with
    | ending here rests flag gone =>
      refine .ending (.inl ⟨_, rfl⟩) rests.same flag fun stage member => ?_
      rcases List.mem_append.1 member with member | member
      · exact gone stage member
      · cases List.mem_singleton.1 member
        exact exited
    | _ => simp_all
  | process allowed stepped => exact stands.goes allowed stepped

/-- **After any calls of the owner**, interleaved with anything the threads do. -/
theorem stands_run {actions : List LifecycleAction}
    (ran : exec (Lifecycle.step lib decoder alloc) (.new receiver alloc configuration) actions = some lifecycle) :
    Called receiver lifecycle ∧ Ordered lifecycle ∧ Stands lib decoder alloc configuration lifecycle :=
  exec_invariant (P := fun l => Called receiver l ∧ Ordered l ∧ Stands lib decoder alloc configuration l)
    ⟨called_new receiver alloc configuration, rfl, stands_new receiver⟩
    (fun _ _ _ holds stepped => by
      have taken := Lifecycle.step_taken stepped
      exact ⟨holds.1.taken taken, holds.2.1.taken holds.1 taken, holds.2.2.taken holds.1 taken⟩) ran

end Standing

end DemoExchange.Refinement
