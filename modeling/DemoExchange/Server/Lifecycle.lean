import DemoExchange.Lab.EventLoopStart
import DemoExchange.Server.Process

/-!
# The life of an application

`server/src/application.cpp` from the constructor to the destructor, with the
composers of `runtime/`: the thread that owns the application calls `start`,
`stop` and the destructor, one after the other and as often as it likes, while
the threads that `start` has made run. What the system calls of `start` come to
is any choice. A member is used by the threads, the owner's among them, is set
up by `start` and is destroyed by the destructor, in reverse order of
declaration. `run` is left out: the program does not call it, and it joins from
a second thread the threads that `stop` joins, where joining one thread twice is
undefined and nothing orders the two writes of `started_`.
-/

namespace DemoExchange.Server
set_option autoImplicit false
open Text Lab OrderEntry MatchingEngine

/-- The alternatives of `receiver_config`. -/
inductive Backend where
  | asioUdp
  | efViUdp
  deriving DecidableEq, Repr

/-- `order_entry::runtime::session`, its receiver with the `io_context` that it
was made with. -/
structure RuntimeSession where
  isSetUp : Bool
  asioReceiver : Option Nat
  efViReceiver : Bool
  deriving DecidableEq, Repr

namespace RuntimeSession

def alreadySetUp : Error := ⟨ErrorCode.alreadyInProgress.value, ascii "order_entry runtime session already set up"⟩

def setup (session : RuntimeSession) (receiver : Backend) (ioContext : Option Nat) : Result Unit × RuntimeSession :=
  if session.isSetUp then (.error alreadySetUp, session)
  else
    let session := { session with isSetUp := true }
    match receiver, ioContext with
    | .asioUdp, none => (makeLeafError .configurationError (ascii "asio receiver requires a non-null io_context"), session)
    | .asioUdp, some context => (.ok (), { session with asioReceiver := some context })
    | .efViUdp, some _ => (makeLeafError .configurationError (ascii "ef_vi receiver does not take an io_context"), session)
    | .efViUdp, none => (.ok (), { session with efViReceiver := true })

/-- What the calls of `asio_udp_receiver::start` come to. -/
inductive Binding where
  | bound
  | badAddress (message : Bytes)
  | socketFails (message : Bytes)
  deriving DecidableEq, Repr

def start (session : RuntimeSession) (binding : Binding) : Result Unit :=
  if session.isSetUp then
    if session.asioReceiver.isSome then
      match binding with
      | .bound => .ok ()
      | .badAddress message => makeLeafError .configurationError message
      | .socketFails message => makeLeafError .genericError message
    else if session.efViReceiver then
      makeLeafError .notImplemented (ascii "ef_vi backend is a stub; select asio_udp_receiver instead")
    else .ok ()
  else makeLeafError .configurationError (ascii "order_entry runtime session not set up")

end RuntimeSession

/-- `setup` of the runtime engine and of the runtime publisher. -/
def setupOnce (isSetUp : Bool) (text : String) : Result Bool :=
  if isSetUp then makeLeafError .alreadyInProgress (ascii text) else .ok true

def setupEngine (isSetUp : Bool) : Result Bool := setupOnce isSetUp "matching_engine runtime engine already set up"

def setupPublisher (isSetUp : Bool) : Result Bool := setupOnce isSetUp "market_data runtime publisher already set up"

/-- The members of the application that its threads use. -/
inductive Member where
  | ioContext
  | loop (stage : Stage)
  | orderEntry
  | engine
  | publisher
  deriving DecidableEq, Repr

/-- The order of destruction. -/
def Member.reversed : List Member :=
  [.publisher, .engine, .orderEntry, .loop .output, .loop .processing, .loop .input, .ioContext]

/-- Where the owner's thread stands. -/
inductive Owner where
  /-- In no function of the application. -/
  | outside
  /-- In `start`, in front of `order_entry_.start()`. -/
  | binding
  /-- In `start`, in front of the loop's `start`. -/
  | launching (stage : Stage)
  /-- In `stop`, which the destructor has called or not. -/
  | stopping (destructing : Bool)
  /-- In the destructor, in front of the members that are left. -/
  | destroying (left : List Member)
  /-- In the destructor of a loop, in its `join`. -/
  | joining (stage : Stage) (left : List Member)
  deriving DecidableEq, Repr

structure Lifecycle where
  receiver : Backend
  /-- How often `io_context_` was emplaced. -/
  ioContexts : Nat
  session : RuntimeSession
  engineIsSetUp : Bool
  publisherIsSetUp : Bool
  /-- The receiver's socket is open. -/
  bound : Bool
  /-- The loops whose threads were made. -/
  launched : List Stage
  started : Bool
  owner : Owner
  /-- What the calls of `start` returned. -/
  results : List (Result Unit)
  destroyed : List Member
  process : Process

inductive LifecycleAction where
  | start
  /-- `order_entry_.start()`. -/
  | bind (binding : RuntimeSession.Binding)
  /-- The next loop's `start`. -/
  | launch (thrown : Option Bytes)
  | stop
  /-- The next step of `stop`, and its return. -/
  | control
  | stopReturns
  | destruct
  /-- The next step of the destructor. -/
  | destroy
  | process (action : ProcessAction)
  deriving DecidableEq, Repr

/-- No loop was started, and the receiver is not there. -/
def Process.new (alloc : Pool.Allocator) (configuration : Config) : Process :=
  let process := Process.start alloc configuration
  { process with
    application := { process.application with
      inputLoop := .new configuration.inputThread
      processingLoop := .new configuration.processingThread
      outputLoop := .new configuration.outputThread }
    receiver := ⟨[], .none, .outside⟩ }

namespace Lifecycle

/-- The constructor. -/
def new (receiver : Backend) (alloc : Pool.Allocator) (configuration : Config) : Lifecycle where
  receiver := receiver
  ioContexts := 0
  session := ⟨false, none, false⟩
  engineIsSetUp := false
  publisherIsSetUp := false
  bound := false
  launched := []
  started := false
  owner := .outside
  results := []
  destroyed := []
  process := .new alloc configuration

variable (lib : Nlohmann) (decoder : Decoder) (alloc : Pool.Allocator) (lifecycle : Lifecycle)

/-- `io_context_`, if it holds one. -/
def ioContext : Option Nat := if lifecycle.ioContexts = 0 then none else some lifecycle.ioContexts

/-- `start` returns. -/
def returns (result : Result Unit) : Lifecycle := { lifecycle with owner := .outside, results := lifecycle.results ++ [result] }

/-- Only the asio receiver needs the `io_context`. -/
def emplaceIoContext : Lifecycle :=
  { lifecycle with
    ioContexts :=
      match lifecycle.receiver with
      | .asioUdp => lifecycle.ioContexts + 1
      | .efViUdp => lifecycle.ioContexts }

/-- `wire_pipeline`. -/
def wirePipeline : Lifecycle :=
  let application := lifecycle.process.application
  { lifecycle with process := { lifecycle.process with application := { application with inputLoop := application.inputLoop.addPoller } } }

def alreadyStarted : Error := ⟨ErrorCode.alreadyInProgress.value, ascii "application already started"⟩

/-- `start`, up to `order_entry_.start()`. -/
def start : Lifecycle :=
  if lifecycle.started then lifecycle.returns (.error alreadyStarted)
  else
    let lifecycle := lifecycle.emplaceIoContext
    match lifecycle.session.setup lifecycle.receiver lifecycle.ioContext with
    | (.error error, session) => { lifecycle with session }.returns (.error error)
    | (.ok (), session) =>
      let lifecycle := { lifecycle with session }
      match setupEngine lifecycle.engineIsSetUp with
      | .error error => lifecycle.returns (.error error)
      | .ok engineIsSetUp =>
        let lifecycle := { lifecycle with engineIsSetUp }
        match setupPublisher lifecycle.publisherIsSetUp with
        | .error error => lifecycle.returns (.error error)
        | .ok publisherIsSetUp => { lifecycle with publisherIsSetUp, owner := .binding }.wirePipeline

/-- `order_entry_.start()`: a receiver that is bound has posted a receive. -/
def bind (binding : RuntimeSession.Binding) : Lifecycle :=
  match lifecycle.session.start binding with
  | .error error => lifecycle.returns (.error error)
  | .ok () => { lifecycle with owner := .launching .output, bound := true, process := { lifecycle.process with receiver := .start } }

/-- The next stage in `start`. -/
def launchedNext : Stage → Option Stage
  | .output => some .processing
  | .processing => some .input
  | .input => none

/-- The loop of a stage starts. -/
def tryStart (stage : Stage) (thrown : Option Bytes) : Result Unit × Process :=
  let process := lifecycle.process
  let application := process.application
  match stage with
  | .input =>
    let (result, inputLoop) := application.inputLoop.tryStart thrown
    (result, { process with application := { application with inputLoop } })
  | .processing =>
    let (result, processingLoop) := application.processingLoop.tryStart thrown
    (result, { process with application := { application with processingLoop } })
  | .output =>
    let (result, outputLoop) := application.outputLoop.tryStart thrown
    (result, { process with application := { application with outputLoop } })

def launch (stage : Stage) (thrown : Option Bytes) : Lifecycle :=
  match lifecycle.tryStart stage thrown with
  | (.error error, process) => { lifecycle with process }.returns (.error error)
  | (.ok (), process) =>
    let lifecycle := { lifecycle with process, launched := lifecycle.launched ++ [stage] }
    match launchedNext stage with
    | some next => { lifecycle with owner := .launching next }
    | none => { lifecycle with started := true }.returns (.ok ())

/-- A member without a thread is destroyed, and a receiver with its socket. -/
def destroyMember (member : Member) (left : List Member) : Lifecycle :=
  { lifecycle with
    owner := .destroying left
    bound := lifecycle.bound && member ≠ .orderEntry
    destroyed := lifecycle.destroyed ++ [member] }

/-- The destructor of a loop stops it first. -/
def stopLoop (stage : Stage) (left : List Member) : Lifecycle :=
  { lifecycle with
    owner := .joining stage left
    process := { lifecycle.process with application := lifecycle.process.application.stopLoop stage } }

/-- The next step of the destructor. -/
def destroy : Option Lifecycle :=
  match lifecycle.owner with
  | .destroying (.loop stage :: left) => some (lifecycle.stopLoop stage left)
  | .destroying (member :: left) => some (lifecycle.destroyMember member left)
  | .joining stage left =>
    if lifecycle.process.application.exited stage then some (lifecycle.destroyMember (.loop stage) left) else none
  | _ => none

/-- The other threads do not call `stop`, and a datagram needs an open socket. -/
def allows : ProcessAction → Bool
  | .application .control => false
  | .arrive _ => lifecycle.bound
  | .complete => lifecycle.bound
  | .fail => lifecycle.bound
  | _ => true

def step : LifecycleAction → Option Lifecycle
  | .start => if lifecycle.owner = .outside then some lifecycle.start else none
  | .bind binding => if lifecycle.owner = .binding then some (lifecycle.bind binding) else none
  | .launch thrown =>
    match lifecycle.owner with
    | .launching stage => some (lifecycle.launch stage thrown)
    | _ => none
  | .stop =>
    if lifecycle.owner = .outside then
      some (if lifecycle.started then { lifecycle with owner := .stopping false } else lifecycle)
    else none
  | .control =>
    match lifecycle.owner with
    | .stopping _ => (lifecycle.process.control alloc).map fun process => { lifecycle with process }
    | _ => none
  | .stopReturns =>
    match lifecycle.owner with
    | .stopping destructing =>
      if lifecycle.process.application.controller = .returned then
        some { lifecycle with started := false, owner := if destructing then .destroying Member.reversed else .outside }
      else none
    | _ => none
  | .destruct =>
    if lifecycle.owner = .outside then
      some { lifecycle with owner := if lifecycle.started then .stopping true else .destroying Member.reversed }
    else none
  | .destroy => lifecycle.destroy
  | .process action =>
    if lifecycle.allows action then (lifecycle.process.step lib decoder alloc action).map fun process => { lifecycle with process }
    else none

/-- A loop's thread uses the member now. -/
def Uses : Member → Prop
  | .ioContext => lifecycle.process.application.inputLoop.inPoller = true
  | .orderEntry => lifecycle.process.application.inputLoop.inPoller = true
  | .engine => ∃ request, lifecycle.process.application.processingLoop.task? = some request
  | .publisher => ∃ message, lifecycle.process.application.outputLoop.task? = some message
  | .loop .input => lifecycle.process.application.inputLoop.exited = false
  | .loop .processing =>
    lifecycle.process.application.processingLoop.exited = false ∨ lifecycle.process.application.inputLoop.inPoller = true
  | .loop .output =>
    lifecycle.process.application.outputLoop.exited = false ∨
      ∃ request, lifecycle.process.application.processingLoop.task? = some request

/-- The member is there to be used. -/
def Ready : Member → Prop
  | .ioContext => lifecycle.ioContext.isSome = true
  | .orderEntry =>
    lifecycle.session.isSetUp = true ∧ lifecycle.ioContext.isSome = true ∧ lifecycle.session.asioReceiver = lifecycle.ioContext ∧
      lifecycle.bound = true
  | .engine => lifecycle.engineIsSetUp = true
  | .publisher => lifecycle.publisherIsSetUp = true
  | .loop stage => stage ∈ lifecycle.launched

/-- The owner is in the destructor of the member. -/
def Destroys (member : Member) : Prop :=
  (∃ left, lifecycle.owner = .destroying (member :: left)) ∨ ∃ stage left, member = .loop stage ∧ lifecycle.owner = .joining stage left

/-- The owner is in `stop`, in front of `order_entry_.stop()`. -/
def StopsReceiver : Prop :=
  (∃ destructing, lifecycle.owner = .stopping destructing) ∧ lifecycle.process.application.controller = .started

/-- The owner is in `stop`, at the `stop` or the `join` of the loop. -/
def StopsLoop (stage : Stage) : Prop :=
  (∃ destructing, lifecycle.owner = .stopping destructing) ∧
    (lifecycle.process.application.controller = .stopping stage ∨ lifecycle.process.application.controller = .joining stage)

/-- The owner is in a call of the receiver or destroys it, which it does with
the session. -/
def OwnsReceiver : Prop := lifecycle.owner = .binding ∨ lifecycle.StopsReceiver ∨ lifecycle.Destroys .orderEntry

/-- The owner's thread uses the member now. -/
def OwnerUses : Member → Prop
  | .ioContext => lifecycle.OwnsReceiver ∨ lifecycle.Destroys .ioContext
  | .orderEntry => lifecycle.OwnsReceiver
  | .engine => lifecycle.Destroys .engine
  | .publisher => lifecycle.Destroys .publisher
  | .loop stage => lifecycle.owner = .launching stage ∨ lifecycle.StopsLoop stage ∨ lifecycle.Destroys (.loop stage)

/-- A thread uses the asio receiver, and with it the `io_context` that it was
made with: the input loop polls, or the owner is at it. -/
def UsesReceiver : Prop :=
  lifecycle.session.asioReceiver.isSome = true ∧
    (lifecycle.process.application.inputLoop.inPoller = true ∨ lifecycle.OwnsReceiver)

/-- The steps, with what allows each. -/
inductive Taken : Lifecycle → Prop where
  | start (outside : lifecycle.owner = .outside) : Taken lifecycle.start
  | bind {binding : RuntimeSession.Binding} (here : lifecycle.owner = .binding) : Taken (lifecycle.bind binding)
  | launch {stage : Stage} {thrown : Option Bytes} (here : lifecycle.owner = .launching stage) : Taken (lifecycle.launch stage thrown)
  | stop (outside : lifecycle.owner = .outside) (started : lifecycle.started = true) : Taken { lifecycle with owner := .stopping false }
  | unstopped (outside : lifecycle.owner = .outside) (idle : lifecycle.started = false) : Taken lifecycle
  | control {destructing : Bool} {process : Process} (here : lifecycle.owner = .stopping destructing)
      (stepped : lifecycle.process.control alloc = some process) : Taken { lifecycle with process }
  | stopReturns {destructing : Bool} (here : lifecycle.owner = .stopping destructing)
      (returned : lifecycle.process.application.controller = .returned) :
    Taken { lifecycle with started := false, owner := if destructing then .destroying Member.reversed else .outside }
  | destruct (outside : lifecycle.owner = .outside) :
    Taken { lifecycle with owner := if lifecycle.started then .stopping true else .destroying Member.reversed }
  | stopLoop {stage : Stage} {left : List Member} (here : lifecycle.owner = .destroying (.loop stage :: left)) :
    Taken (lifecycle.stopLoop stage left)
  | destroyMember {member : Member} {left : List Member} (here : lifecycle.owner = .destroying (member :: left))
      (plain : ∀ stage, member ≠ .loop stage) : Taken (lifecycle.destroyMember member left)
  | join {stage : Stage} {left : List Member} (here : lifecycle.owner = .joining stage left)
      (exited : lifecycle.process.application.exited stage = true) : Taken (lifecycle.destroyMember (.loop stage) left)
  | process {action : ProcessAction} {process : Process} (allowed : lifecycle.allows action = true)
      (stepped : lifecycle.process.step lib decoder alloc action = some process) : Taken { lifecycle with process }

variable {lib decoder alloc lifecycle}

theorem step_taken {lifecycle' : Lifecycle} {action : LifecycleAction}
    (stepped : lifecycle.step lib decoder alloc action = some lifecycle') : Taken lib decoder alloc lifecycle lifecycle' := by
  cases action with
  | start =>
    simp only [step] at stepped
    split at stepped
    · rename_i outside
      cases stepped
      exact .start outside
    · cases stepped
  | bind binding =>
    simp only [step] at stepped
    split at stepped
    · rename_i here
      cases stepped
      exact .bind here
    · cases stepped
  | launch thrown =>
    simp only [step] at stepped
    split at stepped
    · rename_i stage here
      cases stepped
      exact .launch here
    · cases stepped
  | stop =>
    simp only [step] at stepped
    split at stepped
    · rename_i outside
      cases stepped
      by_cases started : lifecycle.started = true
      · rw [if_pos started]
        exact .stop outside started
      · rw [if_neg started]
        exact .unstopped outside (Bool.eq_false_iff.2 started)
    · cases stepped
  | control =>
    simp only [step] at stepped
    split at stepped
    · rename_i destructing here
      obtain ⟨process, moved, rfl⟩ := Option.map_eq_some_iff.1 stepped
      exact .control here moved
    · cases stepped
  | stopReturns =>
    simp only [step] at stepped
    split at stepped
    · rename_i destructing here
      split at stepped
      · rename_i returned
        cases stepped
        exact .stopReturns here returned
      · cases stepped
    · cases stepped
  | destruct =>
    simp only [step] at stepped
    split at stepped
    · rename_i outside
      cases stepped
      exact .destruct outside
    · cases stepped
  | destroy =>
    simp only [step, destroy] at stepped
    split at stepped
    · rename_i stage left here
      cases stepped
      exact .stopLoop here
    · rename_i member left plain here
      cases stepped
      exact .destroyMember here plain
    · rename_i stage left here
      split at stepped
      · rename_i exited
        cases stepped
        exact .join here exited
      · cases stepped
    · cases stepped
  | process action =>
    simp only [step] at stepped
    split at stepped
    · rename_i allowed
      obtain ⟨process, moved, rfl⟩ := Option.map_eq_some_iff.1 stepped
      exact .process allowed moved
    · cases stepped

end Lifecycle

end DemoExchange.Server
