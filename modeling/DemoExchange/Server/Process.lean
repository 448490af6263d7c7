import DemoExchange.Lab.AsioUdpReceiver
import DemoExchange.MarketData.Publisher
import DemoExchange.OrderEntry.Session
import DemoExchange.Server.Application

/-!
# The server process

The application between its socket and its stdout. The poller of the input loop
is `order_entry::runtime::session::poll`, one `poll_one` of the receiver's
`io_context`: the handler it may run takes a datagram through the session to
`on_request` or `on_rejected`. `application::stop` first stops the receiver,
from its own thread. What the publisher is given goes to stdout. `arrived`,
`delivered` and `rejected` record what reached the socket, what `on_datagram`
was called with and what was logged as rejected.
-/

namespace DemoExchange.Server
set_option autoImplicit false
open Text Lab OrderEntry

structure Process where
  application : Application
  receiver : AsioUdpReceiver
  arrived : List Bytes
  delivered : List Bytes
  rejected : List Rejection
  stdout : Bytes

inductive ProcessAction where
  /-- A datagram reaches the socket. -/
  | arrive (datagram : Bytes)
  /-- The outstanding receive completes. -/
  | complete
  | fail
  /-- The poller calls `poll_one`. -/
  | pollOne
  /-- The handler calls `on_datagram`, and so `session::send`. -/
  | onDatagram
  | postReceive
  /-- `poll_one` returns, and the poller with it. -/
  | pollReturns
  | application (action : Action)
  deriving DecidableEq, Repr

namespace Process

/-- All loops were started and the receiver was before them. -/
def start (alloc : Pool.Allocator) (configuration : Config) : Process where
  application := .start alloc configuration
  receiver := .start
  arrived := []
  delivered := []
  rejected := []
  stdout := []

variable (lib : Nlohmann) (decoder : Decoder) (alloc : Pool.Allocator) (process : Process)

/-- `on_datagram`: the session raises its event, if any. -/
def onDatagram (datagram : Bytes) (receiver : AsioUdpReceiver) : Option Process :=
  let process := { process with receiver, delivered := process.delivered ++ [datagram] }
  match Session.send decoder datagram with
  | some (.onRequest request) => (process.application.step alloc (.onRequest request)).map fun application => { process with application }
  | some (.onRejected rejection) => some { process with rejected := process.rejected ++ [rejection] }
  | none => some process

/-- A task of the output loop sends a message to the publisher. -/
def publish : Option Process :=
  match process.application.outputLoop.task? with
  | some message =>
    (process.application.step alloc .publish).map fun application =>
      { process with application, stdout := process.stdout ++ MarketData.Publisher.send lib message }
  | none => none

/-- The next step of `application::stop`, the first of which stops the receiver. -/
def control : Option Process :=
  (process.application.step alloc .control).map fun application =>
    { process with
      application
      receiver := if process.application.controller = .started then process.receiver.stop else process.receiver }

/-- A step of the application other than its poller's. -/
def applicationStep : Action → Option Process
  | .onRequest _ => none
  | .inputLoop (.pollerReturns _) => none
  | .publish => process.publish lib alloc
  | .control => process.control alloc
  | action => (process.application.step alloc action).map fun application => { process with application }

def step : ProcessAction → Option Process
  | .arrive datagram => some { process with receiver := process.receiver.arrive datagram, arrived := process.arrived ++ [datagram] }
  | .complete => process.receiver.complete.map fun receiver => { process with receiver }
  | .fail => process.receiver.fail.map fun receiver => { process with receiver }
  | .pollOne =>
    if process.application.inputLoop.inPoller then process.receiver.pollOne.map fun receiver => { process with receiver } else none
  | .onDatagram => process.receiver.onDatagram.bind fun taken => process.onDatagram decoder alloc taken.1 taken.2
  | .postReceive => process.receiver.postReceive.map fun receiver => { process with receiver }
  | .pollReturns =>
    process.receiver.pollReturns.bind fun returned =>
      (process.application.step alloc (.inputLoop (.pollerReturns returned.1))).map fun application =>
        { process with application, receiver := returned.2 }
  | .application action => process.applicationStep lib alloc action

/-- The steps, with what allows each. -/
inductive Taken : Process → Prop where
  | arrive (datagram : Bytes) :
    Taken { process with receiver := process.receiver.arrive datagram, arrived := process.arrived ++ [datagram] }
  | complete {receiver : AsioUdpReceiver} (stepped : process.receiver.complete = some receiver) : Taken { process with receiver }
  | fail {receiver : AsioUdpReceiver} (stepped : process.receiver.fail = some receiver) : Taken { process with receiver }
  | pollOne {receiver : AsioUdpReceiver} (polling : process.application.inputLoop.inPoller = true)
      (stepped : process.receiver.pollOne = some receiver) : Taken { process with receiver }
  | onRequest {datagram : Bytes} {receiver : AsioUdpReceiver} {request : Request} {application : Application}
      (taken : process.receiver.onDatagram = some (datagram, receiver))
      (sent : Session.send decoder datagram = some (.onRequest request))
      (stepped : process.application.step alloc (.onRequest request) = some application) :
    Taken { process with application, receiver, delivered := process.delivered ++ [datagram] }
  | onRejected {datagram : Bytes} {receiver : AsioUdpReceiver} {rejection : Rejection}
      (taken : process.receiver.onDatagram = some (datagram, receiver))
      (sent : Session.send decoder datagram = some (.onRejected rejection)) :
    Taken { process with
      receiver
      delivered := process.delivered ++ [datagram]
      rejected := process.rejected ++ [rejection] }
  | dropped {datagram : Bytes} {receiver : AsioUdpReceiver} (taken : process.receiver.onDatagram = some (datagram, receiver))
      (sent : Session.send decoder datagram = none) : Taken { process with receiver, delivered := process.delivered ++ [datagram] }
  | postReceive {receiver : AsioUdpReceiver} (stepped : process.receiver.postReceive = some receiver) : Taken { process with receiver }
  | pollReturns {worked : Bool} {receiver : AsioUdpReceiver} {application : Application}
      (returned : process.receiver.pollReturns = some (worked, receiver))
      (stepped : process.application.step alloc (.inputLoop (.pollerReturns worked)) = some application) :
    Taken { process with application, receiver }
  | publish {message : MarketData.Message} {application : Application} (task : process.application.outputLoop.task? = some message)
      (stepped : process.application.step alloc .publish = some application) :
    Taken { process with application, stdout := process.stdout ++ MarketData.Publisher.send lib message }
  | control {application : Application} (stepped : process.application.step alloc .control = some application) :
    Taken { process with
      application
      receiver := if process.application.controller = .started then process.receiver.stop else process.receiver }
  | other {action : Action} {application : Application} (own : ∀ request, action ≠ .onRequest request)
      (own' : ∀ worked, action ≠ .inputLoop (.pollerReturns worked)) (quiet : action ≠ .publish) (unruled : action ≠ .control)
      (stepped : process.application.step alloc action = some application) : Taken { process with application }

variable {lib decoder alloc process}

theorem step_taken {process' : Process} {action : ProcessAction} (stepped : process.step lib decoder alloc action = some process') :
    Taken lib decoder alloc process process' := by
  cases action with
  | arrive datagram =>
    cases stepped
    exact .arrive datagram
  | complete =>
    obtain ⟨receiver, moved, rfl⟩ := Option.map_eq_some_iff.1 stepped
    exact .complete moved
  | fail =>
    obtain ⟨receiver, moved, rfl⟩ := Option.map_eq_some_iff.1 stepped
    exact .fail moved
  | pollOne =>
    simp only [step] at stepped
    split at stepped
    · rename_i polling
      obtain ⟨receiver, moved, rfl⟩ := Option.map_eq_some_iff.1 stepped
      exact .pollOne polling moved
    · cases stepped
  | onDatagram =>
    obtain ⟨⟨datagram, receiver⟩, taken, stepped⟩ := Option.bind_eq_some_iff.1 stepped
    simp only [onDatagram] at stepped
    split at stepped
    · rename_i request sent
      obtain ⟨application, moved, rfl⟩ := Option.map_eq_some_iff.1 stepped
      exact .onRequest taken sent moved
    · rename_i rejection sent
      cases stepped
      exact .onRejected taken sent
    · rename_i sent
      cases stepped
      exact .dropped taken sent
  | postReceive =>
    obtain ⟨receiver, moved, rfl⟩ := Option.map_eq_some_iff.1 stepped
    exact .postReceive moved
  | pollReturns =>
    obtain ⟨⟨worked, receiver⟩, returned, stepped⟩ := Option.bind_eq_some_iff.1 stepped
    obtain ⟨application, moved, rfl⟩ := Option.map_eq_some_iff.1 stepped
    exact .pollReturns returned moved
  | application action =>
    change process.applicationStep lib alloc action = some process' at stepped
    unfold applicationStep at stepped
    split at stepped
    · cases stepped
    · cases stepped
    · simp only [publish] at stepped
      split at stepped
      · rename_i message task
        obtain ⟨application, moved, rfl⟩ := Option.map_eq_some_iff.1 stepped
        exact .publish task moved
      · cases stepped
    · obtain ⟨application, moved, rfl⟩ := Option.map_eq_some_iff.1 stepped
      exact .control moved
    · rename_i own own' quiet unruled
      obtain ⟨application, moved, rfl⟩ := Option.map_eq_some_iff.1 stepped
      exact .other own own' quiet unruled moved

end Process

end DemoExchange.Server
