import DemoExchange.Lab.EventLoop
import DemoExchange.MatchingEngine.Engine

/-!
# The application

`server/src/application.cpp` once `start` has returned: the three loops as
`wire_pipeline` connects them, and the thread that calls `stop`. A task is what
its closure captured: the processing loop's tasks are requests for the engine,
the output loop's are messages for the publisher, and nothing posts to the
input loop. The engine's call is not atomic: the messages it raises are posted
one by one while the output loop runs. `received`, `answers` and `published`
record what was handed to `on_request`, to the engine and to the publisher.
-/

namespace DemoExchange.Server
set_option autoImplicit false
open Lab OrderEntry MatchingEngine

/-- The part of `server::config` that the pipeline depends on. -/
structure Config where
  matchingEngine : EngineConfig
  inputThread : IdleStrategy
  processingThread : IdleStrategy
  outputThread : IdleStrategy
  deriving DecidableEq, Repr

inductive Stage where
  | input
  | processing
  | output
  deriving DecidableEq, Repr

/-- Where the thread that calls `application::stop` stands. -/
inductive Controller where
  /-- `order_entry_.stop()` has not been called. -/
  | started
  /-- The stage's loop is to be stopped. -/
  | stopping (stage : Stage)
  /-- The stage's loop is to be joined. -/
  | joining (stage : Stage)
  | returned
  deriving DecidableEq, Repr

/-- `stop` goes on to the next stage when the thread of one was joined. -/
def Stage.joined : Stage → Controller
  | .input => .stopping .processing
  | .processing => .stopping .output
  | .output => .returned

structure Application where
  inputLoop : EventLoop Empty
  processingLoop : EventLoop Request
  outputLoop : EventLoop MarketData.Message
  engine : Engine
  /-- The calls still to come of the `engine_.send` that is under way. -/
  callbacks : Option (List Emission)
  controller : Controller
  received : List Request
  answers : List (Request × List Emission)
  published : List MarketData.Message

inductive Action where
  | inputLoop (act : EventLoop.Act)
  | processingLoop (act : EventLoop.Act)
  | outputLoop (act : EventLoop.Act)
  /-- The input poller hands a request over. -/
  | onRequest (request : Request)
  /-- A task of the processing loop calls `engine_.send`. -/
  | send
  /-- The engine calls `on_market_data` or `on_order_entry`. -/
  | callback
  /-- `engine_.send` returns, and the task with it. -/
  | sendReturns
  /-- A task of the output loop calls `publisher_.send` and returns. -/
  | publish
  /-- The next step of `application::stop`. -/
  | control
  deriving DecidableEq, Repr

namespace Application

/-- All loops were started, each with what `wire_pipeline` gave it. -/
def start (alloc : Pool.Allocator) (configuration : Config) : Application where
  inputLoop := .start configuration.inputThread 1
  processingLoop := .start configuration.processingThread 0
  outputLoop := .start configuration.outputThread 0
  engine := .init alloc configuration.matchingEngine
  callbacks := none
  controller := .started
  received := []
  answers := []
  published := []

/-- `order_entry_.on_request`. -/
def onRequest (app : Application) (request : Request) : Application :=
  { app with processingLoop := app.processingLoop.post request, received := app.received ++ [request] }

/-- `engine_.on_market_data`; `engine_.on_order_entry` does nothing. -/
def emit (app : Application) (emission : Emission) : Application :=
  { app with
    outputLoop :=
      match emission.message? with
      | some message => app.outputLoop.post message
      | none => app.outputLoop }

/-- `engine_.send` of a request, up to its first callback. -/
def send (alloc : Pool.Allocator) (app : Application) (request : Request) : Option Application :=
  match Engine.send alloc app.engine request with
  | .ok (engine, emissions) =>
    some { app with engine := engine, callbacks := some emissions, answers := app.answers ++ [(request, emissions)] }
  | .error _ => none

/-- The loop of a stage is told to stop. -/
def stopLoop (app : Application) : Stage → Application
  | .input => { app with inputLoop := app.inputLoop.stop }
  | .processing => { app with processingLoop := app.processingLoop.stop }
  | .output => { app with outputLoop := app.outputLoop.stop }

/-- The thread of a stage can be joined. -/
def exited (app : Application) : Stage → Bool
  | .input => app.inputLoop.exited
  | .processing => app.processingLoop.exited
  | .output => app.outputLoop.exited

/-- `stop`. Its call of `order_entry_.stop` cancels what the receiver waits
for; a poller may still hand over what had arrived. -/
def control (app : Application) : Option Application :=
  match app.controller with
  | .started => some { app with controller := .stopping .input }
  | .stopping stage => some { app.stopLoop stage with controller := .joining stage }
  | .joining stage => if app.exited stage then some { app with controller := stage.joined } else none
  | .returned => none

def step (alloc : Pool.Allocator) (app : Application) : Action → Option Application
  | .inputLoop act => (app.inputLoop.step act).map fun loop => { app with inputLoop := loop }
  | .processingLoop act => (app.processingLoop.step act).map fun loop => { app with processingLoop := loop }
  | .outputLoop act => (app.outputLoop.step act).map fun loop => { app with outputLoop := loop }
  | .onRequest request => if app.inputLoop.inPoller then some (app.onRequest request) else none
  | .send =>
    match app.callbacks, app.processingLoop.task? with
    | none, some request => app.send alloc request
    | _, _ => none
  | .callback =>
    match app.callbacks with
    | some (emission :: rest) => some ({ app with callbacks := some rest }.emit emission)
    | _ => none
  | .sendReturns =>
    match app.callbacks with
    | some [] => app.processingLoop.taskReturns.map fun loop => { app with processingLoop := loop, callbacks := none }
    | _ => none
  | .publish =>
    match app.outputLoop.task? with
    | some message =>
      app.outputLoop.taskReturns.map fun loop => { app with outputLoop := loop, published := app.published ++ [message] }
    | none => none
  | .control => app.control

/-- The steps, with what allows each. -/
inductive Taken (alloc : Pool.Allocator) (app : Application) : Application → Prop where
  | inputLoop {act : EventLoop.Act} {loop : EventLoop Empty} (stepped : app.inputLoop.step act = some loop) :
    Taken alloc app { app with inputLoop := loop }
  | processingLoop {act : EventLoop.Act} {loop : EventLoop Request} (stepped : app.processingLoop.step act = some loop) :
    Taken alloc app { app with processingLoop := loop }
  | outputLoop {act : EventLoop.Act} {loop : EventLoop MarketData.Message} (stepped : app.outputLoop.step act = some loop) :
    Taken alloc app { app with outputLoop := loop }
  | onRequest (request : Request) (polling : app.inputLoop.inPoller = true) : Taken alloc app (app.onRequest request)
  | send {request : Request} {engine : Engine} {emissions : List Emission} (idle : app.callbacks = none)
      (task : app.processingLoop.task? = some request) (sent : app.engine.send alloc request = .ok (engine, emissions)) :
    Taken alloc app { app with engine := engine, callbacks := some emissions, answers := app.answers ++ [(request, emissions)] }
  | callback {emission : Emission} {rest : List Emission} (left : app.callbacks = some (emission :: rest)) :
    Taken alloc app ({ app with callbacks := some rest }.emit emission)
  | sendReturns {loop : EventLoop Request} (left : app.callbacks = some []) (returned : app.processingLoop.taskReturns = some loop) :
    Taken alloc app { app with processingLoop := loop, callbacks := none }
  | publish {message : MarketData.Message} {loop : EventLoop MarketData.Message} (task : app.outputLoop.task? = some message)
      (returned : app.outputLoop.taskReturns = some loop) :
    Taken alloc app { app with outputLoop := loop, published := app.published ++ [message] }
  | stopSession (here : app.controller = .started) : Taken alloc app { app with controller := .stopping .input }
  | stopLoop {stage : Stage} (here : app.controller = .stopping stage) :
    Taken alloc app { app.stopLoop stage with controller := .joining stage }
  | join {stage : Stage} (here : app.controller = .joining stage) (exited : app.exited stage = true) :
    Taken alloc app { app with controller := stage.joined }

theorem step_taken {alloc : Pool.Allocator} {app app' : Application} {action : Action} (stepped : app.step alloc action = some app') :
    Taken alloc app app' := by
  cases action with
  | inputLoop act =>
    obtain ⟨loop, moved, rfl⟩ := Option.map_eq_some_iff.1 stepped
    exact .inputLoop moved
  | processingLoop act =>
    obtain ⟨loop, moved, rfl⟩ := Option.map_eq_some_iff.1 stepped
    exact .processingLoop moved
  | outputLoop act =>
    obtain ⟨loop, moved, rfl⟩ := Option.map_eq_some_iff.1 stepped
    exact .outputLoop moved
  | onRequest request =>
    simp only [step] at stepped
    split at stepped
    · rename_i polling
      cases stepped
      exact .onRequest request polling
    · cases stepped
  | send =>
    simp only [step] at stepped
    split at stepped
    · rename_i request idle task
      unfold send at stepped
      split at stepped
      · rename_i engine emissions sent
        cases stepped
        exact .send idle task sent
      · cases stepped
    · cases stepped
  | callback =>
    simp only [step] at stepped
    split at stepped
    · rename_i emission rest left
      cases stepped
      exact .callback left
    · cases stepped
  | sendReturns =>
    simp only [step] at stepped
    split at stepped
    · rename_i left
      obtain ⟨loop, returned, rfl⟩ := Option.map_eq_some_iff.1 stepped
      exact .sendReturns left returned
    · cases stepped
  | publish =>
    simp only [step] at stepped
    split at stepped
    · rename_i message task
      obtain ⟨loop, returned, rfl⟩ := Option.map_eq_some_iff.1 stepped
      exact .publish task returned
    · cases stepped
  | control =>
    simp only [step, control] at stepped
    split at stepped
    · rename_i here
      cases stepped
      exact .stopSession here
    · rename_i stage here
      cases stepped
      exact .stopLoop here
    · rename_i stage here
      split at stepped
      · rename_i exited
        cases stepped
        exact .join here exited
      · cases stepped
    · cases stepped

end Application

end DemoExchange.Server
