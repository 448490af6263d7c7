import DemoExchange.Lib.Stages
import DemoExchange.Refinement.Pipeline
import DemoExchange.Refinement.Runs
import DemoExchange.Server.Process

/-!
# The process as a chain of stages

What a sequential program would print for some datagrams is `serve`: the
session's requests, the exchange's market data, the publisher's records.
Every interleaving of the process is one of the application (`reaches_run`),
and `Chained` is what ties its ends to the socket and to stdout, so each stage
has done a beginning of what `serve` does.
-/

namespace DemoExchange.Refinement
set_option autoImplicit false
open Text Lab OrderEntry MatchingEngine Reference Server Interleaving Stages

section Serving

/-- The request that the session makes of a packet. -/
def requestOf (decoder : Decoder) (packet : Bytes) : Option Request :=
  match Session.send decoder packet with
  | some (.onRequest request) => some request
  | _ => none

/-- The rejection that the session makes of a packet. -/
def rejectedOf (decoder : Decoder) (packet : Bytes) : Option Rejection :=
  match Session.send decoder packet with
  | some (.onRejected rejection) => some rejection
  | _ => none

/-- The requests that the session makes of some datagrams. -/
def requestsOf (decoder : Decoder) (datagrams : List Bytes) : List Request := datagrams.filterMap (requestOf decoder)

/-- The market data of the exchange on some requests. -/
def marketDataOf (configuration : EngineConfig) (requests : List Request) : List MarketData.Message :=
  (numberedRun configuration requests).2.flatMap fun answer => messages answer.2

/-- The records of some messages. -/
def recordsOf (lib : Nlohmann) (published : List MarketData.Message) : Bytes := published.flatMap (MarketData.Publisher.send lib)

/-- What is printed for some datagrams. -/
def serve (lib : Nlohmann) (decoder : Decoder) (configuration : EngineConfig) (datagrams : List Bytes) : Bytes :=
  recordsOf lib (marketDataOf configuration (requestsOf decoder datagrams))

theorem causal_marketDataOf (configuration : EngineConfig) : Causal (marketDataOf configuration) :=
  (causal_flatMap fun answer : Request × List Emission => messages answer.2).comp (causal_drive numberedStep _)

theorem causal_recordsOf (lib : Nlohmann) : Causal (recordsOf lib) := causal_flatMap _

end Serving

section Chain

variable {lib : Nlohmann} {decoder : Decoder} {alloc : Pool.Allocator} {process process' : Process}

/-- Every step of the process is one of the application, or none. -/
theorem reaches_taken (taken : Process.Taken lib decoder alloc process process') :
    Reaches (Application.step alloc) process.application process'.application := by
  cases taken with
  | onRequest taken sent stepped => exact .single stepped
  | pollReturns returned stepped => exact .single stepped
  | publish task stepped => exact .single stepped
  | control stepped => exact .single stepped
  | other own own' quiet unruled stepped => exact .single stepped
  | _ => exact .refl

/-- What a step of the process does to its receiver. -/
theorem receiver_taken (taken : Process.Taken lib decoder alloc process process') :
    process'.receiver = process.receiver ∨ AsioUdpReceiver.Moved process.receiver process'.receiver := by
  cases taken with
  | arrive datagram => exact .inr (.arrive datagram)
  | complete stepped => exact .inr (.complete stepped)
  | fail stepped => exact .inr (.fail stepped)
  | pollOne polling stepped => exact .inr (.pollOne stepped)
  | onRequest taken sent stepped => exact .inr (.onDatagram taken)
  | onRejected taken sent => exact .inr (.onDatagram taken)
  | dropped taken sent => exact .inr (.onDatagram taken)
  | postReceive stepped => exact .inr (.postReceive stepped)
  | pollReturns returned stepped => exact .inr (.pollReturns returned)
  | publish task stepped => exact .inl rfl
  | control stepped =>
    by_cases first : process.application.controller = .started
    · exact .inr (by simpa only [if_pos first] using .stop)
    · exact .inl (if_neg first)
  | other own own' quiet unruled stepped => exact .inl rfl

/-- The ends of the process: what the session raised is what the application
was given and what was logged, and what the application published is on stdout. -/
structure Chained (lib : Nlohmann) (decoder : Decoder) (process : Process) : Prop where
  sound : process.receiver.Sound
  socket : process.arrived.map AsioUdpReceiver.cut = process.delivered ++ process.receiver.undelivered
  received : process.application.received = requestsOf decoder process.delivered
  rejected : process.rejected = process.delivered.filterMap (rejectedOf decoder)
  stdout : process.stdout = recordsOf lib process.application.published

theorem Chained.start (lib : Nlohmann) (decoder : Decoder) (alloc : Pool.Allocator) (configuration : Config) :
    Chained lib decoder (.start alloc configuration) := ⟨.start, rfl, rfl, rfl, rfl⟩

/-- What an action of the application leaves alone. -/
structure Frame (app app' : Application) (action : Action) : Prop where
  received : (∀ request, action ≠ .onRequest request) → app'.received = app.received
  published : action ≠ .publish → app'.published = app.published
  inputLoop : (∀ act, action ≠ .inputLoop act) → action ≠ .control → app'.inputLoop = app.inputLoop
  controller : action ≠ .control → app'.controller = app.controller
  told : action = .control → app'.controller ≠ .started ∧ (app'.inputLoop = app.inputLoop ∨ app'.inputLoop = app.inputLoop.stop)

theorem step_frame {app app' : Application} {action : Action} (stepped : app.step alloc action = some app') : Frame app app' action := by
  cases action with
  | onRequest request =>
    simp only [Application.step] at stepped
    split at stepped
    · cases stepped
      exact ⟨fun other => absurd rfl (other request), fun _ => rfl, fun _ _ => rfl, fun _ => rfl, by simp⟩
    · cases stepped
  | publish =>
    simp only [Application.step] at stepped
    split at stepped
    · obtain ⟨loop, -, rfl⟩ := Option.map_eq_some_iff.1 stepped
      exact ⟨fun _ => rfl, fun other => absurd rfl other, fun _ _ => rfl, fun _ => rfl, by simp⟩
    · cases stepped
  | inputLoop act =>
    obtain ⟨loop, -, rfl⟩ := Option.map_eq_some_iff.1 stepped
    exact ⟨fun _ => rfl, fun _ => rfl, fun other => absurd rfl (other act), fun _ => rfl, by simp⟩
  | processingLoop act =>
    obtain ⟨loop, -, rfl⟩ := Option.map_eq_some_iff.1 stepped
    exact ⟨fun _ => rfl, fun _ => rfl, fun _ _ => rfl, fun _ => rfl, by simp⟩
  | outputLoop act =>
    obtain ⟨loop, -, rfl⟩ := Option.map_eq_some_iff.1 stepped
    exact ⟨fun _ => rfl, fun _ => rfl, fun _ _ => rfl, fun _ => rfl, by simp⟩
  | send =>
    simp only [Application.step] at stepped
    split at stepped
    · unfold Application.send at stepped
      split at stepped
      · cases stepped
        exact ⟨fun _ => rfl, fun _ => rfl, fun _ _ => rfl, fun _ => rfl, by simp⟩
      · cases stepped
    · cases stepped
  | callback =>
    simp only [Application.step] at stepped
    split at stepped
    · cases stepped
      exact ⟨fun _ => rfl, fun _ => rfl, fun _ _ => rfl, fun _ => rfl, by simp⟩
    · cases stepped
  | sendReturns =>
    simp only [Application.step] at stepped
    split at stepped
    · obtain ⟨loop, -, rfl⟩ := Option.map_eq_some_iff.1 stepped
      exact ⟨fun _ => rfl, fun _ => rfl, fun _ _ => rfl, fun _ => rfl, by simp⟩
    · cases stepped
  | control =>
    simp only [Application.step, Application.control] at stepped
    split at stepped
    · cases stepped
      exact ⟨fun _ => rfl, fun _ => rfl, fun _ _ => rfl, by simp, fun _ => ⟨by simp, .inl rfl⟩⟩
    · rename_i stage here
      cases stepped
      cases stage with
      | input => exact ⟨fun _ => rfl, fun _ => rfl, by simp, by simp, fun _ => ⟨by simp, .inr rfl⟩⟩
      | processing => exact ⟨fun _ => rfl, fun _ => rfl, by simp, by simp, fun _ => ⟨by simp, .inl rfl⟩⟩
      | output => exact ⟨fun _ => rfl, fun _ => rfl, by simp, by simp, fun _ => ⟨by simp, .inl rfl⟩⟩
    · rename_i stage here
      split at stepped
      · cases stepped
        exact ⟨fun _ => rfl, fun _ => rfl, fun _ _ => rfl, by simp, fun _ => ⟨by cases stage <;> simp [Stage.joined], .inl rfl⟩⟩
      · cases stepped
    · cases stepped

theorem onRequest_step {app app' : Application} {request : Request} (stepped : app.step alloc (.onRequest request) = some app') :
    app' = app.onRequest request := by
  simp only [Application.step] at stepped
  split at stepped
  · exact (Option.some.inj stepped).symm
  · cases stepped

theorem publish_step {app app' : Application} {message : MarketData.Message} (task : app.outputLoop.task? = some message)
    (stepped : app.step alloc .publish = some app') : app'.published = app.published ++ [message] := by
  simp only [Application.step, task] at stepped
  obtain ⟨loop, -, rfl⟩ := Option.map_eq_some_iff.1 stepped
  rfl

/-- **The ends stay tied** to the application at every step. -/
theorem Chained.taken (chained : Chained lib decoder process) (taken : Process.Taken lib decoder alloc process process') :
    Chained lib decoder process' := by
  have sound : process'.receiver.Sound := by
    rcases receiver_taken taken with same | moved
    · rw [same]
      exact chained.sound
    · exact chained.sound.moved moved
  obtain ⟨before, socket, received, rejected, stdout⟩ := chained
  cases taken with
  | arrive datagram =>
    refine ⟨sound, ?_, received, rejected, stdout⟩
    rw [AsioUdpReceiver.undelivered_arrive, List.map_append, socket, List.append_assoc]
    rfl
  | complete stepped => exact ⟨sound, by rw [AsioUdpReceiver.undelivered_complete stepped, socket], received, rejected, stdout⟩
  | fail stepped => exact ⟨sound, by rw [AsioUdpReceiver.undelivered_fail stepped, socket], received, rejected, stdout⟩
  | pollOne polling stepped => exact ⟨sound, by rw [AsioUdpReceiver.undelivered_pollOne stepped, socket], received, rejected, stdout⟩
  | onRequest taken sent stepped =>
    cases onRequest_step stepped
    refine ⟨sound, ?_, ?_, ?_, stdout⟩
    · rw [socket, AsioUdpReceiver.undelivered_onDatagram taken, List.append_assoc, List.singleton_append]
    · rw [requestsOf, List.filterMap_append, ← requestsOf, ← received]
      simp [Application.onRequest, requestOf, sent]
    · rw [List.filterMap_append, ← rejected]
      simp [rejectedOf, sent]
  | onRejected taken sent =>
    refine ⟨sound, ?_, ?_, ?_, stdout⟩
    · rw [socket, AsioUdpReceiver.undelivered_onDatagram taken, List.append_assoc, List.singleton_append]
    · rw [requestsOf, List.filterMap_append, ← requestsOf, ← received]
      simp [requestOf, sent]
    · rw [List.filterMap_append, ← rejected]
      simp [rejectedOf, sent]
  | dropped taken sent =>
    refine ⟨sound, ?_, ?_, ?_, stdout⟩
    · rw [socket, AsioUdpReceiver.undelivered_onDatagram taken, List.append_assoc, List.singleton_append]
    · rw [requestsOf, List.filterMap_append, ← requestsOf, ← received]
      simp [requestOf, sent]
    · rw [List.filterMap_append, ← rejected]
      simp [rejectedOf, sent]
  | postReceive stepped =>
    exact ⟨sound, by rw [AsioUdpReceiver.undelivered_postReceive before stepped, socket], received, rejected, stdout⟩
  | pollReturns returned stepped =>
    have frame := step_frame stepped
    refine ⟨sound, ?_, (frame.received (by simp)).trans received, rejected, by rw [stdout, frame.published (by simp)]⟩
    rw [AsioUdpReceiver.undelivered_pollReturns returned, socket]
  | publish task stepped =>
    refine ⟨sound, socket, ((step_frame stepped).received (by simp)).trans received, rejected, ?_⟩
    rw [stdout, publish_step task stepped, recordsOf, recordsOf, List.flatMap_append, List.flatMap_singleton]
  | control stepped =>
    have frame := step_frame stepped
    refine ⟨sound, ?_, (frame.received (by simp)).trans received, rejected, by rw [stdout, frame.published (by simp)]⟩
    split
    · rw [AsioUdpReceiver.undelivered_stop, socket]
    · exact socket
  | other own own' quiet unruled stepped =>
    have frame := step_frame stepped
    exact ⟨sound, socket, (frame.received own).trans received, rejected, by rw [stdout, frame.published quiet]⟩

/-- **After any interleaving** the ends are tied, and the application is where
some interleaving of its own leads. -/
theorem chained_run {configuration : Config} {actions : List ProcessAction}
    (ran : exec (Process.step lib decoder alloc) (.start alloc configuration) actions = some process) :
    Chained lib decoder process ∧ Reaches (Application.step alloc) (.start alloc configuration) process.application :=
  ⟨exec_invariant (Chained.start lib decoder alloc configuration)
      (fun _ _ _ chained stepped => chained.taken (Process.step_taken stepped)) ran,
    exec_simulates Process.application (fun _ _ _ stepped => reaches_taken (Process.step_taken stepped)) ran⟩

end Chain

end DemoExchange.Refinement
