import DemoExchange.Client.Main
import DemoExchange.Server.Process

/-!
# A client and the server over UDP

The client of `client/src/main.cpp`, a line at a time, and the server process,
with the datagrams between them. Each copy of a datagram in flight may be lost,
duplicated, or arrive at any time.
-/

namespace DemoExchange.Client
set_option autoImplicit false
open Text Lab OrderEntry OrderClient Server

structure Deployment where
  /-- The lines that the client has not read. -/
  lines : List Bytes
  sender : UdpSender
  /-- What the client returned. -/
  outcome : Option (Result Unit)
  inFlight : List Bytes
  server : Process

inductive DeploymentAction where
  /-- The client reads a line, or finds that there is none. -/
  | readLine
  | lose (copy : Nat)
  | duplicate (copy : Nat)
  | arrive (copy : Nat)
  /-- The server takes a step of its own. -/
  | server (action : ProcessAction)
  deriving DecidableEq, Repr

namespace Deployment

/-- The client has connected and the server was started. -/
def start (alloc : Pool.Allocator) (configuration : Config) (sender : UdpSender) (lines : List Bytes) : Deployment where
  lines := lines
  sender := sender
  outcome := none
  inFlight := []
  server := .start alloc configuration

variable (lib : Nlohmann) (socket : Socket) (decoder : Decoder) (alloc : Pool.Allocator) (deployment : Deployment)

def readLine : Option Deployment :=
  match deployment.outcome, deployment.lines with
  | none, [] => some { deployment with outcome := some (.ok ()) }
  | none, line :: lines =>
    let (result, sender) := sendLine lib socket deployment.sender line
    some { deployment with
      lines
      sender
      outcome :=
        match result with
        | .ok () => none
        | .error error => some (.error error)
      inFlight := deployment.inFlight ++ sender.sent.drop deployment.sender.sent.length }
  | some _, _ => none

/-- A step of the server other than an arrival. -/
def serverStep : ProcessAction → Option Deployment
  | .arrive _ => none
  | action => (deployment.server.step lib decoder alloc action).map fun server => { deployment with server }

def step : DeploymentAction → Option Deployment
  | .readLine => deployment.readLine lib socket
  | .lose copy =>
    if copy < deployment.inFlight.length then some { deployment with inFlight := deployment.inFlight.eraseIdx copy } else none
  | .duplicate copy =>
    deployment.inFlight[copy]?.map fun datagram => { deployment with inFlight := deployment.inFlight ++ [datagram] }
  | .arrive copy =>
    deployment.inFlight[copy]?.bind fun datagram =>
      (deployment.server.step lib decoder alloc (.arrive datagram)).map fun server =>
        { deployment with server, inFlight := deployment.inFlight.eraseIdx copy }
  | .server action => deployment.serverStep lib decoder alloc action

/-- The steps, with what allows each. -/
inductive Taken : Deployment → Prop where
  | finish (running : deployment.outcome = none) (gone : deployment.lines = []) :
    Taken { deployment with outcome := some (.ok ()) }
  | line {line : Bytes} {lines : List Bytes} {sender : UdpSender} (running : deployment.outcome = none)
      (next : deployment.lines = line :: lines) (sent : sendLine lib socket deployment.sender line = (.ok (), sender)) :
    Taken { deployment with
      lines
      sender
      inFlight := deployment.inFlight ++ sender.sent.drop deployment.sender.sent.length }
  | fail {line : Bytes} {lines : List Bytes} {sender : UdpSender} {error : Error} (running : deployment.outcome = none)
      (next : deployment.lines = line :: lines) (failed : sendLine lib socket deployment.sender line = (.error error, sender)) :
    Taken { deployment with
      lines
      sender
      outcome := some (.error error)
      inFlight := deployment.inFlight ++ sender.sent.drop deployment.sender.sent.length }
  | wire {inFlight : List Bytes} (copies : inFlight ⊆ deployment.inFlight) : Taken { deployment with inFlight }
  | arrive {datagram : Bytes} {inFlight : List Bytes} {server : Process} (member : datagram ∈ deployment.inFlight)
      (copies : inFlight ⊆ deployment.inFlight) (stepped : deployment.server.step lib decoder alloc (.arrive datagram) = some server) :
    Taken { deployment with server, inFlight }
  | server {action : ProcessAction} {server : Process} (own : ∀ datagram, action ≠ .arrive datagram)
      (stepped : deployment.server.step lib decoder alloc action = some server) : Taken { deployment with server }

variable {lib socket decoder alloc deployment}

theorem readLine_taken {deployment' : Deployment} (stepped : deployment.readLine lib socket = some deployment') :
    Taken lib socket decoder alloc deployment deployment' := by
  unfold readLine at stepped
  split at stepped
  · rename_i running gone
    cases stepped
    exact .finish running gone
  · rename_i line lines running next
    rcases came : sendLine lib socket deployment.sender line with ⟨result, sender⟩
    rw [came] at stepped
    cases result with
    | ok =>
      cases stepped
      simpa only [running] using Taken.line running next came
    | error error =>
      cases stepped
      exact .fail running next came
  · cases stepped

theorem step_taken {deployment' : Deployment} {action : DeploymentAction}
    (stepped : deployment.step lib socket decoder alloc action = some deployment') :
    Taken lib socket decoder alloc deployment deployment' := by
  cases action with
  | readLine => exact readLine_taken stepped
  | lose copy =>
    simp only [step] at stepped
    split at stepped
    · cases stepped
      exact .wire (List.eraseIdx_sublist _ _).subset
    · cases stepped
  | duplicate copy =>
    obtain ⟨datagram, here, rfl⟩ := Option.map_eq_some_iff.1 stepped
    refine .wire (List.append_subset.2 ⟨List.Subset.refl _, ?_⟩)
    exact List.cons_subset.2 ⟨List.mem_of_getElem? here, List.nil_subset _⟩
  | arrive copy =>
    obtain ⟨datagram, here, stepped⟩ := Option.bind_eq_some_iff.1 stepped
    obtain ⟨server, moved, rfl⟩ := Option.map_eq_some_iff.1 stepped
    exact .arrive (List.mem_of_getElem? here) (List.eraseIdx_sublist _ _).subset moved
  | server action =>
    change deployment.serverStep lib decoder alloc action = some deployment' at stepped
    unfold serverStep at stepped
    split at stepped
    · cases stepped
    · rename_i own
      obtain ⟨server, moved, rfl⟩ := Option.map_eq_some_iff.1 stepped
      exact .server own moved

end Deployment

end DemoExchange.Client
