import DemoExchange.Client.Deployment
import DemoExchange.Properties.Client
import DemoExchange.Properties.Process

/-!
# From the client's input to the server's output

Whatever the network does to the datagrams, the server handles requests of the
client's input and no other, and rejects nothing. Where it delivers what was
sent, what the server prints is what the exchange says about the input.
-/

namespace DemoExchange.Properties
set_option autoImplicit false
open Text Lab OrderEntry Server Refinement Client OrderClient Interleaving

section Invariant

variable {lib : Nlohmann} {socket : Socket} {decoder : Decoder} {alloc : Pool.Allocator} {configuration : Config}
  {config : UdpSenderConfig} {lines : List Bytes} {deployment deployment' : Deployment}

/-- Datagrams reach the server's socket only by arriving. -/
theorem arrived_step {process process' : Process} {action : ProcessAction} (own : ∀ datagram, action ≠ .arrive datagram)
    (stepped : process.step lib decoder alloc action = some process') : process'.arrived = process.arrived := by
  cases action with
  | arrive datagram => exact absurd rfl (own datagram)
  | complete =>
    obtain ⟨receiver, -, rfl⟩ := Option.map_eq_some_iff.1 stepped
    rfl
  | fail =>
    obtain ⟨receiver, -, rfl⟩ := Option.map_eq_some_iff.1 stepped
    rfl
  | pollOne =>
    simp only [Process.step] at stepped
    split at stepped
    · obtain ⟨receiver, -, rfl⟩ := Option.map_eq_some_iff.1 stepped
      rfl
    · cases stepped
  | onDatagram =>
    obtain ⟨⟨datagram, receiver⟩, -, stepped⟩ := Option.bind_eq_some_iff.1 stepped
    simp only [Process.onDatagram] at stepped
    split at stepped
    · obtain ⟨application, -, rfl⟩ := Option.map_eq_some_iff.1 stepped
      rfl
    · cases stepped
      rfl
    · cases stepped
      rfl
  | postReceive =>
    obtain ⟨receiver, -, rfl⟩ := Option.map_eq_some_iff.1 stepped
    rfl
  | pollReturns =>
    obtain ⟨⟨worked, receiver⟩, -, stepped⟩ := Option.bind_eq_some_iff.1 stepped
    obtain ⟨application, -, rfl⟩ := Option.map_eq_some_iff.1 stepped
    rfl
  | application action =>
    change process.applicationStep lib alloc action = some process' at stepped
    unfold Process.applicationStep at stepped
    split at stepped
    · cases stepped
    · cases stepped
    · simp only [Process.publish] at stepped
      split at stepped
      · obtain ⟨application, -, rfl⟩ := Option.map_eq_some_iff.1 stepped
        rfl
      · cases stepped
    · obtain ⟨application, -, rfl⟩ := Option.map_eq_some_iff.1 stepped
      rfl
    · obtain ⟨application, -, rfl⟩ := Option.map_eq_some_iff.1 stepped
      rfl

/-- What the client has sent: the requests of the lines that it has done. -/
structure Done (lib : Nlohmann) (config : UdpSenderConfig) (lines : List Bytes) (deployment : Deployment) (done : List Bytes) : Prop where
  legible : ∀ line ∈ done, Legible lib config line
  sent : deployment.sender.sent = (commandsOf lib done).map (JsonEncoder.encode lib)
  before : done <+: lines
  running : deployment.outcome = none → lines = done ++ deployment.lines
  finished : deployment.outcome = some (.ok ()) → done = lines

/-- Datagrams that are in flight or arrived were sent. -/
structure Deployed (lib : Nlohmann) (decoder : Decoder) (alloc : Pool.Allocator) (configuration : Config) (config : UdpSenderConfig)
    (lines : List Bytes) (deployment : Deployment) : Prop where
  same : deployment.sender.config = config
  done : ∃ done, Done lib config lines deployment done
  inFlight : deployment.inFlight ⊆ deployment.sender.sent
  arrived : deployment.server.arrived ⊆ deployment.sender.sent
  server : Interleaving.Reaches (Process.step lib decoder alloc) (.start alloc configuration) deployment.server

theorem Deployed.start {sender : UdpSender} (connected : (UdpSender.start config).connect socket = (.ok (), sender)) :
    Deployed lib decoder alloc configuration config lines (.start alloc configuration sender lines) := by
  obtain ⟨same, sent, -⟩ := UdpSender.connect_cases socket (.start config)
  rw [connected] at same sent
  refine ⟨same, ⟨[], List.forall_mem_nil _, sent, List.nil_prefix, fun _ => rfl, fun finished => by cases finished⟩, ?_, ?_, .refl⟩
  · exact List.nil_subset _
  · exact List.nil_subset _

/-- **Nothing reaches the server** that the client did not send. -/
theorem Deployed.taken (deployed : Deployed lib decoder alloc configuration config lines deployment)
    (taken : Deployment.Taken lib socket decoder alloc deployment deployment') :
    Deployed lib decoder alloc configuration config lines deployment' := by
  obtain ⟨same, ⟨done, legible, sent, before, running, finished⟩, inFlight, arrived, server⟩ := deployed
  cases taken with
  | finish now gone =>
    refine ⟨same, ⟨done, legible, sent, before, fun none => ?_, fun _ => ?_⟩, inFlight, arrived, server⟩
    · cases none
    · rw [running now, gone, List.append_nil]
  | line now next came =>
    rename_i line lines' sender
    obtain ⟨config', ⟨-, legible', sent'⟩ | ⟨⟨error, failed, -⟩, -⟩⟩ := sendLine_cases lib socket deployment.sender line
    · rw [came] at config' sent'
      rw [same] at legible'
      have whole : lines = (done ++ [line]) ++ lines' := by rw [running now, next, List.append_assoc]; rfl
      have grown : deployment.sender.sent ⊆ sender.sent := sent'.symm ▸ List.subset_append_left _ _
      refine ⟨config'.trans same, ⟨done ++ [line], ?_, ?_, ⟨lines', whole.symm⟩, fun _ => whole, fun gone => ?_⟩, ?_, ?_, server⟩
      · exact List.forall_mem_append.2 ⟨legible, List.forall_mem_singleton.2 legible'⟩
      · rw [commandsOf_append, List.map_append, ← sent]
        exact sent'
      · rw [now] at gone
        cases gone
      · exact List.append_subset.2 ⟨List.Subset.trans inFlight grown, List.drop_subset _ _⟩
      · exact List.Subset.trans arrived grown
    · rw [came] at failed
      cases failed
  | fail now next came =>
    rename_i line lines' sender error
    obtain ⟨config', ⟨succeeded, -, -⟩ | ⟨-, sent'⟩⟩ := sendLine_cases lib socket deployment.sender line
    · rw [came] at succeeded
      cases succeeded
    · rw [came] at config' sent'
      refine ⟨config'.trans same, ⟨done, legible, sent'.trans sent, before, fun none => ?_, fun gone => ?_⟩, ?_, ?_, server⟩
      · cases none
      · cases gone
      · exact List.append_subset.2 ⟨sent'.symm ▸ inFlight, List.drop_subset _ _⟩
      · exact sent'.symm ▸ arrived
  | wire copies => exact ⟨same, ⟨done, legible, sent, before, running, finished⟩, List.Subset.trans copies inFlight, arrived, server⟩
  | arrive member copies stepped =>
    refine ⟨same, ⟨done, legible, sent, before, running, finished⟩, List.Subset.trans copies inFlight, ?_,
      server.trans (.single stepped)⟩
    cases stepped
    exact List.append_subset.2 ⟨arrived, List.cons_subset.2 ⟨inFlight member, List.nil_subset _⟩⟩
  | server own stepped =>
    refine ⟨same, ⟨done, legible, sent, before, running, finished⟩, inFlight, ?_, server.trans (.single stepped)⟩
    rw [arrived_step own stepped]
    exact arrived

end Invariant

section Serving

variable {lib : Nlohmann} {socket : Socket} {gateway : JsonDecoder.Config} {alloc : Pool.Allocator} {configuration : Config}
  {config : UdpSenderConfig} {sender : UdpSender} {text : Bytes} {deployment : Deployment} {actions : List DeploymentAction}

theorem deployed_run (connected : (UdpSender.start config).connect socket = (.ok (), sender)) {decoder : Decoder}
    (ran : exec (Deployment.step lib socket decoder alloc) (.start alloc configuration sender (getlines text)) actions = some deployment) :
    Deployed lib decoder alloc configuration config (getlines text) deployment :=
  exec_invariant (Deployed.start connected) (fun _ _ _ deployed stepped => deployed.taken (Deployment.step_taken stepped)) ran

/-- What the gateway makes of a list of messages of the client. -/
theorem requestsOf_encoded {decoder : Decoder} {requests : List Request}
    (sent : ∀ request ∈ requests, Session.send decoder (JsonEncoder.encode lib request) = some (.onRequest request)) :
    requestsOf decoder (requests.map (JsonEncoder.encode lib)) = requests := by
  rw [requestsOf, List.filterMap_map]
  refine (List.filterMap_congr fun request member => ?_).trans List.filterMap_some
  rw [Function.comp, requestOf, sent request member]

/-- A message that the client sent is small, and the gateway makes of it a request of the input. -/
theorem sent_served (documented : Documented lib) (sizes : config.maxDatagramSize ≤ gateway.maxDatagramSize)
    (small : config.maxDatagramSize.toNat ≤ receiveBufferSize)
    (deployed : Deployed lib (JsonDecoder.decoder lib gateway) alloc configuration config (getlines text) deployment) :
    ∀ datagram ∈ deployment.sender.sent, AsioUdpReceiver.cut datagram = datagram ∧
      ∃ request ∈ commandsOf lib (getlines text), JsonEncoder.encode lib request = datagram ∧
        Session.send (JsonDecoder.decoder lib gateway) datagram = some (.onRequest request) := by
  obtain ⟨done, legible, sent, before, -, -⟩ := deployed.done
  intro datagram member
  obtain ⟨request, asked, rfl⟩ := List.mem_map.1 (sent ▸ member)
  refine ⟨?_, request, ?_, rfl, send_commands documented sizes legible request asked⟩
  · obtain ⟨line, read, command⟩ := List.mem_filterMap.1 asked
    obtain ⟨full, decoded⟩ := decode_of_command command
    obtain ⟨other, decoded', fits⟩ := legible line read full
    obtain rfl := Except.ok.inj (decoded.symm.trans decoded')
    exact List.take_of_length_le (fits.trans small)
  · obtain ⟨rest, whole⟩ := before
    rw [← whole, commandsOf_append]
    exact List.mem_append_left _ asked

theorem map_filterMap {α β : Type} {f : α → Option β} {g : β → α} {l : List α} (back : ∀ x ∈ l, ∃ y, f x = some y ∧ g y = x) :
    (l.filterMap f).map g = l := by
  induction l with
  | nil => rfl
  | cons x l ih =>
    obtain ⟨⟨y, here, same⟩, rest⟩ := List.forall_mem_cons.1 back
    rw [List.filterMap_cons_some here, List.map_cons, same, ih rest]

/-- **A network that loses, duplicates and reorders** makes the server handle
requests of the client's input in some order. It never makes up one, and each
datagram that is delivered is handled as the request that it was sent for. -/
theorem deployment_safe (documented : Documented lib) (sizes : config.maxDatagramSize ≤ gateway.maxDatagramSize)
    (small : config.maxDatagramSize.toNat ≤ receiveBufferSize) (connected : (UdpSender.start config).connect socket = (.ok (), sender))
    (ran : exec (Deployment.step lib socket (JsonDecoder.decoder lib gateway) alloc)
      (.start alloc configuration sender (getlines text)) actions = some deployment) :
    deployment.server.rejected = [] ∧
      deployment.server.application.received.map (JsonEncoder.encode lib) = deployment.server.delivered ∧
      deployment.server.delivered ⊆ deployment.sender.sent ∧
      deployment.server.application.received ⊆ commandsOf lib (records '\n'.toUInt8 text) := by
  have deployed := deployed_run connected ran
  obtain ⟨actions', ran'⟩ := deployed.server
  obtain ⟨chained, -⟩ := chained_run ran'
  have served := sent_served documented sizes small deployed
  have delivered : deployment.server.delivered ⊆ deployment.sender.sent := by
    intro datagram member
    have arrived : datagram ∈ deployment.server.arrived.map AsioUdpReceiver.cut := chained.socket ▸ List.mem_append_left _ member
    obtain ⟨whole, reached, rfl⟩ := List.mem_map.1 arrived
    have sent := deployed.arrived reached
    rwa [(served whole sent).1]
  have requested : ∀ datagram ∈ deployment.server.delivered, ∃ request ∈ commandsOf lib (getlines text),
      requestOf (JsonDecoder.decoder lib gateway) datagram = some request ∧ JsonEncoder.encode lib request = datagram := by
    intro datagram member
    obtain ⟨-, request, asked, same, raised⟩ := served datagram (delivered member)
    exact ⟨request, asked, by rw [requestOf, raised], same⟩
  refine ⟨?_, ?_, delivered, ?_⟩
  · rw [chained.rejected, List.filterMap_eq_nil_iff]
    intro datagram member
    obtain ⟨-, request, -, -, raised⟩ := served datagram (delivered member)
    rw [rejectedOf, raised]
  · rw [chained.received]
    refine map_filterMap fun datagram member => ?_
    obtain ⟨request, -, made, same⟩ := requested datagram member
    exact ⟨request, made, same⟩
  · rw [chained.received, ← commandsOf_records]
    intro request member
    obtain ⟨datagram, member, made⟩ := List.mem_filterMap.1 member
    obtain ⟨other, asked, made', -⟩ := requested datagram member
    rwa [Option.some.inj (made.symm.trans made')]

/-- **A network that delivers what was sent** lets the server print what the
exchange says about the client's input, once both are done. -/
theorem deployment_serves (documented : Documented lib) (sizes : config.maxDatagramSize ≤ gateway.maxDatagramSize)
    (connected : (UdpSender.start config).connect socket = (.ok (), sender))
    (ran : exec (Deployment.step lib socket (JsonDecoder.decoder lib gateway) alloc)
      (.start alloc configuration sender (getlines text)) actions = some deployment)
    (finished : deployment.outcome = some (.ok ())) (returned : deployment.server.application.controller = .returned)
    (faithful : deployment.server.delivered = deployment.sender.sent) :
    deployment.server.stdout =
      recordsOf lib (marketDataOf configuration.matchingEngine (commandsOf lib (records '\n'.toUInt8 text))) := by
  have deployed := deployed_run connected ran
  obtain ⟨actions', ran'⟩ := deployed.server
  obtain ⟨chained, actions'', ran''⟩ := chained_run ran'
  obtain ⟨done, legible, sent, -, -, gone⟩ := deployed.done
  obtain rfl := gone finished
  rw [chained.stdout, published_all (live_run ran'') returned, chained.received, faithful, sent,
    requestsOf_encoded (send_commands documented sizes legible), commandsOf_records]

end Serving

section Witness

def demoSender : UdpSender := ((UdpSender.start demoClient.orderClient).connect working).2

theorem demoSender_connected : (UdpSender.start demoClient.orderClient).connect working = (.ok (), demoSender) := rfl

/-- A bid, and then a flush. -/
def bidAndFlush : Bytes :=
  JsonEncoder.encode strict bid ++ ascii "\n\n" ++ JsonEncoder.encode strict .flush ++ ascii "\n"

/-- `stop` finds the input loop between two rounds and two requests in the queue. -/
def stopIdle : List Action :=
  [.control, .control, .inputLoop .loadRunning, .inputLoop .tryDequeue, .control, .control, .processingLoop .loadRunning,
    .processingLoop .tryDequeue] ++
  runTask 2 ++ [.processingLoop .tryDequeue] ++ runTask 0 ++
  [.processingLoop .tryDequeue, .control, .control, .outputLoop .loadRunning, .outputLoop .tryDequeue, .publish,
    .outputLoop .tryDequeue, .control]

/-- The client sends both; a copy of the bid is lost and another arrives
before the flush, the server takes both and is stopped. -/
def lossyRun : List DeploymentAction :=
  [.readLine, .readLine, .readLine, .readLine, .duplicate 0, .lose 0, .arrive 1, .arrive 0] ++
  (pollDatagram ++ pollDatagram ++ stopIdle.map ProcessAction.application).map DeploymentAction.server

/-- The gateway of the demo configuration. -/
def demoGateway : JsonDecoder.Config := ⟨65535⟩

theorem demo_sizes : demoClient.orderClient.maxDatagramSize ≤ demoGateway.maxDatagramSize := by decide

theorem lossyRun_ran :
    (exec (Deployment.step strict working (JsonDecoder.decoder strict demoGateway) .above)
        (.start .above mixedConfig demoSender (getlines bidAndFlush)) lossyRun).map
        (fun d => (decide (d.outcome = some (.ok ())), d.server.application.controller, decide (d.server.delivered = d.sender.sent))) =
      some (true, .returned, true) := by
  decide +kernel

theorem deployment_safe_lossyRun :
    ∃ d, exec (Deployment.step strict working (JsonDecoder.decoder strict demoGateway) .above)
        (.start .above mixedConfig demoSender (getlines bidAndFlush)) lossyRun = some d ∧
      d.server.rejected = [] ∧ d.server.application.received.map (JsonEncoder.encode strict) = d.server.delivered ∧
      d.server.delivered ⊆ d.sender.sent ∧ d.server.application.received ⊆ commandsOf strict (records '\n'.toUInt8 bidAndFlush) := by
  obtain ⟨d, ran, -⟩ := Option.map_eq_some_iff.1 lossyRun_ran
  exact ⟨d, ran, deployment_safe strict_documented demo_sizes (by decide +kernel) demoSender_connected ran⟩

theorem deployment_serves_lossyRun :
    ∃ d, exec (Deployment.step strict working (JsonDecoder.decoder strict demoGateway) .above)
        (.start .above mixedConfig demoSender (getlines bidAndFlush)) lossyRun = some d ∧
      d.server.stdout =
        recordsOf strict (marketDataOf mixedConfig.matchingEngine (commandsOf strict (records '\n'.toUInt8 bidAndFlush))) := by
  obtain ⟨d, ran, seen⟩ := Option.map_eq_some_iff.1 lossyRun_ran
  simp only [Prod.mk.injEq, decide_eq_true_eq] at seen
  obtain ⟨finished, returned, faithful⟩ := seen
  exact ⟨d, ran, deployment_serves strict_documented demo_sizes demoSender_connected ran finished returned faithful⟩

end Witness

end DemoExchange.Properties
