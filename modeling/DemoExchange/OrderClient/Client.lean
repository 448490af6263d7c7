import DemoExchange.OrderClient.JsonEncoder

/-!
# The order client

`order_client/src/udp_sender.cpp` and `order_client/src/client.cpp`. What the
calls of the socket library come to is a parameter, `Socket`; `calls` counts
them and `sent` records the payloads that were sent.
-/

namespace DemoExchange.OrderClient
set_option autoImplicit false
open Text Lab OrderEntry

/-- `endpoint_config`. -/
structure EndpointConfig where
  address : Bytes
  port : UInt16
  deriving DecidableEq, Repr

structure UdpSenderConfig where
  endpoint : EndpointConfig
  maxDatagramSize : UInt64
  deriving DecidableEq, Repr

/-- The message of the error that a call fails with, if it does. -/
abbrev Failure := Option Bytes

structure Socket where
  makeAddress : Bytes → Failure
  /-- `open`, as the call of that number. -/
  open' : Nat → Failure
  sendTo : Nat → Bytes → Failure

structure UdpSender where
  config : UdpSenderConfig
  connected : Bool
  calls : Nat
  sent : List Bytes
  deriving DecidableEq, Repr

namespace UdpSender

def start (config : UdpSenderConfig) : UdpSender := ⟨config, false, 0, []⟩

variable (socket : Socket) (sender : UdpSender)

def connect : Result Unit × UdpSender :=
  if sender.connected then (.ok (), sender)
  else
    match socket.makeAddress sender.config.endpoint.address with
    | some message => (makeLeafError .configurationError message, sender)
    | none =>
      match socket.open' sender.calls with
      | some message => (makeLeafError .genericError message, { sender with calls := sender.calls + 1 })
      | none => (.ok (), { sender with calls := sender.calls + 1, connected := true })

/-- `send_to` in `send`. -/
def sendTo (payload : Bytes) : Result Unit × UdpSender :=
  match socket.sendTo sender.calls payload with
  | some message => (makeLeafError .genericError message, { sender with calls := sender.calls + 1 })
  | none => (.ok (), { sender with calls := sender.calls + 1, sent := sender.sent ++ [payload] })

def send (payload : Bytes) : Result Unit × UdpSender :=
  if sender.config.maxDatagramSize.toNat < payload.length then
    (makeLeafError .invalidArgument (ascii "datagram exceeds configured maximum size"), sender)
  else
    match sender.connect socket with
    | (.error error, sender) => (.error error, sender)
    | (.ok (), sender) => sender.sendTo socket payload

end UdpSender

/-- `client::send` of a request. -/
def Client.send (lib : Nlohmann) (socket : Socket) (sender : UdpSender) (request : Request) : Result Unit × UdpSender :=
  sender.send socket (JsonEncoder.encode lib request)

section Sending

/-- Why a sender cannot connect. -/
inductive ConnectFails (socket : Socket) (config : UdpSenderConfig) : Error → Prop where
  | makeAddress {message : Bytes} (failed : socket.makeAddress config.endpoint.address = some message) :
    ConnectFails socket config ⟨ErrorCode.configurationError.value, message⟩
  | open' {call : Nat} {message : Bytes} (failed : socket.open' call = some message) :
    ConnectFails socket config ⟨ErrorCode.genericError.value, message⟩

/-- Why a payload is not sent. -/
inductive SendFails (socket : Socket) (config : UdpSenderConfig) (payload : Bytes) : Error → Prop where
  | tooLarge (large : config.maxDatagramSize.toNat < payload.length) :
    SendFails socket config payload ⟨ErrorCode.invalidArgument.value, ascii "datagram exceeds configured maximum size"⟩
  | connect {error : Error} (failed : ConnectFails socket config error) : SendFails socket config payload error
  | sendTo {call : Nat} {message : Bytes} (failed : socket.sendTo call payload = some message) :
    SendFails socket config payload ⟨ErrorCode.genericError.value, message⟩

variable (socket : Socket) (sender : UdpSender)

/-- `connect` sends nothing. -/
theorem UdpSender.connect_cases :
    (sender.connect socket).2.config = sender.config ∧ (sender.connect socket).2.sent = sender.sent ∧
      ∀ error, (sender.connect socket).1 = .error error → ConnectFails socket sender.config error := by
  unfold connect
  split
  · exact ⟨rfl, rfl, fun error came => by cases came⟩
  · split
    · rename_i message failed
      exact ⟨rfl, rfl, fun error came => by cases came; exact .makeAddress failed⟩
    · split
      · rename_i message failed
        exact ⟨rfl, rfl, fun error came => by cases came; exact .open' failed⟩
      · exact ⟨rfl, rfl, fun error came => by cases came⟩

theorem UdpSender.sendTo_cases (payload : Bytes) :
    (sender.sendTo socket payload).2.config = sender.config ∧
      ((sender.sendTo socket payload).1 = .ok () ∧ (sender.sendTo socket payload).2.sent = sender.sent ++ [payload] ∨
        (∃ error, (sender.sendTo socket payload).1 = .error error ∧ SendFails socket sender.config payload error) ∧
          (sender.sendTo socket payload).2.sent = sender.sent) := by
  unfold sendTo
  split
  · rename_i message failed
    exact ⟨rfl, .inr ⟨⟨_, rfl, .sendTo failed⟩, rfl⟩⟩
  · exact ⟨rfl, .inl ⟨rfl, rfl⟩⟩

/-- **A payload is sent**, and then it was not too large, or the call fails and nothing is. -/
theorem UdpSender.send_cases (payload : Bytes) :
    (sender.send socket payload).2.config = sender.config ∧
      ((sender.send socket payload).1 = .ok () ∧ payload.length ≤ sender.config.maxDatagramSize.toNat ∧
          (sender.send socket payload).2.sent = sender.sent ++ [payload] ∨
        (∃ error, (sender.send socket payload).1 = .error error ∧ SendFails socket sender.config payload error) ∧
          (sender.send socket payload).2.sent = sender.sent) := by
  unfold send
  split
  · rename_i large
    exact ⟨rfl, .inr ⟨⟨_, rfl, .tooLarge large⟩, rfl⟩⟩
  · rename_i small
    obtain ⟨config, kept, fails⟩ := connect_cases socket sender
    split
    · rename_i error sender' came
      rw [came] at config kept fails
      exact ⟨config, .inr ⟨⟨error, rfl, .connect (fails error rfl)⟩, kept⟩⟩
    · rename_i sender' came
      rw [came] at config kept
      obtain ⟨config', sent | failed⟩ := sendTo_cases socket sender' payload
      · exact ⟨config'.trans config, .inl ⟨sent.1, Nat.not_lt.1 small, sent.2.trans (by rw [kept])⟩⟩
      · rw [show sender'.config = sender.config from config] at failed
        exact ⟨config'.trans config, .inr ⟨failed.1, failed.2.trans kept⟩⟩

end Sending

end DemoExchange.OrderClient
