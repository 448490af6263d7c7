import DemoExchange.Lab.Algorithm
import DemoExchange.OrderEntry.JsonDecoder

/-!
# The order-entry session

`order_entry/src/session.cpp`, `order_entry/factories.hpp` and the boundary
`order_entry/decoder.hpp`. A packet of whitespace is dropped; any other is
decoded, and the session raises one of its two events about it.
-/

namespace DemoExchange.OrderEntry
set_option autoImplicit false
open Text Lab

/-- `order_entry::rejection`. -/
structure Rejection where
  rawPayload : Bytes
  reason : Bytes
  deriving DecidableEq, Repr

/-- What a decoder may leave `send` with in place of a request. -/
inductive DecoderFailure where
  /-- An `invalid_field`, `missing_field` or `parser_error`, by its `what`. -/
  | matched (what : Bytes)
  /-- Another `lab::error`, by the message of its code and the `what` of its payload. -/
  | labError (message what : Bytes)
  /-- A `std::exception` that it threw. -/
  | exception (what : Bytes)
  | unknown
  deriving DecidableEq, Repr

abbrev Decoder := Bytes → Except DecoderFailure Request

/-- `make_rejection`. -/
def makeRejection (what rawPayload : Bytes) : Rejection := ⟨rawPayload, what⟩

/-- The handlers of `send`. -/
def rejectionOf (packet : Bytes) : DecoderFailure → Rejection
  | .matched what => makeRejection what packet
  | .labError message what => ⟨packet, message ++ ascii " | " ++ what⟩
  | .exception what => ⟨packet, what⟩
  | .unknown => ⟨packet, ascii "unknown decoder failure"⟩

namespace Session

/-- The event that a call of `send` raises. -/
inductive Event where
  | onRequest (request : Request)
  | onRejected (rejection : Rejection)
  deriving DecidableEq, Repr

/-- `session::send`. -/
def send (decoder : Decoder) (packet : Bytes) : Option Event :=
  if trim packet asciiWhitespace = [] then none
  else
    match decoder packet with
    | .ok request => some (.onRequest request)
    | .error failure => some (.onRejected (rejectionOf packet failure))

end Session

/-- `json_decoder` as a decoder: all its errors are `parser_error`s. -/
def JsonDecoder.decoder (lib : Nlohmann) (config : JsonDecoder.Config) : Decoder := fun packet =>
  match JsonDecoder.decode lib config packet with
  | .ok request => .ok request
  | .error error => .error (.matched error.what)

end DemoExchange.OrderEntry
