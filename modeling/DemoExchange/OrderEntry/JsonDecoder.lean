import DemoExchange.Lab.Json
import DemoExchange.OrderEntry.Messages

/-!
# The order-entry decoder

`order_entry/src/json_decoder.cpp`, with the error codes of
`order_entry/error_code.hpp` and the `parser_error` of `order_entry/errors.hpp`.
-/

namespace DemoExchange.OrderEntry
set_option autoImplicit false
open Text Lab

inductive ErrorCode where
  | invalidField
  | missingField
  | unknownOrder
  | parserError
  deriving DecidableEq, Repr

/-- The value of the enumerator. -/
def ErrorCode.value : ErrorCode → Nat
  | .invalidField => 201001
  | .missingField => 201002
  | .unknownOrder => 201003
  | .parserError => 201004

/-- `errors::parser_error` of a reason. -/
def parserError {α : Type} (reason : Bytes) : Result α := .error ⟨ErrorCode.parserError.value, ascii "parser error: " ++ reason⟩

namespace JsonDecoder

structure Config where
  maxDatagramSize : UInt64
  deriving DecidableEq, Repr

section Fields

variable (α : Type) [JsonValue α] (lib : Nlohmann) (payload : Json.Value) (fieldName : String)

def getRequired : Throws α := do
  let field ← lib.member payload (ascii fieldName)
  fromJson lib field

def getOptional (fallback : α) : Throws α :=
  match payload.find? (ascii fieldName) with
  | some field => fromJson lib field
  | none => .ok fallback

def contains : Bool := (payload.find? (ascii fieldName)).isSome

end Fields

def defaultSecurityExchange : SecurityExchange := ⟨ascii "BVMF", by decide⟩

def defaultSecurityId (_ : Symbol) : SecurityId := 0

def ordTypeFromPrice (price : Price) : OrdType := if price = 0 then .market else .limit

def timeInForceFromPrice (price : Price) : TimeInForce := if price = 0 then .ioc else .day

def decodeSide (field : Bytes) : Throws Side :=
  if field = ascii "buy" then .ok .buy
  else if field = ascii "sell" then .ok .sell
  else .error (ascii "invalid side '" ++ field ++ ascii "'")

def decodeOrdType (field : Bytes) : Throws OrdType :=
  if field = ascii "market" then .ok .market
  else if field = ascii "limit" then .ok .limit
  else .error (ascii "invalid ord_type '" ++ field ++ ascii "'")

def decodeTimeInForce (field : Bytes) : Throws TimeInForce :=
  if field = ascii "day" then .ok .day
  else if field = ascii "ioc" then .ok .ioc
  else .error (ascii "invalid time_in_force '" ++ field ++ ascii "'")

variable (lib : Nlohmann) (payload : Json.Value)

/-- The `ord_type` of an order, which its price stands for where it is absent. -/
def getOrdType (price : Price) : Throws OrdType :=
  if contains payload "ord_type" then do
    let field ← getRequired Bytes lib payload "ord_type"
    decodeOrdType field
  else .ok (ordTypeFromPrice price)

/-- The `time_in_force` of an order, likewise. -/
def getTimeInForce (price : Price) : Throws TimeInForce :=
  if contains payload "time_in_force" then do
    let field ← getRequired Bytes lib payload "time_in_force"
    decodeTimeInForce field
  else .ok (timeInForceFromPrice price)

def decodeNewOrder : Throws NewOrderSingle := do
  let symbol ← getRequired Symbol lib payload "symbol"
  let price ← getRequired Price lib payload "price"
  let clientId ← getRequired ClientId lib payload "client_id"
  let clOrdId ← getRequired ClOrdId lib payload "cl_ord_id"
  let securityId ← getOptional SecurityId lib payload "security_id" (defaultSecurityId symbol)
  let securityExchange ← getOptional SecurityExchange lib payload "security_exchange" defaultSecurityExchange
  let sideField ← getRequired Bytes lib payload "side"
  let side ← decodeSide sideField
  let ordType ← getOrdType lib payload price
  let timeInForce ← getTimeInForce lib payload price
  let orderQty ← getRequired Quantity lib payload "order_qty"
  .ok { clientId, clOrdId, securityId, symbol, securityExchange, side, ordType, timeInForce, orderQty, price }

def decodeReplaceOrder : Throws ReplaceOrder := do
  let symbol ← getRequired Symbol lib payload "symbol"
  let price ← getRequired Price lib payload "price"
  let clientId ← getRequired ClientId lib payload "client_id"
  let clOrdId ← getRequired ClOrdId lib payload "cl_ord_id"
  let origClOrdId ← getRequired OrigClOrdId lib payload "orig_cl_ord_id"
  let securityId ← getOptional SecurityId lib payload "security_id" (defaultSecurityId symbol)
  let securityExchange ← getOptional SecurityExchange lib payload "security_exchange" defaultSecurityExchange
  let sideField ← getRequired Bytes lib payload "side"
  let side ← decodeSide sideField
  let ordType ← getOrdType lib payload price
  let timeInForce ← getTimeInForce lib payload price
  let orderQty ← getRequired Quantity lib payload "order_qty"
  .ok { clientId, clOrdId, origClOrdId, securityId, symbol, securityExchange, side, ordType, timeInForce, orderQty, price }

def decodeCancelOrder : Throws CancelOrder := do
  let clientId ← getRequired ClientId lib payload "client_id"
  let clOrdId ← getRequired ClOrdId lib payload "cl_ord_id"
  let origClOrdId ← getRequired OrigClOrdId lib payload "orig_cl_ord_id"
  .ok { clientId, clOrdId, origClOrdId }

/-- What `decode` does inside its `try`. -/
def decodeDatagram (datagram : Bytes) : Throws (Result Request) := do
  let document ← lib.parse datagram
  let messageType ← getRequired Bytes lib document "message_type"
  if messageType = ascii "new_order_single" then
    let order ← decodeNewOrder lib document
    .ok (.ok (.newOrderSingle order))
  else if messageType = ascii "replace_order" then
    let replace ← decodeReplaceOrder lib document
    .ok (.ok (.replaceOrder replace))
  else if messageType = ascii "cancel_order" then
    let cancel ← decodeCancelOrder lib document
    .ok (.ok (.cancelOrder cancel))
  else if messageType = ascii "flush" then .ok (.ok .flush)
  else .ok (parserError (ascii "unknown message_type '" ++ messageType ++ ascii "'"))

/-- `json_decoder::decode`. -/
def decode (config : Config) (datagram : Bytes) : Result Request :=
  if config.maxDatagramSize.toNat < datagram.length then parserError (ascii "datagram exceeds configured maximum size")
  else
    match decodeDatagram lib datagram with
    | .ok result => result
    | .error what => parserError (ascii "json decode failed: " ++ what)

end JsonDecoder

end DemoExchange.OrderEntry
