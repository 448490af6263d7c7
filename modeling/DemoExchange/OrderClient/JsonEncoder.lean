import DemoExchange.Lab.Json
import DemoExchange.OrderEntry.Messages

/-!
# The order client's encoder

`order_client/src/json_encoder.cpp`. A message is an object with its type and
its fields under their names.
-/

namespace DemoExchange.OrderClient.JsonEncoder
set_option autoImplicit false
open Text Lab OrderEntry

def encodeSide : Side → Bytes
  | .buy => ascii "buy"
  | .sell => ascii "sell"

def encodeOrdType : OrdType → Bytes
  | .market => ascii "market"
  | .limit => ascii "limit"

def encodeTimeInForce : TimeInForce → Bytes
  | .day => ascii "day"
  | .ioc => ascii "ioc"

/-- The members of the `payload` of a message. -/
abbrev Payload := List (Bytes × Json.Value)

def payloadNewOrderSingle (order : NewOrderSingle) : Payload :=
  [(ascii "message_type", toJson (ascii "new_order_single")),
   (ascii "client_id", toJson order.clientId),
   (ascii "cl_ord_id", toJson order.clOrdId),
   (ascii "security_id", toJson order.securityId),
   (ascii "symbol", toJson order.symbol),
   (ascii "security_exchange", toJson order.securityExchange),
   (ascii "side", toJson (encodeSide order.side)),
   (ascii "ord_type", toJson (encodeOrdType order.ordType)),
   (ascii "time_in_force", toJson (encodeTimeInForce order.timeInForce)),
   (ascii "order_qty", toJson order.orderQty),
   (ascii "price", toJson order.price)]

def payloadReplaceOrder (replace : ReplaceOrder) : Payload :=
  [(ascii "message_type", toJson (ascii "replace_order")),
   (ascii "client_id", toJson replace.clientId),
   (ascii "cl_ord_id", toJson replace.clOrdId),
   (ascii "orig_cl_ord_id", toJson replace.origClOrdId),
   (ascii "security_id", toJson replace.securityId),
   (ascii "symbol", toJson replace.symbol),
   (ascii "security_exchange", toJson replace.securityExchange),
   (ascii "side", toJson (encodeSide replace.side)),
   (ascii "ord_type", toJson (encodeOrdType replace.ordType)),
   (ascii "time_in_force", toJson (encodeTimeInForce replace.timeInForce)),
   (ascii "order_qty", toJson replace.orderQty),
   (ascii "price", toJson replace.price)]

def payloadCancelOrder (cancel : CancelOrder) : Payload :=
  [(ascii "message_type", toJson (ascii "cancel_order")),
   (ascii "client_id", toJson cancel.clientId),
   (ascii "cl_ord_id", toJson cancel.clOrdId),
   (ascii "orig_cl_ord_id", toJson cancel.origClOrdId)]

def payloadFlush : Payload := [(ascii "message_type", toJson (ascii "flush"))]

def payload : Request → Payload
  | .newOrderSingle order => payloadNewOrderSingle order
  | .replaceOrder replace => payloadReplaceOrder replace
  | .cancelOrder cancel => payloadCancelOrder cancel
  | .flush => payloadFlush

/-- `json_encoder::encode`. -/
def encode (lib : Nlohmann) (request : Request) : Bytes := lib.dump (Json.object (payload request))

end DemoExchange.OrderClient.JsonEncoder
