import DemoExchange.Lab.Json
import DemoExchange.MarketData.Messages

/-!
# The market-data encoder

`market_data/src/json_encoder.cpp`. A record is an object with its type and
its fields under their names; a field that is not there is `null`.
-/

namespace DemoExchange.MarketData.JsonEncoder
set_option autoImplicit false
open Text Lab MarketData

def encodeSide : Side → Bytes
  | .buy => ascii "buy"
  | .sell => ascii "sell"

def encodeUpdateAction : UpdateAction → Bytes
  | .newOrder => ascii "new_order"
  | .change => ascii "change"
  | .deleteOrder => ascii "delete_order"

def encodeSecurityTradingStatus : SecurityTradingStatus → Bytes
  | .open => ascii "open"
  | .closed => ascii "closed"
  | .halted => ascii "halted"

def encodeSecurityTradingEvent : SecurityTradingEvent → Bytes
  | .none => ascii "none"
  | .tradingResume => ascii "trading_resume"
  | .tradingHalt => ascii "trading_halt"

def encodeTradeCondition : TradeCondition → Bytes
  | .regular => ascii "regular"

def encodeTradeSubType : TradeSubType → Bytes
  | .regular => ascii "regular"

/-- The members of the `payload` of a message. -/
abbrev Payload := List (Bytes × Json.Value)

def payloadSecurityDefinition (msg : SecurityDefinition) : Payload :=
  [(ascii "message_type", toJson (ascii "security_definition")),
   (ascii "security_id", toJson msg.securityId),
   (ascii "symbol", toJson msg.symbol),
   (ascii "security_exchange", toJson msg.securityExchange),
   (ascii "security_group", toJson msg.securityGroup),
   (ascii "security_type", toJson msg.securityType),
   (ascii "security_subtype", optionalToJson msg.securitySubtype),
   (ascii "min_price_increment", toJson msg.minPriceIncrement),
   (ascii "round_lot", toJson msg.roundLot),
   (ascii "currency", toJson msg.currency)]

def payloadSecurityStatus (msg : SecurityStatus) : Payload :=
  [(ascii "message_type", toJson (ascii "security_status")),
   (ascii "security_id", toJson msg.securityId),
   (ascii "security_exchange", toJson msg.securityExchange),
   (ascii "trading_session_id", toJson msg.tradingSessionId),
   (ascii "security_trading_status", toJson (encodeSecurityTradingStatus msg.securityTradingStatus)),
   (ascii "security_trading_event", toJson (encodeSecurityTradingEvent msg.securityTradingEvent)),
   (ascii "transact_time", toJson msg.transactTime)]

def payloadExecutionSummary (msg : ExecutionSummary) : Payload :=
  [(ascii "message_type", toJson (ascii "execution_summary")),
   (ascii "security_id", toJson msg.securityId),
   (ascii "aggressor_side", toJson (encodeSide msg.aggressorSide)),
   (ascii "last_px", toJson msg.lastPx),
   (ascii "fill_qty", toJson msg.fillQty),
   (ascii "traded_hidden_qty", optionalToJson msg.tradedHiddenQty),
   (ascii "cancel_qty", optionalToJson msg.cancelQty),
   (ascii "aggressor_time", toJson msg.aggressorTime),
   (ascii "transact_time", toJson msg.transactTime)]

def payloadTrade (msg : Trade) : Payload :=
  [(ascii "message_type", toJson (ascii "trade")),
   (ascii "security_id", toJson msg.securityId),
   (ascii "trade_id", toJson msg.tradeId),
   (ascii "price", toJson msg.price),
   (ascii "quantity", toJson msg.quantity),
   (ascii "buyer", optionalToJson msg.buyer),
   (ascii "seller", optionalToJson msg.seller),
   (ascii "trade_condition", toJson (encodeTradeCondition msg.tradeCondition)),
   (ascii "trade_sub_type", optionalToJson (msg.tradeSubType.map encodeTradeSubType)),
   (ascii "trade_date", toJson msg.tradeDate),
   (ascii "transact_time", toJson msg.transactTime)]

def payloadMboBookUpdate (msg : MboBookUpdate) : Payload :=
  [(ascii "message_type", toJson (ascii "mbo_book_update")),
   (ascii "security_id", toJson msg.securityId),
   (ascii "update_action", toJson (encodeUpdateAction msg.updateAction)),
   (ascii "side", toJson (encodeSide msg.side)),
   (ascii "resting_order_id", toJson msg.restingOrderId),
   (ascii "price", optionalToJson msg.price),
   (ascii "quantity", optionalToJson msg.quantity),
   (ascii "previous_quantity", optionalToJson msg.previousQuantity),
   (ascii "transact_time", toJson msg.transactTime)]

def payload : Message → Payload
  | .securityDefinition msg => payloadSecurityDefinition msg
  | .securityStatus msg => payloadSecurityStatus msg
  | .executionSummary msg => payloadExecutionSummary msg
  | .trade msg => payloadTrade msg
  | .mboBookUpdate msg => payloadMboBookUpdate msg

/-- `json_encoder::encode`. -/
def encode (lib : Nlohmann) (message : Message) : Bytes := lib.dump (Json.object (payload message))

end DemoExchange.MarketData.JsonEncoder
