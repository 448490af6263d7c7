import DemoExchange.Lib.Text
import DemoExchange.OrderEntry.Messages

/-!
# Order-routing messages

`mor/messages.hpp`, and from `mor/src/conversions.cpp` the conversions of
requests and of the engine's events. A text is its bytes.
-/

namespace DemoExchange.Mor
set_option autoImplicit false
open Text OrderEntry

structure NewOrderSingle where
  clientId : ClientId
  clOrdId : ClOrdId
  securityId : SecurityId
  symbol : Symbol
  securityExchange : SecurityExchange
  side : Side
  ordType : OrdType
  timeInForce : TimeInForce
  orderQty : Quantity
  price : Price
  deriving DecidableEq, Repr

structure ReplaceRequest where
  clientId : ClientId
  clOrdId : ClOrdId
  origClOrdId : OrigClOrdId
  securityId : SecurityId
  symbol : Symbol
  securityExchange : SecurityExchange
  side : Side
  ordType : OrdType
  timeInForce : TimeInForce
  orderQty : Quantity
  price : Price
  deriving DecidableEq, Repr

structure CancelRequest where
  clientId : ClientId
  clOrdId : ClOrdId
  origClOrdId : OrigClOrdId
  deriving DecidableEq, Repr

inductive Request where
  | newOrderSingle (request : NewOrderSingle)
  | replaceRequest (request : ReplaceRequest)
  | cancelRequest (request : CancelRequest)
  | flushRequest
  deriving DecidableEq, Repr

structure ExecutionReport where
  clientId : ClientId
  clOrdId : ClOrdId
  origClOrdId : Option OrigClOrdId
  orderId : OrderId
  execId : ExecId
  securityId : SecurityId
  symbol : Symbol
  securityExchange : SecurityExchange
  side : Side
  ordType : OrdType
  timeInForce : TimeInForce
  execType : ExecType
  ordStatus : OrdStatus
  orderQty : Quantity
  cumQty : Quantity
  leavesQty : Quantity
  lastQty : Option Quantity
  lastPx : Option Price
  avgPx : Option Price
  transactTime : Timestamp
  rejectReason : Option RejectReason
  text : Bytes
  deriving DecidableEq, Repr

structure CancelReject where
  clientId : ClientId
  clOrdId : ClOrdId
  origClOrdId : OrigClOrdId
  rejectReason : RejectReason
  text : Bytes
  transactTime : Timestamp
  deriving DecidableEq, Repr

structure ParserReject where
  rawPayload : Bytes
  reason : Bytes
  deriving DecidableEq, Repr

inductive Event where
  | executionReport (report : ExecutionReport)
  | cancelReject (reject : CancelReject)
  | parserReject (reject : ParserReject)
  deriving DecidableEq, Repr

end DemoExchange.Mor

namespace DemoExchange.OrderEntry
set_option autoImplicit false

def NewOrderSingle.toMor (request : NewOrderSingle) : Mor.NewOrderSingle where
  clientId := request.clientId
  clOrdId := request.clOrdId
  securityId := request.securityId
  symbol := request.symbol
  securityExchange := request.securityExchange
  side := request.side
  ordType := request.ordType
  timeInForce := request.timeInForce
  orderQty := request.orderQty
  price := request.price

def ReplaceOrder.toMor (request : ReplaceOrder) : Mor.ReplaceRequest where
  clientId := request.clientId
  clOrdId := request.clOrdId
  origClOrdId := request.origClOrdId
  securityId := request.securityId
  symbol := request.symbol
  securityExchange := request.securityExchange
  side := request.side
  ordType := request.ordType
  timeInForce := request.timeInForce
  orderQty := request.orderQty
  price := request.price

def CancelOrder.toMor (request : CancelOrder) : Mor.CancelRequest where
  clientId := request.clientId
  clOrdId := request.clOrdId
  origClOrdId := request.origClOrdId

/-- `mor::to_mor` of a request. -/
def Request.toMor : Request → Mor.Request
  | .newOrderSingle request => .newOrderSingle request.toMor
  | .replaceOrder request => .replaceRequest request.toMor
  | .cancelOrder request => .cancelRequest request.toMor
  | .flush => .flushRequest

def ExecutionReport.toMor (event : ExecutionReport) : Mor.ExecutionReport where
  clientId := event.clientId
  clOrdId := event.clOrdId
  origClOrdId := event.origClOrdId
  orderId := event.orderId
  execId := event.execId
  securityId := event.securityId
  symbol := event.symbol
  securityExchange := event.securityExchange
  side := event.side
  ordType := event.ordType
  timeInForce := event.timeInForce
  execType := event.execType
  ordStatus := event.ordStatus
  orderQty := event.orderQty
  cumQty := event.cumQty
  leavesQty := event.leavesQty
  lastQty := event.lastQty
  lastPx := event.lastPx
  avgPx := event.avgPx
  transactTime := event.transactTime
  rejectReason := event.rejectReason
  text := Text.ascii event.text

def CancelReject.toMor (event : CancelReject) : Mor.CancelReject where
  clientId := event.clientId
  clOrdId := event.clOrdId
  origClOrdId := event.origClOrdId
  rejectReason := event.rejectReason
  text := Text.ascii event.text
  transactTime := event.transactTime

/-- `mor::to_mor` of an event. -/
def Event.toMor : Event → Mor.Event
  | .executionReport event => .executionReport event.toMor
  | .cancelReject event => .cancelReject event.toMor

end DemoExchange.OrderEntry

namespace DemoExchange.Mor
set_option autoImplicit false

def NewOrderSingle.toOrderEntry (request : NewOrderSingle) : OrderEntry.NewOrderSingle where
  clientId := request.clientId
  clOrdId := request.clOrdId
  securityId := request.securityId
  symbol := request.symbol
  securityExchange := request.securityExchange
  side := request.side
  ordType := request.ordType
  timeInForce := request.timeInForce
  orderQty := request.orderQty
  price := request.price

def ReplaceRequest.toOrderEntry (request : ReplaceRequest) : OrderEntry.ReplaceOrder where
  clientId := request.clientId
  clOrdId := request.clOrdId
  origClOrdId := request.origClOrdId
  securityId := request.securityId
  symbol := request.symbol
  securityExchange := request.securityExchange
  side := request.side
  ordType := request.ordType
  timeInForce := request.timeInForce
  orderQty := request.orderQty
  price := request.price

def CancelRequest.toOrderEntry (request : CancelRequest) : OrderEntry.CancelOrder where
  clientId := request.clientId
  clOrdId := request.clOrdId
  origClOrdId := request.origClOrdId

/-- `mor::to_order_entry` of a request. -/
def Request.toOrderEntry : Request → OrderEntry.Request
  | .newOrderSingle request => .newOrderSingle request.toOrderEntry
  | .replaceRequest request => .replaceOrder request.toOrderEntry
  | .cancelRequest request => .cancelOrder request.toOrderEntry
  | .flushRequest => .flush

@[simp] theorem toOrderEntry_toMor (request : OrderEntry.Request) : request.toMor.toOrderEntry = request := by
  cases request <;> rfl

end DemoExchange.Mor
