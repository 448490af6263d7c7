import DemoExchange.Mor.Messages

/-!
# FIX-shaped order routing

`morfix/messages.hpp` and `morfix/src/conversions.cpp`.
-/

namespace DemoExchange.Morfix
set_option autoImplicit false
open Text OrderEntry

structure NewOrderSingle where
  account : ClientId
  clOrdId : ClOrdId
  securityId : SecurityId
  symbol : Symbol
  securityExchange : SecurityExchange
  side : Side
  ordType : OrdType
  timeInForce : TimeInForce
  orderQty : Quantity
  price : Price
  deriving DecidableEq, Repr

structure OrderCancelReplaceRequest where
  account : ClientId
  clOrdId : ClOrdId
  origClOrdId : OrigClOrdId
  securityId : SecurityId
  symbol : Symbol
  securityExchange : SecurityExchange
  side : Side
  ordType : OrdType
  timeInForce : TimeInForce
  orderQty : Quantity
  price : Price
  deriving DecidableEq, Repr

structure OrderCancelRequest where
  account : ClientId
  clOrdId : ClOrdId
  origClOrdId : OrigClOrdId
  deriving DecidableEq, Repr

inductive Request where
  | newOrderSingle (request : NewOrderSingle)
  | orderCancelReplaceRequest (request : OrderCancelReplaceRequest)
  | orderCancelRequest (request : OrderCancelRequest)
  deriving DecidableEq, Repr

structure ExecutionReport where
  account : ClientId
  clOrdId : ClOrdId
  origClOrdId : Option OrigClOrdId
  orderId : OrderId
  execId : ExecId
  securityId : SecurityId
  symbol : Symbol
  securityExchange : SecurityExchange
  side : Side
  ordType : OrdType
  timeInForce : TimeInForce
  execType : ExecType
  ordStatus : OrdStatus
  orderQty : Quantity
  cumQty : Quantity
  leavesQty : Quantity
  lastQty : Option Quantity
  lastPx : Option Price
  avgPx : Option Price
  transactTime : Timestamp
  rejectReason : Option RejectReason
  text : Bytes
  deriving DecidableEq, Repr

structure OrderCancelReject where
  account : ClientId
  clOrdId : ClOrdId
  origClOrdId : OrigClOrdId
  rejectReason : RejectReason
  text : Bytes
  transactTime : Timestamp
  deriving DecidableEq, Repr

inductive Event where
  | executionReport (report : ExecutionReport)
  | orderCancelReject (reject : OrderCancelReject)
  deriving DecidableEq, Repr

end DemoExchange.Morfix

namespace DemoExchange.Mor
set_option autoImplicit false

def NewOrderSingle.toFix (request : NewOrderSingle) : Morfix.NewOrderSingle where
  account := request.clientId
  clOrdId := request.clOrdId
  securityId := request.securityId
  symbol := request.symbol
  securityExchange := request.securityExchange
  side := request.side
  ordType := request.ordType
  timeInForce := request.timeInForce
  orderQty := request.orderQty
  price := request.price

def ReplaceRequest.toFix (request : ReplaceRequest) : Morfix.OrderCancelReplaceRequest where
  account := request.clientId
  clOrdId := request.clOrdId
  origClOrdId := request.origClOrdId
  securityId := request.securityId
  symbol := request.symbol
  securityExchange := request.securityExchange
  side := request.side
  ordType := request.ordType
  timeInForce := request.timeInForce
  orderQty := request.orderQty
  price := request.price

def CancelRequest.toFix (request : CancelRequest) : Morfix.OrderCancelRequest where
  account := request.clientId
  clOrdId := request.clOrdId
  origClOrdId := request.origClOrdId

/-- `morfix::to_fix` of a request: there is no FIX message for a flush. -/
def Request.toFix : Request → Option Morfix.Request
  | .newOrderSingle request => some (.newOrderSingle request.toFix)
  | .replaceRequest request => some (.orderCancelReplaceRequest request.toFix)
  | .cancelRequest request => some (.orderCancelRequest request.toFix)
  | .flushRequest => none

def ExecutionReport.toFix (event : ExecutionReport) : Morfix.ExecutionReport where
  account := event.clientId
  clOrdId := event.clOrdId
  origClOrdId := event.origClOrdId
  orderId := event.orderId
  execId := event.execId
  securityId := event.securityId
  symbol := event.symbol
  securityExchange := event.securityExchange
  side := event.side
  ordType := event.ordType
  timeInForce := event.timeInForce
  execType := event.execType
  ordStatus := event.ordStatus
  orderQty := event.orderQty
  cumQty := event.cumQty
  leavesQty := event.leavesQty
  lastQty := event.lastQty
  lastPx := event.lastPx
  avgPx := event.avgPx
  transactTime := event.transactTime
  rejectReason := event.rejectReason
  text := event.text

def CancelReject.toFix (event : CancelReject) : Morfix.OrderCancelReject where
  account := event.clientId
  clOrdId := event.clOrdId
  origClOrdId := event.origClOrdId
  rejectReason := event.rejectReason
  text := event.text
  transactTime := event.transactTime

/-- `morfix::to_fix` of an event: there is no FIX message for a parser reject. -/
def Event.toFix : Event → Option Morfix.Event
  | .executionReport event => some (.executionReport event.toFix)
  | .cancelReject event => some (.orderCancelReject event.toFix)
  | .parserReject _ => none

end DemoExchange.Mor

namespace DemoExchange.Morfix
set_option autoImplicit false

def NewOrderSingle.toMor (request : NewOrderSingle) : Mor.NewOrderSingle where
  clientId := request.account
  clOrdId := request.clOrdId
  securityId := request.securityId
  symbol := request.symbol
  securityExchange := request.securityExchange
  side := request.side
  ordType := request.ordType
  timeInForce := request.timeInForce
  orderQty := request.orderQty
  price := request.price

def OrderCancelReplaceRequest.toMor (request : OrderCancelReplaceRequest) : Mor.ReplaceRequest where
  clientId := request.account
  clOrdId := request.clOrdId
  origClOrdId := request.origClOrdId
  securityId := request.securityId
  symbol := request.symbol
  securityExchange := request.securityExchange
  side := request.side
  ordType := request.ordType
  timeInForce := request.timeInForce
  orderQty := request.orderQty
  price := request.price

def OrderCancelRequest.toMor (request : OrderCancelRequest) : Mor.CancelRequest where
  clientId := request.account
  clOrdId := request.clOrdId
  origClOrdId := request.origClOrdId

/-- `morfix::to_mor` of a request. -/
def Request.toMor : Request → Mor.Request
  | .newOrderSingle request => .newOrderSingle request.toMor
  | .orderCancelReplaceRequest request => .replaceRequest request.toMor
  | .orderCancelRequest request => .cancelRequest request.toMor

def ExecutionReport.toMor (event : ExecutionReport) : Mor.ExecutionReport where
  clientId := event.account
  clOrdId := event.clOrdId
  origClOrdId := event.origClOrdId
  orderId := event.orderId
  execId := event.execId
  securityId := event.securityId
  symbol := event.symbol
  securityExchange := event.securityExchange
  side := event.side
  ordType := event.ordType
  timeInForce := event.timeInForce
  execType := event.execType
  ordStatus := event.ordStatus
  orderQty := event.orderQty
  cumQty := event.cumQty
  leavesQty := event.leavesQty
  lastQty := event.lastQty
  lastPx := event.lastPx
  avgPx := event.avgPx
  transactTime := event.transactTime
  rejectReason := event.rejectReason
  text := event.text

def OrderCancelReject.toMor (event : OrderCancelReject) : Mor.CancelReject where
  clientId := event.account
  clOrdId := event.clOrdId
  origClOrdId := event.origClOrdId
  rejectReason := event.rejectReason
  text := event.text
  transactTime := event.transactTime

/-- `morfix::to_mor` of an event. -/
def Event.toMor : Event → Mor.Event
  | .executionReport event => .executionReport event.toMor
  | .orderCancelReject event => .cancelReject event.toMor

end DemoExchange.Morfix
