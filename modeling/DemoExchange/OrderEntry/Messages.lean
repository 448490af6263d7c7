import DemoExchange.Lab.FixedString

/-!
# Order-entry messages

`order_entry/types.hpp` and `order_entry/messages.hpp`. A strong type over
`std::uint64_t` is its underlying word: the tags keep domains apart and carry
no value.
-/

namespace DemoExchange.OrderEntry
set_option autoImplicit false

abbrev ClientId := UInt64
abbrev ClOrdId := UInt64
abbrev OrigClOrdId := UInt64
abbrev OrderId := UInt64
abbrev ExecId := UInt64
abbrev SecurityId := UInt64
abbrev Symbol := Lab.FixedString 16
abbrev SecurityExchange := Lab.FixedString 8
abbrev Price := UInt64
abbrev Quantity := UInt64
abbrev Timestamp := UInt64

inductive Side where
  | buy
  | sell
  deriving DecidableEq, Repr

inductive OrdType where
  | market
  | limit
  deriving DecidableEq, Repr

inductive TimeInForce where
  | day
  | ioc
  deriving DecidableEq, Repr

inductive ExecType where
  | newOrder
  | replaced
  | canceled
  | trade
  | rejected
  | expired
  deriving DecidableEq, Repr

inductive OrdStatus where
  | newOrder
  | partiallyFilled
  | filled
  | canceled
  | replaced
  | rejected
  | expired
  deriving DecidableEq, Repr

inductive RejectReason where
  | unknownOrder
  | duplicateOrder
  | unknownSymbol
  | unsupportedRequest
  deriving DecidableEq, Repr

/-- `types::opposite`. -/
def opposite : Side → Side
  | .buy => .sell
  | .sell => .buy

theorem opposite_ne (side : Side) : opposite side ≠ side := by
  cases side <;> decide

structure NewOrderSingle where
  clientId : ClientId
  clOrdId : ClOrdId
  securityId : SecurityId
  symbol : Symbol
  securityExchange : SecurityExchange
  side : Side
  ordType : OrdType
  timeInForce : TimeInForce
  orderQty : Quantity
  price : Price
  deriving DecidableEq, Repr

structure ReplaceOrder where
  clientId : ClientId
  clOrdId : ClOrdId
  origClOrdId : OrigClOrdId
  securityId : SecurityId
  symbol : Symbol
  securityExchange : SecurityExchange
  side : Side
  ordType : OrdType
  timeInForce : TimeInForce
  orderQty : Quantity
  price : Price
  deriving DecidableEq, Repr

structure CancelOrder where
  clientId : ClientId
  clOrdId : ClOrdId
  origClOrdId : OrigClOrdId
  deriving DecidableEq, Repr

inductive Request where
  | newOrderSingle (request : NewOrderSingle)
  | replaceOrder (request : ReplaceOrder)
  | cancelOrder (request : CancelOrder)
  | flush
  deriving DecidableEq, Repr

structure ExecutionReport where
  clientId : ClientId
  clOrdId : ClOrdId
  origClOrdId : Option OrigClOrdId
  orderId : OrderId
  execId : ExecId
  securityId : SecurityId
  symbol : Symbol
  securityExchange : SecurityExchange
  side : Side
  ordType : OrdType
  timeInForce : TimeInForce
  execType : ExecType
  ordStatus : OrdStatus
  orderQty : Quantity
  cumQty : Quantity
  leavesQty : Quantity
  lastQty : Option Quantity
  lastPx : Option Price
  avgPx : Option Price
  transactTime : Timestamp
  rejectReason : Option RejectReason
  text : String
  deriving DecidableEq, Repr

structure CancelReject where
  clientId : ClientId
  clOrdId : ClOrdId
  origClOrdId : OrigClOrdId
  rejectReason : RejectReason
  text : String
  transactTime : Timestamp
  deriving DecidableEq, Repr

inductive Event where
  | executionReport (report : ExecutionReport)
  | cancelReject (reject : CancelReject)
  deriving DecidableEq, Repr

end DemoExchange.OrderEntry
