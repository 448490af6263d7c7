import DemoExchange.Lab.FixedString

/-!
# Market-data messages

`market_data/types.hpp` and `market_data/messages.hpp`.
-/

namespace DemoExchange.MarketData
set_option autoImplicit false

abbrev SecurityId := UInt64
abbrev Symbol := Lab.FixedString 16
abbrev SecurityExchange := Lab.FixedString 8
abbrev SecurityGroup := Lab.FixedString 16
abbrev SecurityType := Lab.FixedString 8
abbrev SecuritySubtype := Lab.FixedString 8
abbrev Price := UInt64
abbrev Quantity := UInt64
abbrev OrderId := UInt64
abbrev TradeId := UInt64
abbrev Timestamp := UInt64
abbrev TradeDate := Lab.FixedString 8
abbrev Currency := Lab.FixedString 3
abbrev TradingSessionId := Lab.FixedString 8

inductive Side where
  | buy
  | sell
  deriving DecidableEq, Repr

inductive UpdateAction where
  | newOrder
  | change
  | deleteOrder
  deriving DecidableEq, Repr

inductive SecurityTradingStatus where
  | open
  | closed
  | halted
  deriving DecidableEq, Repr

inductive SecurityTradingEvent where
  | none
  | tradingResume
  | tradingHalt
  deriving DecidableEq, Repr

inductive TradeCondition where
  | regular
  deriving DecidableEq, Repr

inductive TradeSubType where
  | regular
  deriving DecidableEq, Repr

structure SecurityDefinition where
  securityId : SecurityId
  symbol : Symbol
  securityExchange : SecurityExchange
  securityGroup : SecurityGroup
  securityType : SecurityType
  securitySubtype : Option SecuritySubtype
  minPriceIncrement : Price
  roundLot : Quantity
  currency : Currency
  deriving DecidableEq, Repr

structure SecurityStatus where
  securityId : SecurityId
  securityExchange : SecurityExchange
  tradingSessionId : TradingSessionId
  securityTradingStatus : SecurityTradingStatus
  securityTradingEvent : SecurityTradingEvent
  transactTime : Timestamp
  deriving DecidableEq, Repr

structure ExecutionSummary where
  securityId : SecurityId
  aggressorSide : Side
  lastPx : Price
  fillQty : Quantity
  tradedHiddenQty : Option Quantity
  cancelQty : Option Quantity
  aggressorTime : Timestamp
  transactTime : Timestamp
  deriving DecidableEq, Repr

structure Trade where
  securityId : SecurityId
  tradeId : TradeId
  price : Price
  quantity : Quantity
  buyer : Option OrderId
  seller : Option OrderId
  tradeCondition : TradeCondition
  tradeSubType : Option TradeSubType
  tradeDate : TradeDate
  transactTime : Timestamp
  deriving DecidableEq, Repr

structure MboBookUpdate where
  securityId : SecurityId
  updateAction : UpdateAction
  side : Side
  restingOrderId : OrderId
  price : Option Price
  quantity : Option Quantity
  previousQuantity : Option Quantity
  transactTime : Timestamp
  deriving DecidableEq, Repr

inductive Message where
  | securityDefinition (message : SecurityDefinition)
  | securityStatus (message : SecurityStatus)
  | executionSummary (message : ExecutionSummary)
  | trade (message : Trade)
  | mboBookUpdate (message : MboBookUpdate)
  deriving DecidableEq, Repr

end DemoExchange.MarketData
