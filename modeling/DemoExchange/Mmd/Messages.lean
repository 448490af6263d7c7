import DemoExchange.MarketData.Messages

/-!
# Normalized market-data messages

`mmd/messages.hpp`. The types of the fields are those of `market_data`.
-/

namespace DemoExchange.Mmd
set_option autoImplicit false
export MarketData (SecurityId Symbol SecurityExchange SecurityGroup SecurityType SecuritySubtype Price Quantity OrderId TradeId Timestamp
  TradeDate Currency TradingSessionId Side UpdateAction SecurityTradingStatus SecurityTradingEvent TradeCondition TradeSubType)

structure SecurityDefinition where
  securityId : SecurityId
  symbol : Symbol
  securityExchange : SecurityExchange
  securityGroup : SecurityGroup
  securityType : SecurityType
  securitySubtype : Option SecuritySubtype
  minPriceIncrement : Price
  roundLot : Quantity
  currency : Currency
  deriving DecidableEq, Repr

structure SecurityStatus where
  securityId : SecurityId
  securityExchange : SecurityExchange
  tradingSessionId : TradingSessionId
  securityTradingStatus : SecurityTradingStatus
  securityTradingEvent : SecurityTradingEvent
  transactTime : Timestamp
  deriving DecidableEq, Repr

structure ExecutionSummary where
  securityId : SecurityId
  aggressorSide : Side
  lastPx : Price
  fillQty : Quantity
  tradedHiddenQty : Option Quantity
  cancelQty : Option Quantity
  aggressorTime : Timestamp
  transactTime : Timestamp
  deriving DecidableEq, Repr

structure Trade where
  securityId : SecurityId
  tradeId : TradeId
  price : Price
  quantity : Quantity
  buyer : Option OrderId
  seller : Option OrderId
  tradeCondition : TradeCondition
  tradeSubType : Option TradeSubType
  tradeDate : TradeDate
  transactTime : Timestamp
  deriving DecidableEq, Repr

structure MboBookUpdate where
  securityId : SecurityId
  updateAction : UpdateAction
  side : Side
  restingOrderId : OrderId
  price : Option Price
  quantity : Option Quantity
  previousQuantity : Option Quantity
  transactTime : Timestamp
  deriving DecidableEq, Repr

inductive Message where
  | securityDefinition (message : SecurityDefinition)
  | securityStatus (message : SecurityStatus)
  | executionSummary (message : ExecutionSummary)
  | trade (message : Trade)
  | mboBookUpdate (message : MboBookUpdate)
  deriving DecidableEq, Repr

end DemoExchange.Mmd
