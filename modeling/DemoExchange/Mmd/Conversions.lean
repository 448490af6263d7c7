import DemoExchange.Mmd.Messages

/-!
# Conversions

`mmd/src/conversions.cpp`. The overloads of `to_mmd` and `to_market_data` have
the name of their message.
-/

namespace DemoExchange.Mmd
set_option autoImplicit false

def toMmdSecurityDefinition (message : MarketData.SecurityDefinition) : Mmd.SecurityDefinition where
  securityId := message.securityId
  symbol := message.symbol
  securityExchange := message.securityExchange
  securityGroup := message.securityGroup
  securityType := message.securityType
  securitySubtype := message.securitySubtype
  minPriceIncrement := message.minPriceIncrement
  roundLot := message.roundLot
  currency := message.currency

def toMmdSecurityStatus (message : MarketData.SecurityStatus) : Mmd.SecurityStatus where
  securityId := message.securityId
  securityExchange := message.securityExchange
  tradingSessionId := message.tradingSessionId
  securityTradingStatus := message.securityTradingStatus
  securityTradingEvent := message.securityTradingEvent
  transactTime := message.transactTime

def toMmdExecutionSummary (message : MarketData.ExecutionSummary) : Mmd.ExecutionSummary where
  securityId := message.securityId
  aggressorSide := message.aggressorSide
  lastPx := message.lastPx
  fillQty := message.fillQty
  tradedHiddenQty := message.tradedHiddenQty
  cancelQty := message.cancelQty
  aggressorTime := message.aggressorTime
  transactTime := message.transactTime

def toMmdTrade (message : MarketData.Trade) : Mmd.Trade where
  securityId := message.securityId
  tradeId := message.tradeId
  price := message.price
  quantity := message.quantity
  buyer := message.buyer
  seller := message.seller
  tradeCondition := message.tradeCondition
  tradeSubType := message.tradeSubType
  tradeDate := message.tradeDate
  transactTime := message.transactTime

def toMmdMboBookUpdate (message : MarketData.MboBookUpdate) : Mmd.MboBookUpdate where
  securityId := message.securityId
  updateAction := message.updateAction
  side := message.side
  restingOrderId := message.restingOrderId
  price := message.price
  quantity := message.quantity
  previousQuantity := message.previousQuantity
  transactTime := message.transactTime

def toMmd : MarketData.Message → Mmd.Message
  | .securityDefinition event => .securityDefinition (toMmdSecurityDefinition event)
  | .securityStatus event => .securityStatus (toMmdSecurityStatus event)
  | .executionSummary event => .executionSummary (toMmdExecutionSummary event)
  | .trade event => .trade (toMmdTrade event)
  | .mboBookUpdate event => .mboBookUpdate (toMmdMboBookUpdate event)

def toMarketDataSecurityDefinition (message : Mmd.SecurityDefinition) : MarketData.SecurityDefinition where
  securityId := message.securityId
  symbol := message.symbol
  securityExchange := message.securityExchange
  securityGroup := message.securityGroup
  securityType := message.securityType
  securitySubtype := message.securitySubtype
  minPriceIncrement := message.minPriceIncrement
  roundLot := message.roundLot
  currency := message.currency

def toMarketDataSecurityStatus (message : Mmd.SecurityStatus) : MarketData.SecurityStatus where
  securityId := message.securityId
  securityExchange := message.securityExchange
  tradingSessionId := message.tradingSessionId
  securityTradingStatus := message.securityTradingStatus
  securityTradingEvent := message.securityTradingEvent
  transactTime := message.transactTime

def toMarketDataExecutionSummary (message : Mmd.ExecutionSummary) : MarketData.ExecutionSummary where
  securityId := message.securityId
  aggressorSide := message.aggressorSide
  lastPx := message.lastPx
  fillQty := message.fillQty
  tradedHiddenQty := message.tradedHiddenQty
  cancelQty := message.cancelQty
  aggressorTime := message.aggressorTime
  transactTime := message.transactTime

def toMarketDataTrade (message : Mmd.Trade) : MarketData.Trade where
  securityId := message.securityId
  tradeId := message.tradeId
  price := message.price
  quantity := message.quantity
  buyer := message.buyer
  seller := message.seller
  tradeCondition := message.tradeCondition
  tradeSubType := message.tradeSubType
  tradeDate := message.tradeDate
  transactTime := message.transactTime

def toMarketDataMboBookUpdate (message : Mmd.MboBookUpdate) : MarketData.MboBookUpdate where
  securityId := message.securityId
  updateAction := message.updateAction
  side := message.side
  restingOrderId := message.restingOrderId
  price := message.price
  quantity := message.quantity
  previousQuantity := message.previousQuantity
  transactTime := message.transactTime

def toMarketData : Mmd.Message → MarketData.Message
  | .securityDefinition event => .securityDefinition (toMarketDataSecurityDefinition event)
  | .securityStatus event => .securityStatus (toMarketDataSecurityStatus event)
  | .executionSummary event => .executionSummary (toMarketDataExecutionSummary event)
  | .trade event => .trade (toMarketDataTrade event)
  | .mboBookUpdate event => .mboBookUpdate (toMarketDataMboBookUpdate event)

end DemoExchange.Mmd
