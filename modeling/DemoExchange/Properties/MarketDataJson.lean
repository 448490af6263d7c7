import DemoExchange.MarketData.JsonEncoder
import DemoExchange.Mmd.Conversions
import DemoExchange.MmdJson.JsonEncoder

/-!
# The two paths of market data to JSON

A message that is normalized and then encoded gives the record that its own
encoder gives, and the conversions lose nothing.
-/

namespace DemoExchange.Properties
set_option autoImplicit false
open Text Lab Mmd

section Conversions

/-- **Normalizing and back.** -/
@[simp] theorem toMarketData_toMmd (message : MarketData.Message) : toMarketData (toMmd message) = message := by
  cases message <;> rfl

@[simp] theorem toMmd_toMarketData (message : Mmd.Message) : toMmd (toMarketData message) = message := by
  cases message <;> rfl

end Conversions

section Tables

theorem encodeSide_mmd (side : Side) : MmdJson.JsonEncoder.encodeSide side = MarketData.JsonEncoder.encodeSide side := by
  cases side <;> rfl

theorem encodeUpdateAction_mmd (action : UpdateAction) :
    MmdJson.JsonEncoder.encodeUpdateAction action = MarketData.JsonEncoder.encodeUpdateAction action := by
  cases action <;> rfl

theorem encodeSecurityTradingStatus_mmd (status : SecurityTradingStatus) :
    MmdJson.JsonEncoder.encodeSecurityTradingStatus status = MarketData.JsonEncoder.encodeSecurityTradingStatus status := by
  cases status <;> rfl

theorem encodeSecurityTradingEvent_mmd (event : SecurityTradingEvent) :
    MmdJson.JsonEncoder.encodeSecurityTradingEvent event = MarketData.JsonEncoder.encodeSecurityTradingEvent event := by
  cases event <;> rfl

theorem encodeTradeCondition_mmd (condition : TradeCondition) :
    MmdJson.JsonEncoder.encodeTradeCondition condition = MarketData.JsonEncoder.encodeTradeCondition condition := by
  cases condition
  rfl

theorem encodeTradeSubType_mmd (tradeSubType : TradeSubType) :
    MmdJson.JsonEncoder.encodeTradeSubType tradeSubType = MarketData.JsonEncoder.encodeTradeSubType tradeSubType := by
  cases tradeSubType
  rfl

end Tables

section Records

/-- **The members of a record** are those of the message's own encoder. -/
theorem payload_toMmd (message : MarketData.Message) :
    MmdJson.JsonEncoder.payload (toMmd message) = MarketData.JsonEncoder.payload message := by
  cases message with
  | securityDefinition message => rfl
  | securityStatus message =>
    have status := encodeSecurityTradingStatus_mmd message.securityTradingStatus
    have event := encodeSecurityTradingEvent_mmd message.securityTradingEvent
    simp only [toMmd, MmdJson.JsonEncoder.payload, MmdJson.JsonEncoder.payloadSecurityStatus, toMmdSecurityStatus, status, event]
    rfl
  | executionSummary message =>
    have side := encodeSide_mmd message.aggressorSide
    simp only [toMmd, MmdJson.JsonEncoder.payload, MmdJson.JsonEncoder.payloadExecutionSummary, toMmdExecutionSummary, side]
    rfl
  | trade message =>
    have condition := encodeTradeCondition_mmd message.tradeCondition
    have subType : message.tradeSubType.map MmdJson.JsonEncoder.encodeTradeSubType =
        message.tradeSubType.map MarketData.JsonEncoder.encodeTradeSubType :=
      Option.map_congr fun tradeSubType _ => encodeTradeSubType_mmd tradeSubType
    simp only [toMmd, MmdJson.JsonEncoder.payload, MmdJson.JsonEncoder.payloadTrade, toMmdTrade, condition, subType]
    rfl
  | mboBookUpdate message =>
    have action := encodeUpdateAction_mmd message.updateAction
    have side := encodeSide_mmd message.side
    simp only [toMmd, MmdJson.JsonEncoder.payload, MmdJson.JsonEncoder.payloadMboBookUpdate, toMmdMboBookUpdate, action, side]
    rfl

/-- **The two paths agree** on every message, and the conversion loses nothing of it. -/
theorem mmd_json_agrees (lib : Nlohmann) (message : MarketData.Message) :
    MmdJson.JsonEncoder.encode lib (toMmd message) = MarketData.JsonEncoder.encode lib message ∧
      toMarketData (toMmd message) = message := by
  refine ⟨?_, toMarketData_toMmd message⟩
  rw [MmdJson.JsonEncoder.encode, payload_toMmd, MarketData.JsonEncoder.encode]

end Records

end DemoExchange.Properties
