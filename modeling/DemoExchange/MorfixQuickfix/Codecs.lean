import DemoExchange.Lab.Charconv
import DemoExchange.Lab.FixedString
import DemoExchange.Morfix.Messages
import DemoExchange.Ospec.B3
import DemoExchange.QuickfixFix.Message

/-!
# The codecs between FIX-shaped records and FIX messages

`morfix_quickfix/src/codecs.cpp`. The overloads of `as_field_value` and
`parse_field_value` are the instances of `FieldValue`; a `char` is a byte and a
number is a word.
-/

namespace DemoExchange.MorfixQuickfix
set_option autoImplicit false
open Text Lab OrderEntry QuickfixFix Ospec

inductive ErrorCode where
  | unsupportedMessage
  deriving DecidableEq, Repr

/-- The value of the enumerator. -/
def ErrorCode.value : ErrorCode → Nat
  | .unsupportedMessage => 206002

def newOrderSingleMsgType : Bytes := ascii "D"
def orderCancelReplaceRequestMsgType : Bytes := ascii "G"
def orderCancelRequestMsgType : Bytes := ascii "F"
def executionReportMsgType : Bytes := ascii "8"
def orderCancelRejectMsgType : Bytes := ascii "9"

/-- What can be the value of a field, with `as_field_value`, and what `get_required<T>`
does with a value that is not empty. -/
class FieldValue (α : Type) where
  asFieldValue : α → Bytes
  parseFieldValue : B3.FieldSpec → Bytes → Result α
  parse_as : ∀ (field : B3.FieldSpec) (value : α), parseFieldValue field (asFieldValue value) = .ok value

export FieldValue (asFieldValue parseFieldValue)

instance : FieldValue UInt64 where
  asFieldValue value := decimal value.toNat
  parseFieldValue _ value := fromChars64 value
  parse_as _ value := fromChars64_decimal value

instance : FieldValue UInt16 where
  asFieldValue value := decimal value.toNat
  parseFieldValue _ value := fromChars16 value
  parse_as _ value := fromChars16_decimal value

instance {n : Nat} : FieldValue (FixedString n) where
  asFieldValue value := value.content
  parseFieldValue _ value := FixedString.fromView n value
  parse_as _ value := FixedString.fromView_content value

instance : FieldValue Bytes where
  asFieldValue value := value
  parseFieldValue _ value := .ok value
  parse_as _ _ := rfl

instance : FieldValue UInt8 where
  asFieldValue value := [value]
  parseFieldValue field value :=
    match value with
    | [value] => .ok value
    | _ => makeLeafError .invalidArgument (field.name ++ ascii " must be one character")
  parse_as _ _ := rfl

section Helpers

variable {α : Type} [FieldValue α]

def setField (message : Message) (field : B3.FieldSpec) (value : α) : Message := message.set field.number (asFieldValue value)

def setOptionalField (message : Message) (field : B3.FieldSpec) (value : Option α) : Message :=
  match value with
  | some value => setField message field value
  | none => message

def getRequiredView (message : Message) (field : B3.FieldSpec) : Result Bytes :=
  match message.get field.number with
  | some value => if value = [] then makeLeafError .invalidArgument (field.name ++ ascii " is empty") else .ok value
  | none => makeLeafError .invalidArgument (ascii "missing required field " ++ field.name)

def getRequired (α : Type) [FieldValue α] (message : Message) (field : B3.FieldSpec) : Result α := do
  let value ← getRequiredView message field
  parseFieldValue field value

def getOptional (α : Type) [FieldValue α] (message : Message) (field : B3.FieldSpec) : Result (Option α) :=
  match message.get field.number with
  | none => .ok none
  | some _ => do
    let value ← getRequired α message field
    return some value

end Helpers

section Decode

def decodeNewOrderSingle (message : Message) : Result Morfix.NewOrderSingle := do
  let side ← B3.parseSide (← getRequired UInt8 message B3.side)
  let ordType ← B3.parseOrdType (← getRequired UInt8 message B3.ordType)
  let timeInForce ← B3.parseTimeInForce (← getRequired UInt8 message B3.timeInForce)
  let account ← getRequired ClientId message B3.account
  let clOrdId ← getRequired ClOrdId message B3.clOrdId
  let securityId ← getRequired SecurityId message B3.securityId
  let symbol ← getRequired Symbol message B3.symbol
  let securityExchange ← getRequired SecurityExchange message B3.securityExchange
  let orderQty ← getRequired Quantity message B3.orderQty
  let price ← getRequired Price message B3.price
  return { account, clOrdId, securityId, symbol, securityExchange, side, ordType, timeInForce, orderQty, price }

def decodeOrderCancelReplaceRequest (message : Message) : Result Morfix.OrderCancelReplaceRequest := do
  let order ← decodeNewOrderSingle message
  let origClOrdId ← getRequired OrigClOrdId message B3.origClOrdId
  return {
    account := order.account
    clOrdId := order.clOrdId
    origClOrdId := origClOrdId
    securityId := order.securityId
    symbol := order.symbol
    securityExchange := order.securityExchange
    side := order.side
    ordType := order.ordType
    timeInForce := order.timeInForce
    orderQty := order.orderQty
    price := order.price }

def decodeOrderCancelRequest (message : Message) : Result Morfix.OrderCancelRequest := do
  let account ← getRequired ClientId message B3.account
  let clOrdId ← getRequired ClOrdId message B3.clOrdId
  let origClOrdId ← getRequired OrigClOrdId message B3.origClOrdId
  return { account, clOrdId, origClOrdId }

def decodeExecutionReport (message : Message) : Result Morfix.ExecutionReport := do
  let side ← B3.parseSide (← getRequired UInt8 message B3.side)
  let ordType ← B3.parseOrdType (← getRequired UInt8 message B3.ordType)
  let timeInForce ← B3.parseTimeInForce (← getRequired UInt8 message B3.timeInForce)
  let execType ← B3.parseExecType (← getRequired UInt8 message B3.execType)
  let ordStatus ← B3.parseOrdStatus (← getRequired UInt8 message B3.ordStatus)
  let rejectReasonCode ← getOptional UInt16 message B3.cxlRejReason
  let account ← getRequired ClientId message B3.account
  let clOrdId ← getRequired ClOrdId message B3.clOrdId
  let origClOrdId ← getOptional OrigClOrdId message B3.origClOrdId
  let orderId ← getRequired OrderId message B3.orderId
  let execId ← getRequired ExecId message B3.execId
  let securityId ← getRequired SecurityId message B3.securityId
  let symbol ← getRequired Symbol message B3.symbol
  let securityExchange ← getRequired SecurityExchange message B3.securityExchange
  let orderQty ← getRequired Quantity message B3.orderQty
  let cumQty ← getRequired Quantity message B3.cumQty
  let leavesQty ← getRequired Quantity message B3.leavesQty
  let lastQty ← getOptional Quantity message B3.lastQty
  let lastPx ← getOptional Price message B3.lastPx
  let avgPx ← getOptional Price message B3.avgPx
  let transactTime ← getRequired Timestamp message B3.transactTime
  let text ← getOptional Bytes message B3.text
  let rejectReason ← match rejectReasonCode with
    | some code => do
      let reason ← B3.parseRejectReason code
      pure (some reason)
    | none => pure none
  return { account, clOrdId, origClOrdId, orderId, execId, securityId, symbol, securityExchange, side, ordType, timeInForce, execType,
           ordStatus, orderQty, cumQty, leavesQty, lastQty, lastPx, avgPx, transactTime, rejectReason, text := text.getD [] }

def decodeOrderCancelReject (message : Message) : Result Morfix.OrderCancelReject := do
  let rejectReasonCode ← getRequired UInt16 message B3.cxlRejReason
  let rejectReason ← B3.parseRejectReason rejectReasonCode
  let account ← getRequired ClientId message B3.account
  let clOrdId ← getRequired ClOrdId message B3.clOrdId
  let origClOrdId ← getRequired OrigClOrdId message B3.origClOrdId
  let text ← getOptional Bytes message B3.text
  let transactTime ← getRequired Timestamp message B3.transactTime
  return { account, clOrdId, origClOrdId, rejectReason, text := text.getD [], transactTime }

end Decode

section Encode

def encodeNewOrderSingle (request : Morfix.NewOrderSingle) : Message :=
  let message := Message.new newOrderSingleMsgType
  let message := setField message B3.account request.account
  let message := setField message B3.clOrdId request.clOrdId
  let message := setField message B3.securityId request.securityId
  let message := setField message B3.symbol request.symbol
  let message := setField message B3.securityExchange request.securityExchange
  let message := setField message B3.side (B3.normalizeSide request.side)
  let message := setField message B3.ordType (B3.normalizeOrdType request.ordType)
  let message := setField message B3.timeInForce (B3.normalizeTimeInForce request.timeInForce)
  let message := setField message B3.orderQty request.orderQty
  setField message B3.price request.price

def encodeOrderCancelReplaceRequest (request : Morfix.OrderCancelReplaceRequest) : Message :=
  let message := Message.new orderCancelReplaceRequestMsgType
  let message := setField message B3.account request.account
  let message := setField message B3.clOrdId request.clOrdId
  let message := setField message B3.origClOrdId request.origClOrdId
  let message := setField message B3.securityId request.securityId
  let message := setField message B3.symbol request.symbol
  let message := setField message B3.securityExchange request.securityExchange
  let message := setField message B3.side (B3.normalizeSide request.side)
  let message := setField message B3.ordType (B3.normalizeOrdType request.ordType)
  let message := setField message B3.timeInForce (B3.normalizeTimeInForce request.timeInForce)
  let message := setField message B3.orderQty request.orderQty
  setField message B3.price request.price

def encodeOrderCancelRequest (request : Morfix.OrderCancelRequest) : Message :=
  let message := Message.new orderCancelRequestMsgType
  let message := setField message B3.account request.account
  let message := setField message B3.clOrdId request.clOrdId
  setField message B3.origClOrdId request.origClOrdId

def encodeExecutionReport (event : Morfix.ExecutionReport) : Message :=
  let message := Message.new executionReportMsgType
  let message := setField message B3.account event.account
  let message := setField message B3.clOrdId event.clOrdId
  let message := setOptionalField message B3.origClOrdId event.origClOrdId
  let message := setField message B3.orderId event.orderId
  let message := setField message B3.execId event.execId
  let message := setField message B3.securityId event.securityId
  let message := setField message B3.symbol event.symbol
  let message := setField message B3.securityExchange event.securityExchange
  let message := setField message B3.side (B3.normalizeSide event.side)
  let message := setField message B3.ordType (B3.normalizeOrdType event.ordType)
  let message := setField message B3.timeInForce (B3.normalizeTimeInForce event.timeInForce)
  let message := setField message B3.execType (B3.normalizeExecType event.execType)
  let message := setField message B3.ordStatus (B3.normalizeOrdStatus event.ordStatus)
  let message := setField message B3.orderQty event.orderQty
  let message := setField message B3.cumQty event.cumQty
  let message := setField message B3.leavesQty event.leavesQty
  let message := setOptionalField message B3.lastQty event.lastQty
  let message := setOptionalField message B3.lastPx event.lastPx
  let message := setOptionalField message B3.avgPx event.avgPx
  let message := setField message B3.transactTime event.transactTime
  let message := setOptionalField message B3.cxlRejReason (event.rejectReason.map B3.normalizeRejectReason)
  if event.text ≠ [] then setField message B3.text event.text else message

def encodeOrderCancelReject (event : Morfix.OrderCancelReject) : Message :=
  let message := Message.new orderCancelRejectMsgType
  let message := setField message B3.account event.account
  let message := setField message B3.clOrdId event.clOrdId
  let message := setField message B3.origClOrdId event.origClOrdId
  let message := setField message B3.cxlRejReason (B3.normalizeRejectReason event.rejectReason)
  let message := setField message B3.transactTime event.transactTime
  if event.text ≠ [] then setField message B3.text event.text else message

end Encode

/-- `errors::unsupported_message`. -/
def unsupportedMessage {α : Type} (messageType : Bytes) : Result α :=
  .error ⟨ErrorCode.unsupportedMessage.value, ascii "unsupported FIX message type " ++ messageType⟩

namespace Initiator

def encode (request : Morfix.Request) : Result Message :=
  match request with
  | .newOrderSingle request => .ok (encodeNewOrderSingle request)
  | .orderCancelReplaceRequest request => .ok (encodeOrderCancelReplaceRequest request)
  | .orderCancelRequest request => .ok (encodeOrderCancelRequest request)

def decode (message : Message) : Result Morfix.Event :=
  if message.msgType = executionReportMsgType then do
    let event ← decodeExecutionReport message
    return .executionReport event
  else if message.msgType = orderCancelRejectMsgType then do
    let event ← decodeOrderCancelReject message
    return .orderCancelReject event
  else unsupportedMessage message.msgType

end Initiator

namespace Acceptor

def encode (event : Morfix.Event) : Result Message :=
  match event with
  | .executionReport event => .ok (encodeExecutionReport event)
  | .orderCancelReject event => .ok (encodeOrderCancelReject event)

def decode (message : Message) : Result Morfix.Request :=
  if message.msgType = newOrderSingleMsgType then do
    let request ← decodeNewOrderSingle message
    return .newOrderSingle request
  else if message.msgType = orderCancelReplaceRequestMsgType then do
    let request ← decodeOrderCancelReplaceRequest message
    return .orderCancelReplaceRequest request
  else if message.msgType = orderCancelRequestMsgType then do
    let request ← decodeOrderCancelRequest message
    return .orderCancelRequest request
  else unsupportedMessage message.msgType

end Acceptor

end DemoExchange.MorfixQuickfix
