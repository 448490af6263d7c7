import DemoExchange.MorfixQuickfix.Codecs

/-!
# Reading the fields of an encoded message

What `get_required` and `get_optional` return on a message whose fields were
set one by one: the last value that was set under the tag.
-/

namespace DemoExchange.MorfixQuickfix
set_option autoImplicit false
open Text Lab OrderEntry QuickfixFix Ospec

section Printed

@[simp] theorem asFieldValue_word (value : UInt64) : asFieldValue value ≠ [] := decimal_ne_nil _

@[simp] theorem asFieldValue_code (value : UInt16) : asFieldValue value ≠ [] := decimal_ne_nil _

@[simp] theorem asFieldValue_char (value : UInt8) : asFieldValue value ≠ [] := List.cons_ne_nil _ _

end Printed

section Get

variable {α β : Type} [FieldValue α] [FieldValue β] {message : Message} {field other : B3.FieldSpec} {value : α} {optional : Option α}

/-- A field with another tag. -/
theorem getRequired_setField_of_ne (apart : field.number ≠ other.number) :
    getRequired β (setField message field value) other = getRequired β message other := by
  rw [getRequired, getRequired, getRequiredView, getRequiredView, setField, Message.get_set_of_ne apart]

theorem getOptional_setField_of_ne (apart : field.number ≠ other.number) :
    getOptional β (setField message field value) other = getOptional β message other := by
  rw [getOptional, getOptional, getRequired_setField_of_ne apart, setField, Message.get_set_of_ne apart]

theorem getRequired_setOptionalField_of_ne (apart : field.number ≠ other.number) :
    getRequired β (setOptionalField message field optional) other = getRequired β message other := by
  cases optional with
  | none => rfl
  | some value => exact getRequired_setField_of_ne apart

theorem getOptional_setOptionalField_of_ne (apart : field.number ≠ other.number) :
    getOptional β (setOptionalField message field optional) other = getOptional β message other := by
  cases optional with
  | none => rfl
  | some value => exact getOptional_setField_of_ne apart

/-- **A field that was set** is read as it was. -/
theorem getRequired_setField_self (some : asFieldValue value ≠ []) :
    getRequired α (setField message field value) field = .ok value := by
  rw [getRequired, getRequiredView, setField, Message.get_set_self]
  simp only [some, if_false, Result.ok_bind, FieldValue.parse_as]

theorem getOptional_setField_self (some : asFieldValue value ≠ []) :
    getOptional α (setField message field value) field = .ok (Option.some value) := by
  rw [getOptional, getRequired_setField_self some, setField, Message.get_set_self]
  rfl

@[simp] theorem getOptional_new (msgType : Bytes) : getOptional α (.new msgType) field = .ok none := rfl

/-- **A field that was set if present** is read as it was. -/
theorem getOptional_setOptionalField_self (absent : getOptional α message field = .ok none)
    (some : ∀ value, optional = Option.some value → asFieldValue value ≠ []) :
    getOptional α (setOptionalField message field optional) field = .ok optional := by
  cases optional with
  | none => exact absent
  | some value => exact getOptional_setField_self (some value rfl)

end Get

section Optional

/-- A text is set unless it is empty. -/
theorem setField_text (message : Message) (text : Bytes) :
    (if text ≠ [] then setField message B3.text text else message) =
      setOptionalField message B3.text (if text = [] then none else some text) := by
  by_cases empty : text = [] <;> simp [empty, setOptionalField]

end Optional

section Types

theorem msgType_setField {α : Type} [FieldValue α] {message : Message} {field : B3.FieldSpec} {value : α} :
    (setField message field value).msgType = message.msgType := rfl

theorem msgType_setOptionalField {α : Type} [FieldValue α] {message : Message} {field : B3.FieldSpec} {optional : Option α} :
    (setOptionalField message field optional).msgType = message.msgType := by
  cases optional <;> rfl

theorem msgType_newOrderSingle (request : Morfix.NewOrderSingle) :
    (encodeNewOrderSingle request).msgType = newOrderSingleMsgType := rfl

theorem msgType_orderCancelReplaceRequest (request : Morfix.OrderCancelReplaceRequest) :
    (encodeOrderCancelReplaceRequest request).msgType = orderCancelReplaceRequestMsgType := rfl

theorem msgType_orderCancelRequest (request : Morfix.OrderCancelRequest) :
    (encodeOrderCancelRequest request).msgType = orderCancelRequestMsgType := rfl

theorem msgType_orderCancelReject (event : Morfix.OrderCancelReject) :
    (encodeOrderCancelReject event).msgType = orderCancelRejectMsgType := by
  rw [encodeOrderCancelReject, setField_text, msgType_setOptionalField]
  rfl

theorem msgType_executionReport (event : Morfix.ExecutionReport) :
    (encodeExecutionReport event).msgType = executionReportMsgType := by
  simp only [encodeExecutionReport, setField_text, msgType_setOptionalField, msgType_setField, Message.msgType_new]

end Types

section Records

theorem decode_encodeNewOrderSingle {request : Morfix.NewOrderSingle} (symbol : asFieldValue request.symbol ≠ [])
    (securityExchange : asFieldValue request.securityExchange ≠ []) :
    decodeNewOrderSingle (encodeNewOrderSingle request) = .ok request := by
  simp (disch := first | assumption | decide | simp) only [decodeNewOrderSingle, encodeNewOrderSingle, getRequired_setField_of_ne,
    getRequired_setField_self, Result.ok_bind, B3.parseSide_normalize, B3.parseOrdType_normalize, B3.parseTimeInForce_normalize]
  rfl

theorem decode_encodeOrderCancelReplaceRequest {request : Morfix.OrderCancelReplaceRequest} (symbol : asFieldValue request.symbol ≠ [])
    (securityExchange : asFieldValue request.securityExchange ≠ []) :
    decodeOrderCancelReplaceRequest (encodeOrderCancelReplaceRequest request) = .ok request := by
  simp (disch := first | assumption | decide | simp) only [decodeOrderCancelReplaceRequest, decodeNewOrderSingle,
    encodeOrderCancelReplaceRequest, getRequired_setField_of_ne, getRequired_setField_self, Result.ok_bind, B3.parseSide_normalize,
    B3.parseOrdType_normalize, B3.parseTimeInForce_normalize, pure, Except.pure]

theorem decode_encodeOrderCancelRequest (request : Morfix.OrderCancelRequest) :
    decodeOrderCancelRequest (encodeOrderCancelRequest request) = .ok request := by
  simp (disch := first | decide | simp) only [decodeOrderCancelRequest, encodeOrderCancelRequest, getRequired_setField_of_ne,
    getRequired_setField_self, Result.ok_bind]
  rfl

/-- A text that is not empty prints as something, and an empty one is read where there is none. -/
theorem text_some (text : Bytes) : ∀ value, (if text = [] then none else some text) = some value → asFieldValue value ≠ [] := by
  intro value set
  split at set
  · cases set
  · rename_i some
    cases set
    exact some

@[simp] theorem text_getD (text : Bytes) : (if text = [] then none else some text).getD [] = text := by
  split
  · rename_i empty
    exact empty.symm
  · rfl

theorem decode_encodeOrderCancelReject (event : Morfix.OrderCancelReject) :
    decodeOrderCancelReject (encodeOrderCancelReject event) =
      .ok { event with rejectReason := B3.readBack event.rejectReason } := by
  have text := text_some event.text
  simp (disch := first | assumption | decide | simp (disch := decide) [getOptional_setField_of_ne]) only [decodeOrderCancelReject,
    encodeOrderCancelReject, setField_text, getRequired_setField_of_ne, getRequired_setField_self, getRequired_setOptionalField_of_ne,
    getOptional_setOptionalField_self, Result.ok_bind, B3.parseRejectReason_normalize, text_getD]
  rfl

theorem decode_encodeExecutionReport {event : Morfix.ExecutionReport} (symbol : asFieldValue event.symbol ≠ [])
    (securityExchange : asFieldValue event.securityExchange ≠ []) :
    decodeExecutionReport (encodeExecutionReport event) =
      .ok { event with rejectReason := event.rejectReason.map B3.readBack } := by
  have text := text_some event.text
  simp (disch := first | assumption | decide | simp (disch := decide) [getOptional_setField_of_ne, getOptional_setOptionalField_of_ne])
    only [decodeExecutionReport, encodeExecutionReport, setField_text, getRequired_setField_of_ne,
    getRequired_setField_self, getRequired_setOptionalField_of_ne, getOptional_setField_of_ne, getOptional_setOptionalField_of_ne,
    getOptional_setOptionalField_self, Result.ok_bind, B3.parseSide_normalize, B3.parseOrdType_normalize, B3.parseTimeInForce_normalize,
    B3.parseExecType_normalize, B3.parseOrdStatus_normalize, text_getD]
  cases event.rejectReason with
  | none => rfl
  | some reason =>
    simp only [Option.map_some, B3.parseRejectReason_normalize, Result.ok_bind]
    rfl

end Records

end DemoExchange.MorfixQuickfix
