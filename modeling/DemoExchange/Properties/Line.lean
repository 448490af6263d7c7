import DemoExchange.MorfixQuickfix.Line
import DemoExchange.Properties.Fix

/-!
# What a FIX line carries

A request or an event whose texts fit between the delimiters goes from one end
of the line to the other. Whatever is read at an end, from any bytes, is such a
record, so it can be sent on and is read again as it was.
-/

namespace DemoExchange.Properties
set_option autoImplicit false
open Text Lab OrderEntry QuickfixFix MorfixQuickfix Ospec

section Reading

variable {α : Type} [FieldValue α] {d : UInt8} {message : Message} {field : B3.FieldSpec} {bytes : Bytes} {n : Nat}

/-- The delimiters of the text codec. -/
def Delimits (d : UInt8) : Prop := d = soh ∨ d = printableDelimiter

theorem Delimits.plain (delimits : Delimits d) : Plain d := by
  rcases delimits with rfl | rfl
  · exact ⟨by decide, by decide⟩
  · exact ⟨by decide, by decide⟩

/-- **A field that was read** is there and is not empty. -/
theorem getRequired_ok {value : α} (read : getRequired α message field = .ok value) :
    ∃ bytes, message.get field.number = some bytes ∧ bytes ≠ [] ∧ parseFieldValue field bytes = .ok value := by
  obtain ⟨bytes, view, parsed⟩ := Result.bind_eq_ok.1 read
  rw [getRequiredView] at view
  cases got : message.get field.number with
  | none =>
    rw [got] at view
    cases view
  | some bytes' =>
    rw [got] at view
    by_cases empty : bytes' = []
    · simp only [empty, if_true] at view
      cases view
    · simp only [empty, if_false, Except.ok.injEq] at view
      exact ⟨bytes', rfl, empty, view ▸ parsed⟩

theorem getOptional_ok {optional : Option α} (read : getOptional α message field = .ok optional) :
    optional = none ∨ ∃ value, optional = some value ∧ getRequired α message field = .ok value := by
  rw [getOptional] at read
  cases got : message.get field.number with
  | none =>
    rw [got] at read
    exact .inl (Except.ok.inj read).symm
  | some bytes =>
    rw [got] at read
    obtain ⟨value, required, same⟩ := Result.bind_eq_ok.1 read
    exact .inr ⟨value, (Except.ok.inj same).symm, required⟩

theorem get_apart (framed : Framed d message) {number : Tag} (got : message.get number = some bytes) : d ∉ bytes := by
  obtain ⟨entry, found, rfl⟩ := Option.map_eq_some_iff.1 got
  exact framed.values entry (List.mem_of_find?_eq_some found)

/-- A text that was read can be sent on. -/
theorem carried_text (framed : Framed d message) {text : FixedString n} (read : getRequired (FixedString n) message field = .ok text) :
    Carried d text.content := by
  obtain ⟨bytes, got, some, parsed⟩ := getRequired_ok read
  have same : FixedString.fromView n bytes = .ok text := parsed
  rw [FixedString.fromView] at same
  split at same
  · cases same
    exact ⟨some, get_apart framed got⟩
  · cases same

theorem apart_text (framed : Framed d message) {text : Option Bytes} (read : getOptional Bytes message field = .ok text) :
    d ∉ text.getD [] := by
  rcases getOptional_ok read with rfl | ⟨value, rfl, required⟩
  · exact List.not_mem_nil
  · obtain ⟨bytes, got, -, parsed⟩ := getRequired_ok required
    cases parsed
    exact get_apart framed got

/-- A code that is parsed is in the table. -/
theorem parseValue_ok {β κ : Type} [BEq κ] [LawfulBEq κ] {fieldName : String} {cases : List (κ × β)} {code : κ} {shown : Bytes}
    {parsed : β} (read : B3.parseValue fieldName cases code shown = .ok parsed) : (code, parsed) ∈ cases := by
  rw [B3.parseValue] at read
  cases found : cases.lookup code with
  | none =>
    rw [found] at read
    cases read
  | some value =>
    rw [found] at read
    cases read
    obtain ⟨before, after, rfl, -⟩ := List.lookup_eq_some_iff.1 found
    simp

/-- No code is read as an unknown symbol. -/
theorem readBack_parsed {code : UInt16} {reason : RejectReason} (read : B3.parseRejectReason code = .ok reason) :
    B3.readBack reason = reason := by
  have entry := parseValue_ok read
  rw [B3.readBack_eq_iff]
  rintro rfl
  simp at entry

end Reading

section Requests

variable {d : UInt8} {message : Message} {payload : Bytes} {request : OrderEntry.Request}

theorem carried_newOrderSingle (framed : Framed d message) {order : Morfix.NewOrderSingle}
    (read : decodeNewOrderSingle message = .ok order) :
    Carried d order.symbol.content ∧ Carried d order.securityExchange.content := by
  simp only [decodeNewOrderSingle, Result.bind_eq_ok] at read
  obtain ⟨_, -, _, -, _, -, _, -, _, -, _, -, _, -, _, -, _, -, symbol, readSymbol, exchange, readExchange, _, -, _, -, same⟩ := read
  cases same
  exact ⟨carried_text framed readSymbol, carried_text framed readExchange⟩

/-- **What an acceptor accepts** has texts that a FIX line carries. -/
theorem sendable_accepted {fix : Morfix.Request} (framed : Framed d message) (read : Acceptor.decode message = .ok fix) :
    Sendable d fix.toMor.toOrderEntry := by
  rw [Acceptor.decode] at read
  split at read
  · obtain ⟨order, decoded, same⟩ := Result.bind_eq_ok.1 read
    cases same
    exact carried_newOrderSingle framed decoded
  · split at read
    · obtain ⟨order, decoded, same⟩ := Result.bind_eq_ok.1 read
      cases same
      obtain ⟨terms, ordered, replace⟩ := Result.bind_eq_ok.1 decoded
      obtain ⟨original, -, same⟩ := Result.bind_eq_ok.1 replace
      cases same
      exact carried_newOrderSingle framed ordered
    · split at read
      · obtain ⟨order, -, same⟩ := Result.bind_eq_ok.1 read
        cases same
        trivial
      · cases read

theorem acceptorRequest_ok (read : acceptorRequest d payload = .ok request) : Sendable d request := by
  obtain ⟨message, decoded, read⟩ := Result.bind_eq_ok.1 read
  obtain ⟨fix, accepted, same⟩ := Result.bind_eq_ok.1 read
  cases same
  exact sendable_accepted (framed_of_decode decoded) accepted

/-- A message that frames what an acceptor accepts. -/
theorem acceptorRequest_encode (plain : Plain d) (framed : Framed d message) {fix : Morfix.Request}
    (read : Acceptor.decode message = .ok fix) : acceptorRequest d (QuickfixFix.encode message d) = .ok fix.toMor.toOrderEntry := by
  rw [acceptorRequest, decode_encode plain framed, Result.ok_bind, read]
  rfl

/-- **A sendable request** reaches the other end. -/
theorem Sendable.reaches (delimits : Delimits d) (sendable : Sendable d request) :
    ∃ payload, initiatorPayload d request = some payload ∧ acceptorRequest d payload = .ok request := by
  have plain := delimits.plain
  have apart : d ∉ newOrderSingleMsgType ∧ d ∉ orderCancelReplaceRequestMsgType ∧ d ∉ orderCancelRequestMsgType := by
    rcases delimits with rfl | rfl <;> decide
  cases request with
  | flush => exact sendable.elim
  | newOrderSingle request =>
    obtain ⟨⟨symbol, symbolApart⟩, ⟨exchange, exchangeApart⟩⟩ := sendable
    have framed : Framed d (encodeNewOrderSingle request.toMor.toFix) := framed_newOrderSingle plain apart.1 symbolApart exchangeApart
    exact ⟨_, rfl, acceptorRequest_encode plain framed (acceptor_newOrderSingle symbol exchange)⟩
  | replaceOrder request =>
    obtain ⟨⟨symbol, symbolApart⟩, ⟨exchange, exchangeApart⟩⟩ := sendable
    have framed : Framed d (encodeOrderCancelReplaceRequest request.toMor.toFix) :=
      framed_orderCancelReplaceRequest plain apart.2.1 symbolApart exchangeApart
    exact ⟨_, rfl, acceptorRequest_encode plain framed (acceptor_orderCancelReplaceRequest symbol exchange)⟩
  | cancelOrder request =>
    have framed : Framed d (encodeOrderCancelRequest request.toMor.toFix) := framed_orderCancelRequest plain apart.2.2
    exact ⟨_, rfl, acceptorRequest_encode plain framed (acceptor_orderCancelRequest _)⟩

end Requests

section Events

variable {d : UInt8} {message : Message} {field : B3.FieldSpec} {payload : Bytes}

theorem apart_decimal (plain : Plain d) (n : Nat) : d ∉ decimal n := by
  intro member
  have digit := isDigit_decimal _ d member
  rw [plain.2] at digit
  cases digit

theorem framed_setOptionalField {α : Type} [FieldValue α] (framed : Framed d message) (other : field.number ≠ msgTypeTag)
    {optional : Option α} (apart : ∀ value, optional = some value → d ∉ asFieldValue value) :
    Framed d (setOptionalField message field optional) := by
  cases optional with
  | none => exact framed
  | some value => exact framed_setField framed other (apart value rfl)

/-- A number that is set if present prints as digits. -/
theorem framed_optionalWord (plain : Plain d) (framed : Framed d message) (other : field.number ≠ msgTypeTag) (optional : Option UInt64) :
    Framed d (setOptionalField message field optional) :=
  framed_setOptionalField framed other fun _ _ => apart_decimal plain _

theorem framed_text (framed : Framed d message) {text : Bytes} (apart : d ∉ text) :
    Framed d (setOptionalField message B3.text (if text = [] then none else some text)) := by
  refine framed_setOptionalField framed (by decide) fun value set => ?_
  split at set
  · cases set
  · cases set
    exact apart

theorem apart_execType (delimits : Delimits d) (value : ExecType) : d ∉ asFieldValue (B3.normalizeExecType value) := by
  rcases delimits with rfl | rfl <;> cases value <;> decide

theorem apart_ordStatus (delimits : Delimits d) (value : OrdStatus) : d ∉ asFieldValue (B3.normalizeOrdStatus value) := by
  rcases delimits with rfl | rfl <;> cases value <;> decide

/-- An event that has a FIX message, with texts that its fields can carry. -/
def Tellable (d : UInt8) : Mor.Event → Prop
  | .executionReport event => Carried d event.symbol.content ∧ Carried d event.securityExchange.content ∧ d ∉ event.text
  | .cancelReject event => d ∉ event.text
  | .parserReject _ => False

/-- An event as the other end reads it: the code of an unknown symbol is that of an unknown order. -/
def heard : Mor.Event → Mor.Event
  | .executionReport event => .executionReport { event with rejectReason := event.rejectReason.map B3.readBack }
  | .cancelReject event => .cancelReject { event with rejectReason := B3.readBack event.rejectReason }
  | .parserReject event => .parserReject event

theorem framed_executionReport (delimits : Delimits d) {event : Morfix.ExecutionReport} (symbol : d ∉ event.symbol.content)
    (securityExchange : d ∉ event.securityExchange.content) (text : d ∉ event.text) : Framed d (encodeExecutionReport event) := by
  have plain := delimits.plain
  have msgType : d ∉ executionReportMsgType := by rcases delimits with rfl | rfl <;> decide
  unfold encodeExecutionReport
  dsimp only
  rw [setField_text]
  refine framed_text ?_ text
  refine framed_setOptionalField ?_ (by decide) fun _ _ => apart_decimal plain _
  refine framed_word plain ?_ (by decide) _
  refine framed_optionalWord plain ?_ (by decide) _
  refine framed_optionalWord plain ?_ (by decide) _
  refine framed_optionalWord plain ?_ (by decide) _
  refine framed_word plain ?_ (by decide) _
  refine framed_word plain ?_ (by decide) _
  refine framed_word plain ?_ (by decide) _
  refine framed_setField ?_ (by decide) (apart_ordStatus delimits _)
  refine framed_setField ?_ (by decide) (apart_execType delimits _)
  refine framed_code plain ?_ (by decide) (digit_timeInForce _)
  refine framed_code plain ?_ (by decide) (digit_ordType _)
  refine framed_code plain ?_ (by decide) (digit_side _)
  refine framed_setField ?_ (by decide) securityExchange
  refine framed_setField ?_ (by decide) symbol
  refine framed_word plain ?_ (by decide) _
  refine framed_word plain ?_ (by decide) _
  refine framed_word plain ?_ (by decide) _
  refine framed_optionalWord plain ?_ (by decide) _
  refine framed_word plain ?_ (by decide) _
  refine framed_word plain ?_ (by decide) _
  exact framed_new (by decide) msgType

theorem framed_orderCancelReject (delimits : Delimits d) {event : Morfix.OrderCancelReject} (text : d ∉ event.text) :
    Framed d (encodeOrderCancelReject event) := by
  have plain := delimits.plain
  have msgType : d ∉ orderCancelRejectMsgType := by rcases delimits with rfl | rfl <;> decide
  unfold encodeOrderCancelReject
  dsimp only
  rw [setField_text]
  refine framed_text ?_ text
  refine framed_word plain ?_ (by decide) _
  refine framed_setField ?_ (by decide) (apart_decimal plain _)
  refine framed_word plain ?_ (by decide) _
  refine framed_word plain ?_ (by decide) _
  refine framed_word plain ?_ (by decide) _
  exact framed_new (by decide) msgType

theorem initiatorEvent_encode (plain : Plain d) (framed : Framed d message) {fix : Morfix.Event}
    (read : Initiator.decode message = .ok fix) : initiatorEvent d (QuickfixFix.encode message d) = .ok fix.toMor := by
  rw [initiatorEvent, decode_encode plain framed, Result.ok_bind, read]
  rfl

/-- **A tellable event** reaches the other end as it is heard there. -/
theorem Tellable.reaches (delimits : Delimits d) {event : Mor.Event} (tellable : Tellable d event) :
    ∃ payload, acceptorPayload d event = some payload ∧ initiatorEvent d payload = .ok (heard event) := by
  have plain := delimits.plain
  cases event with
  | parserReject event => exact tellable.elim
  | executionReport event =>
    obtain ⟨⟨symbol, symbolApart⟩, ⟨exchange, exchangeApart⟩, text⟩ := tellable
    have framed : Framed d (encodeExecutionReport event.toFix) := framed_executionReport delimits symbolApart exchangeApart text
    exact ⟨_, rfl, initiatorEvent_encode plain framed (initiator_executionReport symbol exchange)⟩
  | cancelReject event =>
    have framed : Framed d (encodeOrderCancelReject event.toFix) := framed_orderCancelReject delimits tellable
    exact ⟨_, rfl, initiatorEvent_encode plain framed (initiator_orderCancelReject _)⟩

theorem tellable_executionReport (framed : Framed d message) {event : Morfix.ExecutionReport}
    (read : decodeExecutionReport message = .ok event) :
    Tellable d (.executionReport event.toMor) ∧ event.rejectReason.map B3.readBack = event.rejectReason := by
  simp only [decodeExecutionReport, Result.bind_eq_ok] at read
  obtain ⟨_, -, _, -, _, -, _, -, _, -, _, -, _, -, _, -, _, -, _, -, code, -, _, -, _, -, _, -, _, -, _, -, _, -, symbol, readSymbol,
    exchange, readExchange, _, -, _, -, _, -, _, -, _, -, _, -, _, -, text, readText, read⟩ := read
  cases code with
  | none =>
    cases read
    exact ⟨⟨carried_text framed readSymbol, carried_text framed readExchange, apart_text framed readText⟩, rfl⟩
  | some code =>
    obtain ⟨parsed, readParsed, same⟩ := Result.bind_eq_ok.1 read
    cases same
    exact ⟨⟨carried_text framed readSymbol, carried_text framed readExchange, apart_text framed readText⟩,
      congrArg some (readBack_parsed readParsed)⟩

theorem tellable_orderCancelReject (framed : Framed d message) {event : Morfix.OrderCancelReject}
    (read : decodeOrderCancelReject message = .ok event) :
    Tellable d (.cancelReject event.toMor) ∧ B3.readBack event.rejectReason = event.rejectReason := by
  simp only [decodeOrderCancelReject, Result.bind_eq_ok] at read
  obtain ⟨_, -, reason, readReason, _, -, _, -, _, -, text, readText, _, -, same⟩ := read
  cases same
  exact ⟨apart_text framed readText, readBack_parsed readReason⟩

/-- **What an initiator accepts** can be told again, and is heard as it was. -/
theorem initiatorEvent_ok {event : Mor.Event} (read : initiatorEvent d payload = .ok event) : Tellable d event ∧ heard event = event := by
  obtain ⟨message, decoded, read⟩ := Result.bind_eq_ok.1 read
  have framed := framed_of_decode decoded
  obtain ⟨fix, accepted, same⟩ := Result.bind_eq_ok.1 read
  cases same
  rw [Initiator.decode] at accepted
  split at accepted
  · obtain ⟨event, decoded, same⟩ := Result.bind_eq_ok.1 accepted
    cases same
    obtain ⟨tellable, reason⟩ := tellable_executionReport framed decoded
    exact ⟨tellable, congrArg (fun reason => Mor.Event.executionReport { event.toMor with rejectReason := reason }) reason⟩
  · split at accepted
    · obtain ⟨event, decoded, same⟩ := Result.bind_eq_ok.1 accepted
      cases same
      obtain ⟨tellable, reason⟩ := tellable_orderCancelReject framed decoded
      exact ⟨tellable, congrArg (fun reason => Mor.Event.cancelReject { event.toMor with rejectReason := reason }) reason⟩
    · cases accepted

end Events

/-- **What either end reads is a normal form.** Whatever bytes an acceptor reads
as a request, an initiator has a text for that request and the acceptor reads
it again; and so for the events that an initiator reads. -/
theorem line_normal_form {d : UInt8} (delimits : Delimits d) (payload : Bytes) :
    (∀ request, acceptorRequest d payload = .ok request →
      ∃ payload', initiatorPayload d request = some payload' ∧ acceptorRequest d payload' = .ok request) ∧
      ∀ event, initiatorEvent d payload = .ok event →
        ∃ payload', acceptorPayload d event = some payload' ∧ initiatorEvent d payload' = .ok event := by
  refine ⟨fun request read => (acceptorRequest_ok read).reaches delimits, fun event read => ?_⟩
  obtain ⟨tellable, same⟩ := initiatorEvent_ok read
  obtain ⟨payload', told, back⟩ := tellable.reaches delimits
  exact ⟨payload', told, by rw [back, same]⟩

/-- A cancel with an unknown tag, leading zeros, an empty record and a tag that comes twice. -/
def untidyCancel : Bytes := ascii "9999=x|35=F|1=007|11=2||11=3|41=1"

theorem untidyCancel_read : acceptorRequest printableDelimiter untidyCancel = .ok (.cancelOrder ⟨7, 3, 1⟩) := by
  rw [acceptorRequest, QuickfixFix.decode, decodeLoop_records]
  decide +kernel

theorem line_normal_form_untidyCancel :
    ∃ payload, initiatorPayload printableDelimiter (.cancelOrder ⟨7, 3, 1⟩) = some payload ∧
      acceptorRequest printableDelimiter payload = .ok (.cancelOrder ⟨7, 3, 1⟩) :=
  (line_normal_form (.inr rfl) untidyCancel).1 _ untidyCancel_read

end DemoExchange.Properties
