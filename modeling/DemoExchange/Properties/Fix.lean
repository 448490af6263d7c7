import DemoExchange.MorfixQuickfix.Fields
import DemoExchange.Properties.Agreement
import DemoExchange.QuickfixFix.Framing

/-!
# Order routing over FIX

A request goes from the order-entry model down to text and comes back; an
event comes back from its FIX message but for the one reject reason that shares
its code with another.
-/

namespace DemoExchange.Properties
set_option autoImplicit false
open Text Lab OrderEntry QuickfixFix MorfixQuickfix Ospec

section Requests

variable {d : UInt8} {message : Message} {field : B3.FieldSpec}

theorem framed_new {msgType : Bytes} (typed : msgType ≠ []) (apart : d ∉ msgType) : Framed d (.new msgType) :=
  ⟨typed, by simp [Message.new], apart, by simp [Message.new]⟩

theorem framed_setField {α : Type} [FieldValue α] (framed : Framed d message) (other : field.number ≠ msgTypeTag) {value : α}
    (apart : d ∉ asFieldValue value) : Framed d (setField message field value) := by
  refine ⟨framed.typed, fun f member => ?_, framed.msgType, fun f member => ?_⟩
  · rcases Keyed.mem_put member with rfl | member
    · exact other
    · exact framed.untagged f member
  · rcases Keyed.mem_put member with rfl | member
    · exact apart
    · exact framed.values f member

/-- A number prints as digits. -/
theorem framed_word (plain : Plain d) (framed : Framed d message) (other : field.number ≠ msgTypeTag) (value : UInt64) :
    Framed d (setField message field value) := by
  refine framed_setField framed other fun member => ?_
  have digit := isDigit_decimal _ d member
  rw [plain.2] at digit
  cases digit

/-- So does the code of an enumeration that an order has. -/
theorem framed_code (plain : Plain d) (framed : Framed d message) (other : field.number ≠ msgTypeTag) {value : UInt8}
    (digit : isDigit value = true) : Framed d (setField message field value) := by
  refine framed_setField framed other fun member => ?_
  rw [← List.mem_singleton.1 member, plain.2] at digit
  cases digit

theorem digit_side (value : Side) : isDigit (B3.normalizeSide value) = true := by cases value <;> decide

theorem digit_ordType (value : OrdType) : isDigit (B3.normalizeOrdType value) = true := by cases value <;> decide

theorem digit_timeInForce (value : TimeInForce) : isDigit (B3.normalizeTimeInForce value) = true := by cases value <;> decide

theorem framed_newOrderSingle {request : Morfix.NewOrderSingle} (plain : Plain d) (msgType : d ∉ newOrderSingleMsgType)
    (symbol : d ∉ request.symbol.content) (securityExchange : d ∉ request.securityExchange.content) :
    Framed d (encodeNewOrderSingle request) := by
  unfold encodeNewOrderSingle
  apply framed_word plain _ (by decide)
  apply framed_word plain _ (by decide)
  apply framed_code plain _ (by decide) (digit_timeInForce _)
  apply framed_code plain _ (by decide) (digit_ordType _)
  apply framed_code plain _ (by decide) (digit_side _)
  apply framed_setField _ (by decide) securityExchange
  apply framed_setField _ (by decide) symbol
  apply framed_word plain _ (by decide)
  apply framed_word plain _ (by decide)
  apply framed_word plain _ (by decide)
  exact framed_new (by decide) msgType

theorem framed_orderCancelReplaceRequest {request : Morfix.OrderCancelReplaceRequest} (plain : Plain d)
    (msgType : d ∉ orderCancelReplaceRequestMsgType) (symbol : d ∉ request.symbol.content)
    (securityExchange : d ∉ request.securityExchange.content) : Framed d (encodeOrderCancelReplaceRequest request) := by
  unfold encodeOrderCancelReplaceRequest
  apply framed_word plain _ (by decide)
  apply framed_word plain _ (by decide)
  apply framed_code plain _ (by decide) (digit_timeInForce _)
  apply framed_code plain _ (by decide) (digit_ordType _)
  apply framed_code plain _ (by decide) (digit_side _)
  apply framed_setField _ (by decide) securityExchange
  apply framed_setField _ (by decide) symbol
  apply framed_word plain _ (by decide)
  apply framed_word plain _ (by decide)
  apply framed_word plain _ (by decide)
  apply framed_word plain _ (by decide)
  exact framed_new (by decide) msgType

theorem framed_orderCancelRequest {request : Morfix.OrderCancelRequest} (plain : Plain d) (msgType : d ∉ orderCancelRequestMsgType) :
    Framed d (encodeOrderCancelRequest request) := by
  unfold encodeOrderCancelRequest
  apply framed_word plain _ (by decide)
  apply framed_word plain _ (by decide)
  apply framed_word plain _ (by decide)
  exact framed_new (by decide) msgType

/-- A text that a field can carry between delimiters. -/
def Carried (d : UInt8) (text : Bytes) : Prop := text ≠ [] ∧ d ∉ text

/-- A request that has a FIX message, with texts that its fields can carry. -/
def Sendable (d : UInt8) : OrderEntry.Request → Prop
  | .newOrderSingle request => Carried d request.symbol.content ∧ Carried d request.securityExchange.content
  | .replaceOrder request => Carried d request.symbol.content ∧ Carried d request.securityExchange.content
  | .cancelOrder _ => True
  | .flush => False

/-- The acceptor reads what the initiator wrote. -/
theorem acceptor_newOrderSingle {request : Morfix.NewOrderSingle} (symbol : request.symbol.content ≠ [])
    (securityExchange : request.securityExchange.content ≠ []) :
    Acceptor.decode (encodeNewOrderSingle request) = .ok (.newOrderSingle request) := by
  rw [Acceptor.decode, msgType_newOrderSingle, if_pos rfl, decode_encodeNewOrderSingle symbol securityExchange]
  rfl

theorem acceptor_orderCancelReplaceRequest {request : Morfix.OrderCancelReplaceRequest} (symbol : request.symbol.content ≠ [])
    (securityExchange : request.securityExchange.content ≠ []) :
    Acceptor.decode (encodeOrderCancelReplaceRequest request) = .ok (.orderCancelReplaceRequest request) := by
  rw [Acceptor.decode, msgType_orderCancelReplaceRequest, if_neg (by decide), if_pos rfl,
    decode_encodeOrderCancelReplaceRequest symbol securityExchange]
  rfl

theorem acceptor_orderCancelRequest (request : Morfix.OrderCancelRequest) :
    Acceptor.decode (encodeOrderCancelRequest request) = .ok (.orderCancelRequest request) := by
  rw [Acceptor.decode, msgType_orderCancelRequest, if_neg (by decide), if_neg (by decide), if_pos rfl, decode_encodeOrderCancelRequest]
  rfl

/-- **A request goes down to text and back**: every step succeeds, and what
comes out is the request. -/
theorem request_round_trip (d : UInt8) (delimiter : d = soh ∨ d = printableDelimiter) (request : OrderEntry.Request)
    (sendable : Sendable d request) :
    ∃ fix message, request.toMor.toFix = some fix ∧ Initiator.encode fix = .ok message ∧
      ∃ message' fix', QuickfixFix.decode (QuickfixFix.encode message d) d = .ok message' ∧ Acceptor.decode message' = .ok fix' ∧
        fix'.toMor.toOrderEntry = request := by
  have plain : Plain d := by
    rcases delimiter with rfl | rfl
    · exact ⟨by decide, by decide⟩
    · exact ⟨by decide, by decide⟩
  have apart : d ∉ newOrderSingleMsgType ∧ d ∉ orderCancelReplaceRequestMsgType ∧ d ∉ orderCancelRequestMsgType := by
    rcases delimiter with rfl | rfl <;> decide
  cases request with
  | flush => exact sendable.elim
  | newOrderSingle request =>
    obtain ⟨⟨symbol, symbolApart⟩, ⟨exchange, exchangeApart⟩⟩ := sendable
    refine ⟨.newOrderSingle request.toMor.toFix, _, rfl, rfl, _, _, decode_encode plain ?_, acceptor_newOrderSingle symbol exchange, rfl⟩
    exact framed_newOrderSingle plain apart.1 symbolApart exchangeApart
  | replaceOrder request =>
    obtain ⟨⟨symbol, symbolApart⟩, ⟨exchange, exchangeApart⟩⟩ := sendable
    refine ⟨.orderCancelReplaceRequest request.toMor.toFix, _, rfl, rfl, _, _, decode_encode plain ?_,
      acceptor_orderCancelReplaceRequest symbol exchange, rfl⟩
    exact framed_orderCancelReplaceRequest plain apart.2.1 symbolApart exchangeApart
  | cancelOrder request =>
    refine ⟨.orderCancelRequest request.toMor.toFix, _, rfl, rfl, _, _, decode_encode plain ?_, acceptor_orderCancelRequest _, rfl⟩
    exact framed_orderCancelRequest plain apart.2.2

/-- A request to replace Alice's order 1. -/
theorem request_round_trip_replacement :
    ∃ fix message, (OrderEntry.Request.replaceOrder (makeReplaceOrder alice 2 1 aapl 10)).toMor.toFix = some fix ∧
      Initiator.encode fix = .ok message ∧
      ∃ message' fix', QuickfixFix.decode (QuickfixFix.encode message soh) soh = .ok message' ∧ Acceptor.decode message' = .ok fix' ∧
        fix'.toMor.toOrderEntry = .replaceOrder (makeReplaceOrder alice 2 1 aapl 10) := by
  refine request_round_trip soh (.inl rfl) _ ⟨?_, ?_⟩
  · exact ⟨by decide, by decide⟩
  · exact ⟨by decide, by decide⟩

end Requests

section Events

/-- The symbol and the exchange of an execution report are not empty. -/
def Named : Morfix.Event → Prop
  | .executionReport event => event.symbol.content ≠ [] ∧ event.securityExchange.content ≠ []
  | .orderCancelReject _ => True

def rejectReason : Morfix.Event → Option RejectReason
  | .executionReport event => event.rejectReason
  | .orderCancelReject event => some event.rejectReason

/-- The initiator reads what the acceptor wrote, but for the reject reason. -/
theorem initiator_executionReport {event : Morfix.ExecutionReport} (symbol : event.symbol.content ≠ [])
    (securityExchange : event.securityExchange.content ≠ []) :
    Initiator.decode (encodeExecutionReport event) =
      .ok (.executionReport { event with rejectReason := event.rejectReason.map B3.readBack }) := by
  rw [Initiator.decode, msgType_executionReport, if_pos rfl, decode_encodeExecutionReport symbol securityExchange]
  rfl

theorem initiator_orderCancelReject (event : Morfix.OrderCancelReject) :
    Initiator.decode (encodeOrderCancelReject event) =
      .ok (.orderCancelReject { event with rejectReason := B3.readBack event.rejectReason }) := by
  rw [Initiator.decode, msgType_orderCancelReject, if_neg (by decide), if_pos rfl, decode_encodeOrderCancelReject]
  rfl

theorem readBack_map_eq_iff {reason : Option RejectReason} : reason.map B3.readBack = reason ↔ reason ≠ some .unknownSymbol := by
  cases reason with
  | none => simp
  | some reason =>
    rw [Option.map_some, Option.some_inj, B3.readBack_eq_iff, ne_eq, ne_eq, Option.some_inj]

/-- **An event comes back from its FIX message** unless its reason is an unknown symbol. -/
theorem event_round_trip_iff (event : Morfix.Event) (named : Named event) :
    (∃ message, Acceptor.encode event = .ok message ∧ Initiator.decode message = .ok event) ↔
      rejectReason event ≠ some .unknownSymbol := by
  cases event with
  | executionReport event =>
    have decoded := initiator_executionReport named.1 named.2
    rw [rejectReason, ← readBack_map_eq_iff]
    constructor
    · rintro ⟨message, encoded, back⟩
      cases encoded
      rw [decoded] at back
      exact congrArg Morfix.ExecutionReport.rejectReason (Morfix.Event.executionReport.inj (Except.ok.inj back))
    · intro same
      exact ⟨_, rfl, by rw [decoded, same]⟩
  | orderCancelReject event =>
    have decoded := initiator_orderCancelReject event
    rw [rejectReason, ne_eq, Option.some_inj, ← ne_eq, ← B3.readBack_eq_iff]
    constructor
    · rintro ⟨message, encoded, back⟩
      cases encoded
      rw [decoded] at back
      exact congrArg Morfix.OrderCancelReject.rejectReason (Morfix.Event.orderCancelReject.inj (Except.ok.inj back))
    · intro same
      exact ⟨_, rfl, by rw [decoded, same]⟩

/-- What Alice is told when her replacement names a symbol that is not listed. -/
def unlistedReplacement : Morfix.OrderCancelReject := ⟨alice, 2, 1, .unknownSymbol, ascii "unknown symbol", 0⟩

theorem event_round_trip_iff_duplicate :
    ∃ message, Acceptor.encode (.orderCancelReject { unlistedReplacement with rejectReason := .duplicateOrder }) = .ok message ∧
      Initiator.decode message = .ok (.orderCancelReject { unlistedReplacement with rejectReason := .duplicateOrder }) :=
  (event_round_trip_iff (.orderCancelReject { unlistedReplacement with rejectReason := .duplicateOrder }) trivial).2 (by decide)

/-- She reads that the order is unknown. -/
theorem unknownSymbol_reads_unknownOrder :
    ¬∃ message, Acceptor.encode (.orderCancelReject unlistedReplacement) = .ok message ∧
      Initiator.decode message = .ok (.orderCancelReject unlistedReplacement) := by
  rintro ⟨message, encoded, back⟩
  cases encoded
  rw [initiator_orderCancelReject] at back
  have same := congrArg Morfix.OrderCancelReject.rejectReason (Morfix.Event.orderCancelReject.inj (Except.ok.inj back))
  exact absurd same (by decide)

end Events

end DemoExchange.Properties
