import DemoExchange.Lib.JsonRecord
import DemoExchange.MarketData.Publisher
import DemoExchange.Properties.Json

/-!
# What the records on stdout say

A record is one line, and the line says which message it is of: the text of any
messages is that of no others.
-/

namespace DemoExchange.Properties
set_option autoImplicit false
open Text Lab Json MarketData.JsonEncoder

/-- What the JSON library documents about records: they are dumped on one line,
in braces, and parsed as they were dumped. -/
structure Lined (lib : Nlohmann) : Prop where
  parses : ∀ document, Record document → lib.parse (lib.dump document) = .ok document
  one_line : ∀ document, Record document → MarketData.newline ∉ lib.dump document
  braced : ∀ document, Record document → ∃ rest, lib.dump document = opening :: rest

section Messages

/-- A text that is there is valid UTF-8. -/
def Utf8 {n : Nat} (text : FixedString n) : Prop := ValidUtf8 text.content

/-- The texts of a message are valid UTF-8. -/
def Utf8Message : MarketData.Message → Prop
  | .securityDefinition msg =>
    Utf8 msg.symbol ∧ Utf8 msg.securityExchange ∧ Utf8 msg.securityGroup ∧ Utf8 msg.securityType ∧
      (∀ subtype, msg.securitySubtype = some subtype → Utf8 subtype) ∧ Utf8 msg.currency
  | .securityStatus msg => Utf8 msg.securityExchange ∧ Utf8 msg.tradingSessionId
  | .executionSummary _ => True
  | .trade msg => Utf8 msg.tradeDate
  | .mboBookUpdate _ => True

theorem field_word (value : UInt64) : Nullable (toJson value) := .scalar (.numberUnsigned value)

theorem field_text {n : Nat} {text : FixedString n} (valid : Utf8 text) : Nullable (toJson text) := .scalar (.string valid)

theorem field_ascii {s : String} (plain : isAscii s = true) : Nullable (toJson (ascii s)) := .scalar (.string (validUtf8_ascii plain))

theorem field_optional {α : Type} [JsonValue α] {value : Option α} (field : ∀ a, value = some a → Nullable (toJson a)) :
    Nullable (optionalToJson value) := by
  cases value with
  | none => exact .null
  | some a => exact field a rfl

theorem field_words (value : Option UInt64) : Nullable (optionalToJson value) := field_optional fun a _ => field_word a

theorem field_side (side : MarketData.Side) : Nullable (toJson (encodeSide side)) := by
  cases side <;> exact field_ascii (by decide)

/-- The names of the fields of a message. -/
def recordKeys : MarketData.Message → List String
  | .securityDefinition _ =>
    ["message_type", "security_id", "symbol", "security_exchange", "security_group", "security_type", "security_subtype",
      "min_price_increment", "round_lot", "currency"]
  | .securityStatus _ =>
    ["message_type", "security_id", "security_exchange", "trading_session_id", "security_trading_status", "security_trading_event",
      "transact_time"]
  | .executionSummary _ =>
    ["message_type", "security_id", "aggressor_side", "last_px", "fill_qty", "traded_hidden_qty", "cancel_qty", "aggressor_time",
      "transact_time"]
  | .trade _ =>
    ["message_type", "security_id", "trade_id", "price", "quantity", "buyer", "seller", "trade_condition", "trade_sub_type",
      "trade_date", "transact_time"]
  | .mboBookUpdate _ =>
    ["message_type", "security_id", "update_action", "side", "resting_order_id", "price", "quantity", "previous_quantity",
      "transact_time"]

theorem recordKeys_payload (message : MarketData.Message) :
    (payload message).map Prod.fst = (recordKeys message).map ascii := by
  cases message <;> rfl

theorem record_once (message : MarketData.Message) : ((payload message).map Prod.fst).Nodup := by
  rw [recordKeys_payload]
  cases message <;> simp only [recordKeys] <;> decide

theorem recordKeys_ascii (message : MarketData.Message) : (recordKeys message).all isAscii = true := by
  cases message <;> rfl

theorem record_fields {message : MarketData.Message} (valid : Utf8Message message) : ∀ x ∈ payload message, Nullable x.2 := by
  cases message with
  | securityDefinition msg =>
    obtain ⟨symbol, securityExchange, securityGroup, securityType, securitySubtype, currency⟩ := valid
    simp only [payload, payloadSecurityDefinition, List.forall_mem_cons]
    exact ⟨field_ascii (by decide), field_word _, field_text symbol, field_text securityExchange, field_text securityGroup,
      field_text securityType, field_optional fun a same => field_text (securitySubtype a same), field_word _, field_word _,
      field_text currency, List.forall_mem_nil _⟩
  | securityStatus msg =>
    obtain ⟨securityExchange, tradingSessionId⟩ := valid
    simp only [payload, payloadSecurityStatus, List.forall_mem_cons]
    refine ⟨field_ascii (by decide), field_word _, field_text securityExchange, field_text tradingSessionId, ?_, ?_, field_word _,
      List.forall_mem_nil _⟩
    · cases msg.securityTradingStatus <;> exact field_ascii (by decide)
    · cases msg.securityTradingEvent <;> exact field_ascii (by decide)
  | executionSummary msg =>
    simp only [payload, payloadExecutionSummary, List.forall_mem_cons]
    exact ⟨field_ascii (by decide), field_word _, field_side _, field_word _, field_word _, field_words _, field_words _, field_word _,
      field_word _, List.forall_mem_nil _⟩
  | trade msg =>
    simp only [payload, payloadTrade, List.forall_mem_cons]
    refine ⟨field_ascii (by decide), field_word _, field_word _, field_word _, field_word _, field_words _, field_words _, ?_, ?_,
      field_text valid, field_word _, List.forall_mem_nil _⟩
    · exact field_ascii (by decide)
    · refine field_optional fun a same => ?_
      obtain ⟨subType, -, rfl⟩ := Option.map_eq_some_iff.1 same
      exact field_ascii (by decide)
  | mboBookUpdate msg =>
    simp only [payload, payloadMboBookUpdate, List.forall_mem_cons]
    refine ⟨field_ascii (by decide), field_word _, ?_, field_side _, field_word _, field_words _, field_words _, field_words _,
      field_word _, List.forall_mem_nil _⟩
    cases msg.updateAction <;> exact field_ascii (by decide)

/-- What is dumped is a record. -/
theorem record_payload {message : MarketData.Message} (valid : Utf8Message message) : Record (object (payload message)) := by
  refine record_object (record_once message) (fun x member => ?_) (record_fields valid)
  have key : x.1 ∈ (recordKeys message).map ascii := recordKeys_payload message ▸ List.mem_map_of_mem member
  obtain ⟨name, known, same⟩ := List.mem_map.1 key
  exact same ▸ validUtf8_ascii (List.all_eq_true.1 (recordKeys_ascii message) name known)

end Messages

section Determined

/-- The `message_type` of a message. -/
def recordType : MarketData.Message → Bytes
  | .securityDefinition _ => ascii "security_definition"
  | .securityStatus _ => ascii "security_status"
  | .executionSummary _ => ascii "execution_summary"
  | .trade _ => ascii "trade"
  | .mboBookUpdate _ => ascii "mbo_book_update"

theorem recordType_found (message : MarketData.Message) :
    (object (payload message)).find? (ascii "message_type") = some (.string (recordType message)) :=
  find_object (record_once message) (by cases message <;> exact List.mem_cons_self)

/-- The values of a record, read back under its names. -/
theorem record_values (message : MarketData.Message) :
    ((recordKeys message).map ascii).map (object (payload message)).find? = (payload message).map fun x => some x.2 := by
  rw [← recordKeys_payload, List.map_map]
  exact List.map_congr_left fun x member => find_object (record_once message) member

@[simp] theorem toJson_word {a b : UInt64} : (toJson a : Value) = toJson b ↔ a = b := by
  change Value.numberUnsigned a = Value.numberUnsigned b ↔ a = b
  rw [Value.numberUnsigned.injEq]

@[simp] theorem toJson_bytes {a b : Bytes} : (toJson a : Value) = toJson b ↔ a = b := by
  change Value.string a = Value.string b ↔ a = b
  rw [Value.string.injEq]

@[simp] theorem toJson_text {n : Nat} {a b : FixedString n} : (toJson a : Value) = toJson b ↔ a = b := by
  change Value.string a.content = Value.string b.content ↔ a = b
  rw [Value.string.injEq, FixedString.mk.injEq]

/-- A value that is there is not null. -/
theorem optionalToJson_inj {α : Type} [JsonValue α] (inj : ∀ a b : α, (toJson a : Value) = toJson b ↔ a = b)
    (null : ∀ a : α, (toJson a : Value) ≠ .null) {a b : Option α} : optionalToJson a = optionalToJson b ↔ a = b := by
  cases a with
  | none =>
    cases b with
    | none => exact iff_of_true rfl rfl
    | some b => exact iff_of_false (fun same => null b same.symm) (by simp)
  | some a =>
    cases b with
    | none => exact iff_of_false (null a) (by simp)
    | some b => rw [optionalToJson, optionalToJson, inj, Option.some.injEq]

@[simp] theorem optionalToJson_word {a b : Option UInt64} : optionalToJson a = optionalToJson b ↔ a = b :=
  optionalToJson_inj (fun _ _ => toJson_word) fun _ same => by cases same

@[simp] theorem optionalToJson_text {n : Nat} {a b : Option (FixedString n)} : optionalToJson a = optionalToJson b ↔ a = b :=
  optionalToJson_inj (fun _ _ => toJson_text) fun _ same => by cases same

@[simp] theorem optionalToJson_bytes {a b : Option Bytes} : optionalToJson a = optionalToJson b ↔ a = b :=
  optionalToJson_inj (fun _ _ => toJson_bytes) fun _ same => by cases same

@[simp] theorem encodeSide_inj {a b : MarketData.Side} : encodeSide a = encodeSide b ↔ a = b := by
  cases a <;> cases b <;> decide

@[simp] theorem encodeUpdateAction_inj {a b : MarketData.UpdateAction} : encodeUpdateAction a = encodeUpdateAction b ↔ a = b := by
  cases a <;> cases b <;> decide

@[simp] theorem encodeSecurityTradingStatus_inj {a b : MarketData.SecurityTradingStatus} :
    encodeSecurityTradingStatus a = encodeSecurityTradingStatus b ↔ a = b := by
  cases a <;> cases b <;> decide

@[simp] theorem encodeSecurityTradingEvent_inj {a b : MarketData.SecurityTradingEvent} :
    encodeSecurityTradingEvent a = encodeSecurityTradingEvent b ↔ a = b := by
  cases a <;> cases b <;> decide

@[simp] theorem encodeTradeSubType_inj {a b : Option MarketData.TradeSubType} :
    a.map encodeTradeSubType = b.map encodeTradeSubType ↔ a = b := by
  rcases a with - | ⟨⟨⟩⟩ <;> rcases b with - | ⟨⟨⟩⟩ <;> decide

/-- The values of a message, in the order of its fields. -/
def valuesOf (message : MarketData.Message) : List Value := (payload message).map Prod.snd

theorem securityDefinition_of_values {msg msg' : MarketData.SecurityDefinition}
    (same : valuesOf (.securityDefinition msg) = valuesOf (.securityDefinition msg')) : msg = msg' := by
  cases msg
  cases msg'
  simp only [valuesOf, payload, payloadSecurityDefinition, List.map_cons, List.map_nil, List.cons.injEq, toJson_word, toJson_text,
    optionalToJson_text, true_and, and_true] at same
  obtain ⟨rfl, rfl, rfl, rfl, rfl, rfl, rfl, rfl, rfl⟩ := same
  rfl

theorem securityStatus_of_values {msg msg' : MarketData.SecurityStatus}
    (same : valuesOf (.securityStatus msg) = valuesOf (.securityStatus msg')) : msg = msg' := by
  cases msg
  cases msg'
  simp only [valuesOf, payload, payloadSecurityStatus, List.map_cons, List.map_nil, List.cons.injEq, toJson_word, toJson_text,
    toJson_bytes, encodeSecurityTradingStatus_inj, encodeSecurityTradingEvent_inj, true_and, and_true] at same
  obtain ⟨rfl, rfl, rfl, rfl, rfl, rfl⟩ := same
  rfl

theorem executionSummary_of_values {msg msg' : MarketData.ExecutionSummary}
    (same : valuesOf (.executionSummary msg) = valuesOf (.executionSummary msg')) : msg = msg' := by
  cases msg
  cases msg'
  simp only [valuesOf, payload, payloadExecutionSummary, List.map_cons, List.map_nil, List.cons.injEq, toJson_word, toJson_bytes,
    optionalToJson_word, encodeSide_inj, true_and, and_true] at same
  obtain ⟨rfl, rfl, rfl, rfl, rfl, rfl, rfl, rfl⟩ := same
  rfl

theorem trade_of_values {msg msg' : MarketData.Trade} (same : valuesOf (.trade msg) = valuesOf (.trade msg')) : msg = msg' := by
  cases msg
  cases msg'
  simp only [valuesOf, payload, payloadTrade, List.map_cons, List.map_nil, List.cons.injEq, toJson_word, toJson_text,
    optionalToJson_word, optionalToJson_bytes, encodeTradeSubType_inj, true_and, and_true] at same
  obtain ⟨rfl, rfl, rfl, rfl, rfl, rfl, rfl, rfl, rfl, rfl⟩ := same
  rfl

theorem mboBookUpdate_of_values {msg msg' : MarketData.MboBookUpdate}
    (same : valuesOf (.mboBookUpdate msg) = valuesOf (.mboBookUpdate msg')) : msg = msg' := by
  cases msg
  cases msg'
  simp only [valuesOf, payload, payloadMboBookUpdate, List.map_cons, List.map_nil, List.cons.injEq, toJson_word, toJson_bytes,
    optionalToJson_word, encodeSide_inj, encodeUpdateAction_inj, true_and, and_true] at same
  obtain ⟨rfl, rfl, rfl, rfl, rfl, rfl, rfl, rfl⟩ := same
  rfl

/-- The record of one type of message is that of no other. -/
theorem recordKeys_of_type {message message' : MarketData.Message} (same : recordType message = recordType message') :
    recordKeys message = recordKeys message' := by
  cases message <;> cases message' <;> first | rfl | exact absurd same (by simp only [recordType]; decide)

/-- **A record says which message it is of.** -/
theorem payload_inj {message message' : MarketData.Message} (same : object (payload message) = object (payload message')) :
    message = message' := by
  have types : recordType message = recordType message' := by
    have found := recordType_found message
    rw [same, recordType_found] at found
    exact (Value.string.inj (Option.some.inj found)).symm
  have values : valuesOf message = valuesOf message' := by
    have read := record_values message
    rw [recordKeys_of_type types, same, record_values, ← Function.comp_def some Prod.snd, ← List.map_map, ← List.map_map] at read
    exact (List.map_injective_iff.2 (Option.some_injective _) read).symm
  cases message with
  | securityDefinition msg =>
    cases message' with
    | securityDefinition msg' => rw [securityDefinition_of_values values]
    | _ => exact absurd types (by simp only [recordType]; decide)
  | securityStatus msg =>
    cases message' with
    | securityStatus msg' => rw [securityStatus_of_values values]
    | _ => exact absurd types (by simp only [recordType]; decide)
  | executionSummary msg =>
    cases message' with
    | executionSummary msg' => rw [executionSummary_of_values values]
    | _ => exact absurd types (by simp only [recordType]; decide)
  | trade msg =>
    cases message' with
    | trade msg' => rw [trade_of_values values]
    | _ => exact absurd types (by simp only [recordType]; decide)
  | mboBookUpdate msg =>
    cases message' with
    | mboBookUpdate msg' => rw [mboBookUpdate_of_values values]
    | _ => exact absurd types (by simp only [recordType]; decide)

end Determined

section Witness

/-- A library that prints records compactly. -/
def recorded : Nlohmann := { compact with
  parse text :=
    match readRecord readNullable text with
    | some document => .ok document
    | none => .error (ascii "parse error")
  dump
    | .object members => printRecord printNullable members
    | value => printNullable value }

theorem recorded_lined : Lined recorded where
  parses := by
    rintro _ ⟨sorted, keys, values⟩
    simp only [recorded, readRecord_printed readNullable_printed sorted values]
  one_line := by
    rintro _ ⟨sorted, keys, values⟩
    exact printRecord_one_line fun x member => printNullable_one_line (values x member)
  braced := by
    rintro _ ⟨sorted, keys, values⟩
    rename_i members
    cases members with
    | nil => exact ⟨_, rfl⟩
    | cons member members => exact ⟨_, rfl⟩

end Witness

end DemoExchange.Properties
