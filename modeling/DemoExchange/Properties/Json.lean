import DemoExchange.OrderClient.JsonEncoder
import DemoExchange.OrderEntry.JsonDecoder

/-!
# The order-entry protocol over JSON

What the order client encodes, the gateway decodes: every field of a message
is under its own key, and the decoder asks for the keys the encoder writes.
-/

namespace DemoExchange.Properties
set_option autoImplicit false
open Text Lab OrderEntry Json OrderClient.JsonEncoder OrderEntry.JsonDecoder

section Fields

variable {α : Type} [JsonValue α] {lib : Nlohmann} {document : Value} {fieldName : String} {value : α}

/-- **A field that is there** is read as it was written. -/
theorem getRequired_found (found : document.find? (ascii fieldName) = some (toJson value)) :
    getRequired α lib document fieldName = .ok value := by
  rw [getRequired, Nlohmann.member, found]
  exact JsonValue.from_to lib value

theorem getOptional_found (found : document.find? (ascii fieldName) = some (toJson value)) (fallback : α) :
    getOptional α lib document fieldName fallback = .ok value := by
  rw [getOptional, found]
  exact JsonValue.from_to lib value

theorem contains_found (found : document.find? (ascii fieldName) = some (toJson value)) : contains document fieldName = true := by
  rw [contains, found]
  rfl

@[simp] theorem decodeSide_encode (side : Side) : decodeSide (encodeSide side) = .ok side := by
  cases side <;> rfl

@[simp] theorem decodeOrdType_encode (ordType : OrdType) : decodeOrdType (encodeOrdType ordType) = .ok ordType := by
  cases ordType <;> rfl

@[simp] theorem decodeTimeInForce_encode (timeInForce : TimeInForce) :
    decodeTimeInForce (encodeTimeInForce timeInForce) = .ok timeInForce := by
  cases timeInForce <;> rfl

theorem getOrdType_found {ordType : OrdType} (found : document.find? (ascii "ord_type") = some (toJson (encodeOrdType ordType)))
    (price : Price) : getOrdType lib document price = .ok ordType := by
  rw [getOrdType, if_pos (contains_found found), getRequired_found found]
  exact decodeOrdType_encode ordType

theorem getTimeInForce_found {timeInForce : TimeInForce}
    (found : document.find? (ascii "time_in_force") = some (toJson (encodeTimeInForce timeInForce))) (price : Price) :
    getTimeInForce lib document price = .ok timeInForce := by
  rw [getTimeInForce, if_pos (contains_found found), getRequired_found found]
  exact decodeTimeInForce_encode timeInForce

end Fields

section Messages

variable {lib : Nlohmann} {document : Value}

/-- The document has the members of a payload. -/
def Has (document : Value) (l : Payload) : Prop := ∀ x ∈ l, document.find? x.1 = some x.2

theorem decodeNewOrder_has {order : NewOrderSingle} (has : Has document (payloadNewOrderSingle order)) :
    decodeNewOrder lib document = .ok order := by
  simp only [Has, payloadNewOrderSingle, List.forall_mem_cons] at has
  obtain ⟨-, clientId, clOrdId, securityId, symbol, securityExchange, side, ordType, timeInForce, orderQty, price, -⟩ := has
  simp only [decodeNewOrder, getRequired_found symbol, getRequired_found price, getRequired_found clientId, getRequired_found clOrdId,
    getOptional_found securityId, getOptional_found securityExchange, getRequired_found side, decodeSide_encode, getOrdType_found ordType,
    getTimeInForce_found timeInForce, getRequired_found orderQty, Throws.ok_bind]

theorem decodeReplaceOrder_has {replace : ReplaceOrder} (has : Has document (payloadReplaceOrder replace)) :
    decodeReplaceOrder lib document = .ok replace := by
  simp only [Has, payloadReplaceOrder, List.forall_mem_cons] at has
  obtain ⟨-, clientId, clOrdId, origClOrdId, securityId, symbol, securityExchange, side, ordType, timeInForce, orderQty, price,
    -⟩ := has
  simp only [decodeReplaceOrder, getRequired_found symbol, getRequired_found price, getRequired_found clientId, getRequired_found clOrdId,
    getRequired_found origClOrdId, getOptional_found securityId, getOptional_found securityExchange, getRequired_found side,
    decodeSide_encode, getOrdType_found ordType, getTimeInForce_found timeInForce, getRequired_found orderQty, Throws.ok_bind]

theorem decodeCancelOrder_has {cancel : CancelOrder} (has : Has document (payloadCancelOrder cancel)) :
    decodeCancelOrder lib document = .ok cancel := by
  simp only [Has, payloadCancelOrder, List.forall_mem_cons] at has
  obtain ⟨-, clientId, clOrdId, origClOrdId, -⟩ := has
  simp only [decodeCancelOrder, getRequired_found clientId, getRequired_found clOrdId, getRequired_found origClOrdId, Throws.ok_bind]

/-- The `message_type` of a request. -/
def messageType : Request → Bytes
  | .newOrderSingle _ => ascii "new_order_single"
  | .replaceOrder _ => ascii "replace_order"
  | .cancelOrder _ => ascii "cancel_order"
  | .flush => ascii "flush"

theorem payload_typed (request : Request) : (ascii "message_type", toJson (messageType request)) ∈ payload request := by
  cases request <;> exact List.mem_cons_self

/-- **A document with the members of a request** is decoded to it. -/
theorem decodeDatagram_has {datagram : Bytes} {request : Request} (parsed : lib.parse datagram = .ok document)
    (has : Has document (payload request)) : decodeDatagram lib datagram = .ok (.ok request) := by
  have typed := @getRequired_found _ _ lib _ _ _ (has _ (payload_typed request))
  rw [decodeDatagram, parsed, Throws.ok_bind, typed, Throws.ok_bind]
  cases request with
  | newOrderSingle order =>
    rw [messageType, if_pos rfl, decodeNewOrder_has has]
    rfl
  | replaceOrder replace =>
    rw [messageType, if_neg (by decide), if_pos rfl, decodeReplaceOrder_has has]
    rfl
  | cancelOrder cancel =>
    rw [messageType, if_neg (by decide), if_neg (by decide), if_pos rfl, decodeCancelOrder_has has]
    rfl
  | flush =>
    rw [messageType, if_neg (by decide), if_neg (by decide), if_neg (by decide), if_pos rfl]

end Messages

section Keys

def keysNewOrderSingle : List String :=
  ["message_type", "client_id", "cl_ord_id", "security_id", "symbol", "security_exchange", "side", "ord_type", "time_in_force",
    "order_qty", "price"]

def keysReplaceOrder : List String :=
  ["message_type", "client_id", "cl_ord_id", "orig_cl_ord_id", "security_id", "symbol", "security_exchange", "side", "ord_type",
    "time_in_force", "order_qty", "price"]

def keysCancelOrder : List String := ["message_type", "client_id", "cl_ord_id", "orig_cl_ord_id"]

/-- The names of the fields of a message. -/
def keys : Request → List String
  | .newOrderSingle _ => keysNewOrderSingle
  | .replaceOrder _ => keysReplaceOrder
  | .cancelOrder _ => keysCancelOrder
  | .flush => ["message_type"]

theorem keys_payload (request : Request) : (payload request).map Prod.fst = (keys request).map ascii := by
  cases request <;> rfl

theorem payload_once (request : Request) : ((payload request).map Prod.fst).Nodup := by
  rw [keys_payload]
  cases request <;> simp only [keys] <;> decide

theorem keys_ascii (request : Request) : (keys request).all isAscii = true := by
  cases request <;> rfl

end Keys

section Flat

/-- The texts of a request are valid UTF-8. -/
def Utf8Texts : Request → Prop
  | .newOrderSingle order => ValidUtf8 order.symbol.content ∧ ValidUtf8 order.securityExchange.content
  | .replaceOrder replace => ValidUtf8 replace.symbol.content ∧ ValidUtf8 replace.securityExchange.content
  | .cancelOrder _ => True
  | .flush => True

theorem scalar_word (value : UInt64) : Scalar (toJson value) := .numberUnsigned value

theorem scalar_text {n : Nat} {text : FixedString n} (valid : ValidUtf8 text.content) : Scalar (toJson text) := .string valid

theorem scalar_ascii {s : String} (plain : isAscii s = true) : Scalar (toJson (ascii s)) := .string (validUtf8_ascii plain)

theorem scalar_side (side : Side) : Scalar (toJson (encodeSide side)) := by
  cases side <;> exact scalar_ascii (by decide)

theorem scalar_ordType (ordType : OrdType) : Scalar (toJson (encodeOrdType ordType)) := by
  cases ordType <;> exact scalar_ascii (by decide)

theorem scalar_timeInForce (timeInForce : TimeInForce) : Scalar (toJson (encodeTimeInForce timeInForce)) := by
  cases timeInForce <;> exact scalar_ascii (by decide)

theorem scalar_payload {request : Request} (valid : Utf8Texts request) : ∀ x ∈ payload request, Scalar x.2 := by
  cases request with
  | newOrderSingle order =>
    obtain ⟨symbol, securityExchange⟩ := valid
    simp only [payload, payloadNewOrderSingle, List.forall_mem_cons]
    exact ⟨scalar_ascii (by decide), scalar_word _, scalar_word _, scalar_word _, scalar_text symbol, scalar_text securityExchange,
      scalar_side _, scalar_ordType _, scalar_timeInForce _, scalar_word _, scalar_word _, List.forall_mem_nil _⟩
  | replaceOrder replace =>
    obtain ⟨symbol, securityExchange⟩ := valid
    simp only [payload, payloadReplaceOrder, List.forall_mem_cons]
    exact ⟨scalar_ascii (by decide), scalar_word _, scalar_word _, scalar_word _, scalar_word _, scalar_text symbol,
      scalar_text securityExchange, scalar_side _, scalar_ordType _, scalar_timeInForce _, scalar_word _, scalar_word _,
      List.forall_mem_nil _⟩
  | cancelOrder cancel =>
    simp only [payload, payloadCancelOrder, List.forall_mem_cons]
    exact ⟨scalar_ascii (by decide), scalar_word _, scalar_word _, scalar_word _, List.forall_mem_nil _⟩
  | flush =>
    simp only [payload, payloadFlush, List.forall_mem_cons]
    exact ⟨scalar_ascii (by decide), List.forall_mem_nil _⟩

theorem utf8_payload (request : Request) : ∀ x ∈ payload request, ValidUtf8 x.1 := by
  intro x member
  have key : x.1 ∈ (keys request).map ascii := keys_payload request ▸ List.mem_map_of_mem member
  obtain ⟨name, known, same⟩ := List.mem_map.1 key
  exact same ▸ validUtf8_ascii (List.all_eq_true.1 (keys_ascii request) name known)

/-- What is dumped is a flat object. -/
theorem flat_payload {request : Request} (valid : Utf8Texts request) : Flat (object (payload request)) :=
  flat_object (payload_once request) (utf8_payload request) (scalar_payload valid)

end Flat

theorem parse_encode {lib : Nlohmann} (lawful : lib.Lawful) {request : Request} (valid : Utf8Texts request) :
    lib.parse (encode lib request) = .ok (object (payload request)) := lawful _ (flat_payload valid)

/-- **A request that fits into a datagram** is decoded as it was encoded. -/
theorem json_round_trip {lib : Nlohmann} (lawful : lib.Lawful) {config : Config} {request : Request} (valid : Utf8Texts request)
    (fits : (encode lib request).length ≤ config.maxDatagramSize.toNat) : decode lib config (encode lib request) = .ok request := by
  have parsed := parse_encode lawful valid
  have has : Has (object (payload request)) (payload request) := fun _ member => find_object (payload_once request) member
  rw [decode, if_neg (Nat.not_lt.2 fits), decodeDatagram_has parsed has]

section Failures

variable {lib : Nlohmann} {config : Config} {datagram : Bytes} {error : Error}

/-- An error that a decoder returns, rather than throws, is about the type of the message. -/
theorem decodeDatagram_error (returned : decodeDatagram lib datagram = .ok (.error error)) :
    ∃ messageType, (parserError (ascii "unknown message_type '" ++ messageType ++ ascii "'") : Result Request) = .error error := by
  obtain ⟨document, -, returned⟩ := Throws.bind_eq_ok.1 returned
  obtain ⟨messageType, -, returned⟩ := Throws.bind_eq_ok.1 returned
  refine ⟨messageType, ?_⟩
  split at returned
  · obtain ⟨order, -, returned⟩ := Throws.bind_eq_ok.1 returned
    cases returned
  · split at returned
    · obtain ⟨replace, -, returned⟩ := Throws.bind_eq_ok.1 returned
      cases returned
    · split at returned
      · obtain ⟨cancel, -, returned⟩ := Throws.bind_eq_ok.1 returned
        cases returned
      · split at returned
        · cases returned
        · exact Except.ok.inj returned

/-- **Whatever is wrong with a datagram**, the decoder answers with a parser error. -/
theorem decode_error (failed : decode lib config datagram = .error error) :
    ∃ reason, (parserError reason : Result Request) = .error error := by
  unfold decode at failed
  split at failed
  · exact ⟨_, failed⟩
  · split at failed
    · rename_i result returned
      subst failed
      obtain ⟨messageType, unknown⟩ := decodeDatagram_error returned
      exact ⟨_, unknown⟩
    · exact ⟨_, failed⟩

end Failures

section Witness

/-- A library whose flat objects are printed compactly. -/
def compact : Nlohmann where
  parse text :=
    match read text with
    | some document => .ok document
    | none => .error (ascii "parse error")
  dump := print
  atError _ key := ascii "key '" ++ key ++ ascii "' not found"
  typeError _ type := ascii "type must be " ++ type
  castFloat q := UInt64.ofNat q.floor.toNat

theorem compact_lawful : compact.Lawful := by
  intro document flat
  simp only [compact, read_print flat]

def ibm : Symbol := ⟨ascii "IBM", by decide⟩

/-- The new order of the encoder's test. -/
def testedOrder : NewOrderSingle where
  clientId := 7
  clOrdId := 42
  securityId := 0
  symbol := ibm
  securityExchange := defaultSecurityExchange
  side := .buy
  ordType := .limit
  timeInForce := .day
  orderQty := 300
  price := 125

theorem json_round_trip_testedOrder :
    decode compact ⟨1500⟩ (encode compact (.newOrderSingle testedOrder)) = .ok (.newOrderSingle testedOrder) :=
  json_round_trip compact_lawful ⟨validUtf8_ascii (by decide), validUtf8_ascii (by decide)⟩ (by decide +kernel)

end Witness

end DemoExchange.Properties
