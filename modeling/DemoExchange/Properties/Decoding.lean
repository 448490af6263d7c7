import DemoExchange.Properties.Json

/-!
# What the order-entry decoder reads

A payload is decoded exactly where each field of its message is legible, and
then to what the fields say (`decodes_iff`).
-/

namespace DemoExchange.Properties
set_option autoImplicit false
open Text Lab OrderEntry Json OrderEntry.JsonDecoder

section Words

variable {lib : Nlohmann} {value : Value} {n : UInt64}

/-- The number that a JSON value is. -/
def number? : Value → Option Rat
  | .numberUnsigned n => some n.toNat
  | .numberInteger i => some i.toInt
  | .numberFloat q => some q
  | _ => none

/-- Only numbers are cast. -/
theorem getUnsigned_eq_ok (got : lib.getUnsigned value = .ok n) :
    value = .numberUnsigned n ∨ (∃ i, value = .numberInteger i ∧ i.toUInt64 = n) ∨ ∃ q, value = .numberFloat q ∧ lib.castFloat q = n := by
  cases value with
  | numberUnsigned u => exact .inl (congrArg Value.numberUnsigned (Except.ok.inj got))
  | numberInteger i => exact .inr (.inl ⟨i, rfl, Except.ok.inj got⟩)
  | numberFloat q => exact .inr (.inr ⟨q, rfl, Except.ok.inj got⟩)
  | null => cases got
  | boolean b => cases got
  | string s => cases got
  | array items => cases got
  | object members => cases got

theorem getUnsigned_isSome : (number? value).isSome ↔ ∃ n, lib.getUnsigned value = .ok n := by
  constructor
  · intro stored
    cases value with
    | numberUnsigned n => exact ⟨n, rfl⟩
    | numberInteger i => exact ⟨i.toUInt64, rfl⟩
    | numberFloat q => exact ⟨lib.castFloat q, rfl⟩
    | null => cases stored
    | boolean b => cases stored
    | string s => cases stored
    | array items => cases stored
    | object members => cases stored
  · rintro ⟨n, got⟩
    obtain rfl | ⟨i, rfl, -⟩ | ⟨q, rfl, -⟩ := getUnsigned_eq_ok got <;> rfl

end Words

section Stored

/-- There is a value of a kind under a key. -/
def Stores (document : Value) (fieldName : String) (kind : Value → Prop) : Prop :=
  ∃ value, document.find? (ascii fieldName) = some value ∧ kind value

/-- What is under a key, if anything, is of a kind. -/
def MayStore (document : Value) (fieldName : String) (kind : Value → Prop) : Prop :=
  ∀ value, document.find? (ascii fieldName) = some value → kind value

theorem stores_found {document value : Value} {fieldName : String} {kind : Value → Prop}
    (found : document.find? (ascii fieldName) = some value) : Stores document fieldName kind ↔ kind value := by
  constructor
  · rintro ⟨other, stored, ofKind⟩
    rwa [← Option.some.inj (found.symm.trans stored)] at ofKind
  · exact fun ofKind => ⟨value, found, ofKind⟩

theorem mayStore_found {document value : Value} {fieldName : String} {kind : Value → Prop}
    (found : document.find? (ascii fieldName) = some value) : MayStore document fieldName kind ↔ kind value := by
  constructor
  · exact fun ofKind => ofKind value found
  · intro ofKind other stored
    rwa [← Option.some.inj (found.symm.trans stored)]

theorem mayStore_absent {document : Value} {fieldName : String} {kind : Value → Prop}
    (absent : document.find? (ascii fieldName) = none) : MayStore document fieldName kind := by
  intro value stored
  exact absurd (absent.symm.trans stored) nofun

def IsNumber (value : Value) : Prop := (number? value).isSome

def IsText (size : Nat) (value : Value) : Prop := ∃ s, value = .string s ∧ s.length ≤ size

def IsToken (tokens : List String) (value : Value) : Prop := ∃ token ∈ tokens, value = .string (ascii token)

variable {α : Type} [JsonValue α] {lib : Nlohmann} {document : Value} {fieldName : String} {a fallback : α} {kind : Value → Prop}

theorem getRequired_eq_ok : getRequired α lib document fieldName = .ok a ↔
    Stores document fieldName fun value => fromJson lib value = .ok a := by
  rw [getRequired, Throws.bind_eq_ok]
  apply exists_congr
  intro value
  apply and_congr_left
  intro _
  rw [Nlohmann.member]
  cases document.find? (ascii fieldName) with
  | none =>
    constructor
    · intro taken
      cases taken
    · intro stored
      cases stored
  | some found => rw [Except.ok.injEq, Option.some.injEq]

theorem getOptional_eq_ok : getOptional α lib document fieldName fallback = .ok a ↔
    document.find? (ascii fieldName) = none ∧ fallback = a ∨ Stores document fieldName fun value => fromJson lib value = .ok a := by
  rw [getOptional]
  cases found : document.find? (ascii fieldName) with
  | none =>
    constructor
    · exact fun same => .inl ⟨rfl, Except.ok.inj same⟩
    · rintro (⟨-, rfl⟩ | ⟨value, stored, -⟩)
      · rfl
      · exact absurd (found.symm.trans stored) (Option.some_ne_none value).symm
  | some value =>
    rw [stores_found found]
    exact ⟨.inr, fun read => read.resolve_left fun absent => Option.some_ne_none value absent.1⟩

theorem getRequired_isOk (reads : ∀ value, kind value ↔ ∃ a : α, fromJson lib value = .ok a) :
    Stores document fieldName kind ↔ ∃ a, getRequired α lib document fieldName = .ok a := by
  constructor
  · rintro ⟨value, found, readable⟩
    obtain ⟨a, read⟩ := (reads value).1 readable
    exact ⟨a, getRequired_eq_ok.2 ⟨value, found, read⟩⟩
  · rintro ⟨a, taken⟩
    obtain ⟨value, found, read⟩ := getRequired_eq_ok.1 taken
    exact ⟨value, found, (reads value).2 ⟨a, read⟩⟩

theorem getOptional_isOk (reads : ∀ value, kind value ↔ ∃ a : α, fromJson lib value = .ok a) :
    MayStore document fieldName kind ↔ ∃ a, getOptional α lib document fieldName fallback = .ok a := by
  cases found : document.find? (ascii fieldName) with
  | none => exact iff_of_true (mayStore_absent found) ⟨fallback, getOptional_eq_ok.2 (.inl ⟨found, rfl⟩)⟩
  | some value =>
    rw [mayStore_found found, reads value]
    apply exists_congr
    intro a
    rw [getOptional, found]

end Stored

section Kinds

variable {β : Type} {lib : Nlohmann} {document value : Value} {fieldName : String} {tokens : List String}

theorem isNumber_reads (lib : Nlohmann) (value : Value) : IsNumber value ↔ ∃ n : UInt64, fromJson lib value = .ok n := getUnsigned_isSome

theorem isText_reads {size : Nat} (lib : Nlohmann) (value : Value) :
    IsText size value ↔ ∃ text : FixedString size, fromJson lib value = .ok text := by
  change _ ↔ ∃ text, FixedString.fromJson size lib value = .ok text
  constructor
  · rintro ⟨s, rfl, fits⟩
    refine ⟨⟨s, fits⟩, ?_⟩
    simp only [FixedString.fromJson, Nlohmann.getString, Throws.ok_bind, FixedString.fromView, dif_pos fits]
  · rintro ⟨text, read⟩
    obtain ⟨s, got, read⟩ := Throws.bind_eq_ok.1 read
    refine ⟨s, ?_, ?_⟩
    · cases value with
      | string stored => rw [Except.ok.inj got]
      | _ => cases got
    · by_contra large
      rw [FixedString.fromView, dif_neg large] at read
      cases read

theorem getString_eq_ok {s : Bytes} : lib.getString value = .ok s ↔ value = .string s := by
  cases value with
  | string stored => rw [Nlohmann.getString, Except.ok.injEq, Value.string.injEq]
  | _ => exact iff_of_false nofun nofun

/-- The texts that a function knows. -/
def Knows (decodeToken : Bytes → Throws β) (tokens : List String) : Prop :=
  ∀ field, (∃ token ∈ tokens, field = ascii token) ↔ ∃ b, decodeToken field = .ok b

variable {decodeToken : Bytes → Throws β}

theorem stores_token (knows : Knows decodeToken tokens) : Stores document fieldName (IsToken tokens) ↔
    ∃ b, (getRequired Bytes lib document fieldName >>= decodeToken) = .ok b := by
  constructor
  · rintro ⟨value, found, token, known, rfl⟩
    obtain ⟨b, decoded⟩ := (knows _).1 ⟨token, known, rfl⟩
    exact ⟨b, Throws.bind_eq_ok.2 ⟨ascii token, getRequired_eq_ok.2 ⟨_, found, rfl⟩, decoded⟩⟩
  · rintro ⟨b, taken⟩
    obtain ⟨field, taken, decoded⟩ := Throws.bind_eq_ok.1 taken
    obtain ⟨value, found, read⟩ := getRequired_eq_ok.1 taken
    obtain ⟨token, known, rfl⟩ := (knows field).2 ⟨b, decoded⟩
    exact ⟨value, found, token, known, getString_eq_ok.1 read⟩

theorem mayStore_token (knows : Knows decodeToken tokens) (fallback : β) : MayStore document fieldName (IsToken tokens) ↔
    ∃ b, (if contains document fieldName then getRequired Bytes lib document fieldName >>= decodeToken else .ok fallback) = .ok b := by
  rw [contains]
  cases found : document.find? (ascii fieldName) with
  | none => exact iff_of_true (mayStore_absent found) ⟨fallback, rfl⟩
  | some value => rw [Option.isSome_some, if_pos rfl, ← stores_token knows, mayStore_found found, stores_found found]

/-- A function of two tokens. -/
theorem knows_two (first second : String) (b b' : β) (what : Bytes → Bytes) :
    Knows (fun field => if field = ascii first then .ok b else if field = ascii second then .ok b' else .error (what field))
      [first, second] := by
  intro field
  beta_reduce
  by_cases isFirst : field = ascii first
  · exact iff_of_true ⟨first, List.mem_cons_self, isFirst⟩ ⟨b, if_pos isFirst⟩
  · rw [if_neg isFirst]
    by_cases isSecond : field = ascii second
    · exact iff_of_true ⟨second, List.mem_cons_of_mem _ List.mem_cons_self, isSecond⟩ ⟨b', if_pos isSecond⟩
    · rw [if_neg isSecond]
      apply iff_of_false
      · simp only [List.exists_mem_cons_iff, isFirst, isSecond, List.not_mem_nil, false_and, exists_false, or_false, not_false_iff]
      · exact nofun

theorem knows_side : Knows decodeSide ["buy", "sell"] := knows_two _ _ _ _ fun field => ascii "invalid side '" ++ field ++ ascii "'"

theorem knows_ordType : Knows decodeOrdType ["market", "limit"] :=
  knows_two _ _ _ _ fun field => ascii "invalid ord_type '" ++ field ++ ascii "'"

theorem knows_timeInForce : Knows decodeTimeInForce ["day", "ioc"] :=
  knows_two _ _ _ _ fun field => ascii "invalid time_in_force '" ++ field ++ ascii "'"

end Kinds

section Messages

variable {lib : Nlohmann} {document : Value} {order : NewOrderSingle} {replace : ReplaceOrder} {cancel : CancelOrder}

/-- Every field of an order is there where it has to be, and of its kind. -/
structure StoresOrder (document : Value) : Prop where
  symbol : Stores document "symbol" (IsText 16)
  price : Stores document "price" IsNumber
  clientId : Stores document "client_id" IsNumber
  clOrdId : Stores document "cl_ord_id" IsNumber
  securityId : MayStore document "security_id" IsNumber
  securityExchange : MayStore document "security_exchange" (IsText 8)
  side : Stores document "side" (IsToken ["buy", "sell"])
  ordType : MayStore document "ord_type" (IsToken ["market", "limit"])
  timeInForce : MayStore document "time_in_force" (IsToken ["day", "ioc"])
  orderQty : Stores document "order_qty" IsNumber

/-- What the decoder reads for an order. -/
structure ReadsOrder (lib : Nlohmann) (document : Value) (order : NewOrderSingle) : Prop where
  symbol : getRequired Symbol lib document "symbol" = .ok order.symbol
  price : getRequired Price lib document "price" = .ok order.price
  clientId : getRequired ClientId lib document "client_id" = .ok order.clientId
  clOrdId : getRequired ClOrdId lib document "cl_ord_id" = .ok order.clOrdId
  securityId : getOptional SecurityId lib document "security_id" (defaultSecurityId order.symbol) = .ok order.securityId
  securityExchange :
    getOptional SecurityExchange lib document "security_exchange" defaultSecurityExchange = .ok order.securityExchange
  side : (getRequired Bytes lib document "side" >>= decodeSide) = .ok order.side
  ordType : getOrdType lib document order.price = .ok order.ordType
  timeInForce : getTimeInForce lib document order.price = .ok order.timeInForce
  orderQty : getRequired Quantity lib document "order_qty" = .ok order.orderQty

theorem decodeNewOrder_eq_ok : decodeNewOrder lib document = .ok order ↔ ReadsOrder lib document order := by
  simp only [decodeNewOrder, Throws.bind_eq_ok]
  constructor
  · rintro ⟨symbol, h1, price, h2, clientId, h3, clOrdId, h4, securityId, h5, securityExchange, h6, field, h7, side, h8, ordType, h9,
      timeInForce, h10, orderQty, h11, ⟨⟩⟩
    exact ⟨h1, h2, h3, h4, h5, h6, Throws.bind_eq_ok.2 ⟨field, h7, h8⟩, h9, h10, h11⟩
  · intro reads
    obtain ⟨field, taken, side⟩ := Throws.bind_eq_ok.1 reads.side
    exact ⟨_, reads.symbol, _, reads.price, _, reads.clientId, _, reads.clOrdId, _, reads.securityId, _, reads.securityExchange, field,
      taken, _, side, _, reads.ordType, _, reads.timeInForce, _, reads.orderQty, rfl⟩

/-- **An order is decoded** exactly where all its fields are legible. -/
theorem storesOrder_iff (lib : Nlohmann) : StoresOrder document ↔ ∃ order, decodeNewOrder lib document = .ok order := by
  simp only [decodeNewOrder_eq_ok]
  constructor
  · intro stores
    obtain ⟨symbol, h1⟩ := (getRequired_isOk (isText_reads lib)).1 stores.symbol
    obtain ⟨price, h2⟩ := (getRequired_isOk (isNumber_reads lib)).1 stores.price
    obtain ⟨clientId, h3⟩ := (getRequired_isOk (isNumber_reads lib)).1 stores.clientId
    obtain ⟨clOrdId, h4⟩ := (getRequired_isOk (isNumber_reads lib)).1 stores.clOrdId
    obtain ⟨securityId, h5⟩ := (getOptional_isOk (isNumber_reads lib)).1 stores.securityId
    obtain ⟨securityExchange, h6⟩ := (getOptional_isOk (isText_reads lib)).1 stores.securityExchange
    obtain ⟨side, h7⟩ := (stores_token knows_side).1 stores.side
    obtain ⟨ordType, h8⟩ := (mayStore_token knows_ordType (ordTypeFromPrice price)).1 stores.ordType
    obtain ⟨timeInForce, h9⟩ := (mayStore_token knows_timeInForce (timeInForceFromPrice price)).1 stores.timeInForce
    obtain ⟨orderQty, h10⟩ := (getRequired_isOk (isNumber_reads lib)).1 stores.orderQty
    exact ⟨⟨clientId, clOrdId, securityId, symbol, securityExchange, side, ordType, timeInForce, orderQty, price⟩, h1, h2, h3, h4, h5,
      h6, h7, h8, h9, h10⟩
  · rintro ⟨order, reads⟩
    exact {
      symbol := (getRequired_isOk (isText_reads lib)).2 ⟨_, reads.symbol⟩
      price := (getRequired_isOk (isNumber_reads lib)).2 ⟨_, reads.price⟩
      clientId := (getRequired_isOk (isNumber_reads lib)).2 ⟨_, reads.clientId⟩
      clOrdId := (getRequired_isOk (isNumber_reads lib)).2 ⟨_, reads.clOrdId⟩
      securityId := (getOptional_isOk (isNumber_reads lib)).2 ⟨_, reads.securityId⟩
      securityExchange := (getOptional_isOk (isText_reads lib)).2 ⟨_, reads.securityExchange⟩
      side := (stores_token knows_side).2 ⟨_, reads.side⟩
      ordType := (mayStore_token knows_ordType _).2 ⟨_, reads.ordType⟩
      timeInForce := (mayStore_token knows_timeInForce _).2 ⟨_, reads.timeInForce⟩
      orderQty := (getRequired_isOk (isNumber_reads lib)).2 ⟨_, reads.orderQty⟩ }

/-- A replace without the order it is about. -/
def orderOf (replace : ReplaceOrder) : NewOrderSingle where
  clientId := replace.clientId
  clOrdId := replace.clOrdId
  securityId := replace.securityId
  symbol := replace.symbol
  securityExchange := replace.securityExchange
  side := replace.side
  ordType := replace.ordType
  timeInForce := replace.timeInForce
  orderQty := replace.orderQty
  price := replace.price

/-- What the decoder reads for a cancel. -/
structure ReadsCancel (lib : Nlohmann) (document : Value) (cancel : CancelOrder) : Prop where
  clientId : getRequired ClientId lib document "client_id" = .ok cancel.clientId
  clOrdId : getRequired ClOrdId lib document "cl_ord_id" = .ok cancel.clOrdId
  origClOrdId : getRequired OrigClOrdId lib document "orig_cl_ord_id" = .ok cancel.origClOrdId

theorem decodeReplaceOrder_eq_ok : decodeReplaceOrder lib document = .ok replace ↔
    ReadsOrder lib document (orderOf replace) ∧
      getRequired OrigClOrdId lib document "orig_cl_ord_id" = .ok replace.origClOrdId := by
  simp only [decodeReplaceOrder, Throws.bind_eq_ok]
  constructor
  · rintro ⟨symbol, h1, price, h2, clientId, h3, clOrdId, h4, origClOrdId, original, securityId, h5, securityExchange, h6, field, h7,
      side, h8, ordType, h9, timeInForce, h10, orderQty, h11, ⟨⟩⟩
    exact ⟨⟨h1, h2, h3, h4, h5, h6, Throws.bind_eq_ok.2 ⟨field, h7, h8⟩, h9, h10, h11⟩, original⟩
  · rintro ⟨reads, original⟩
    obtain ⟨field, taken, side⟩ := Throws.bind_eq_ok.1 reads.side
    exact ⟨_, reads.symbol, _, reads.price, _, reads.clientId, _, reads.clOrdId, _, original, _, reads.securityId, _,
      reads.securityExchange, field, taken, _, side, _, reads.ordType, _, reads.timeInForce, _, reads.orderQty, rfl⟩

theorem decodeCancelOrder_eq_ok : decodeCancelOrder lib document = .ok cancel ↔ ReadsCancel lib document cancel := by
  simp only [decodeCancelOrder, Throws.bind_eq_ok]
  constructor
  · rintro ⟨clientId, h1, clOrdId, h2, origClOrdId, h3, ⟨⟩⟩
    exact ⟨h1, h2, h3⟩
  · intro reads
    exact ⟨_, reads.clientId, _, reads.clOrdId, _, reads.origClOrdId, rfl⟩

/-- What the decoder reads for a request. -/
def ReadsRequest (lib : Nlohmann) (document : Value) : Request → Prop
  | .newOrderSingle order => ReadsOrder lib document order
  | .replaceOrder replace => ReadsOrder lib document (orderOf replace) ∧
      getRequired OrigClOrdId lib document "orig_cl_ord_id" = .ok replace.origClOrdId
  | .cancelOrder cancel => ReadsCancel lib document cancel
  | .flush => True

/-- The text under `message_type`. -/
def Typed (document : Value) (type : Bytes) : Prop := document.find? (ascii "message_type") = some (.string type)

theorem getRequired_typed {type : Bytes} : getRequired Bytes lib document "message_type" = .ok type ↔ Typed document type := by
  rw [getRequired_eq_ok]
  constructor
  · rintro ⟨value, found, read⟩
    rw [Typed, found, getString_eq_ok.1 read]
  · exact fun typed => ⟨_, typed, rfl⟩

theorem decodeDatagram_eq_ok {datagram : Bytes} {request : Request} : decodeDatagram lib datagram = .ok (.ok request) ↔
    ∃ document, lib.parse datagram = .ok document ∧ Typed document (messageType request) ∧ ReadsRequest lib document request := by
  rw [decodeDatagram, Throws.bind_eq_ok]
  apply exists_congr
  intro document
  apply and_congr_right
  intro _
  rw [Throws.bind_eq_ok]
  constructor
  · rintro ⟨type, typed, returned⟩
    have typed := getRequired_typed.1 typed
    split at returned
    · rename_i isNew
      subst isNew
      obtain ⟨order, decoded, ⟨⟩⟩ := Throws.bind_eq_ok.1 returned
      exact ⟨typed, decodeNewOrder_eq_ok.1 decoded⟩
    · split at returned
      · rename_i isReplace
        subst isReplace
        obtain ⟨replace, decoded, ⟨⟩⟩ := Throws.bind_eq_ok.1 returned
        exact ⟨typed, decodeReplaceOrder_eq_ok.1 decoded⟩
      · split at returned
        · rename_i isCancel
          subst isCancel
          obtain ⟨cancel, decoded, ⟨⟩⟩ := Throws.bind_eq_ok.1 returned
          exact ⟨typed, decodeCancelOrder_eq_ok.1 decoded⟩
        · split at returned
          · rename_i isFlush
            subst isFlush
            cases returned
            exact ⟨typed, trivial⟩
          · cases returned
  · rintro ⟨typed, reads⟩
    refine ⟨messageType request, getRequired_typed.2 typed, ?_⟩
    cases request with
    | newOrderSingle order =>
      rw [messageType, if_pos rfl, decodeNewOrder_eq_ok.2 reads]
      rfl
    | replaceOrder replace =>
      rw [messageType, if_neg (by decide), if_pos rfl, decodeReplaceOrder_eq_ok.2 reads]
      rfl
    | cancelOrder cancel =>
      rw [messageType, if_neg (by decide), if_neg (by decide), if_pos rfl, decodeCancelOrder_eq_ok.2 reads]
      rfl
    | flush =>
      rw [messageType, if_neg (by decide), if_neg (by decide), if_neg (by decide), if_pos rfl]

/-- **What is decoded** is what the document says, field by field. -/
theorem decodes_iff {config : JsonDecoder.Config} {datagram : Bytes} {request : Request} : decode lib config datagram = .ok request ↔
    datagram.length ≤ config.maxDatagramSize.toNat ∧
      ∃ document, lib.parse datagram = .ok document ∧ Typed document (messageType request) ∧ ReadsRequest lib document request := by
  rw [← decodeDatagram_eq_ok, decode]
  by_cases fits : datagram.length ≤ config.maxDatagramSize.toNat
  · rw [if_neg (Nat.not_lt.2 fits)]
    cases decodeDatagram lib datagram with
    | ok result => simp only [fits, true_and, Except.ok.injEq]
    | error what =>
      constructor
      · intro decoded
        cases decoded
      · rintro ⟨-, decoded⟩
        cases decoded
  · rw [if_pos (Nat.lt_of_not_le fits)]
    constructor
    · intro decoded
      cases decoded
    · exact fun read => absurd read.1 fits

/-- Every field of a cancel is there and of its kind. -/
structure StoresCancel (document : Value) : Prop where
  clientId : Stores document "client_id" IsNumber
  clOrdId : Stores document "cl_ord_id" IsNumber
  origClOrdId : Stores document "orig_cl_ord_id" IsNumber

/-- Every field of an order, a replace or a cancel is there where it has to be, and of its kind. -/
def StoresRequest (document : Value) : Prop :=
  Typed document (ascii "new_order_single") ∧ StoresOrder document ∨
    Typed document (ascii "replace_order") ∧ StoresOrder document ∧ Stores document "orig_cl_ord_id" IsNumber ∨
      Typed document (ascii "cancel_order") ∧ StoresCancel document

theorem storesCancel_iff (lib : Nlohmann) : StoresCancel document ↔ ∃ cancel, ReadsCancel lib document cancel := by
  constructor
  · intro stores
    obtain ⟨clientId, h1⟩ := (getRequired_isOk (isNumber_reads lib)).1 stores.clientId
    obtain ⟨clOrdId, h2⟩ := (getRequired_isOk (isNumber_reads lib)).1 stores.clOrdId
    obtain ⟨origClOrdId, h3⟩ := (getRequired_isOk (isNumber_reads lib)).1 stores.origClOrdId
    exact ⟨⟨clientId, clOrdId, origClOrdId⟩, h1, h2, h3⟩
  · rintro ⟨cancel, reads⟩
    exact ⟨(getRequired_isOk (isNumber_reads lib)).2 ⟨_, reads.clientId⟩, (getRequired_isOk (isNumber_reads lib)).2 ⟨_, reads.clOrdId⟩,
      (getRequired_isOk (isNumber_reads lib)).2 ⟨_, reads.origClOrdId⟩⟩

/-- **A document is decoded** to an order, a replace or a cancel exactly where its fields are legible. -/
theorem storesRequest_iff (lib : Nlohmann) : StoresRequest document ↔
    ∃ request, request ≠ .flush ∧ Typed document (messageType request) ∧ ReadsRequest lib document request := by
  constructor
  · rintro (⟨typed, stores⟩ | ⟨typed, stores, original⟩ | ⟨typed, stores⟩)
    · obtain ⟨order, reads⟩ := (storesOrder_iff lib).1 stores
      exact ⟨.newOrderSingle order, nofun, typed, decodeNewOrder_eq_ok.1 reads⟩
    · obtain ⟨order, reads⟩ := (storesOrder_iff lib).1 stores
      obtain ⟨origClOrdId, original⟩ := (getRequired_isOk (isNumber_reads lib)).1 original
      obtain ⟨clientId, clOrdId, securityId, symbol, securityExchange, side, ordType, timeInForce, orderQty, price⟩ := order
      exact ⟨.replaceOrder ⟨clientId, clOrdId, origClOrdId, securityId, symbol, securityExchange, side, ordType, timeInForce, orderQty,
        price⟩, nofun, typed, decodeNewOrder_eq_ok.1 reads, original⟩
    · obtain ⟨cancel, reads⟩ := (storesCancel_iff lib).1 stores
      exact ⟨.cancelOrder cancel, nofun, typed, reads⟩
  · rintro ⟨request, isOrder, typed, reads⟩
    cases request with
    | newOrderSingle order => exact .inl ⟨typed, (storesOrder_iff lib).2 ⟨order, decodeNewOrder_eq_ok.2 reads⟩⟩
    | replaceOrder replace =>
      exact .inr (.inl ⟨typed, (storesOrder_iff lib).2 ⟨_, decodeNewOrder_eq_ok.2 reads.1⟩,
        (getRequired_isOk (isNumber_reads lib)).2 ⟨_, reads.2⟩⟩)
    | cancelOrder cancel => exact .inr (.inr ⟨typed, (storesCancel_iff lib).2 ⟨cancel, reads⟩⟩)
    | flush => exact absurd rfl isOrder

end Messages

end DemoExchange.Properties
