import DemoExchange.Properties.Decoding
import Mathlib.Algebra.Order.Ring.Rat
import Mathlib.Data.Rat.Cast.Order
import Mathlib.Tactic.NormNum

/-!
# The numbers of a request

A numeric field is read with `get<std::uint64_t>`, which casts whatever number
is stored: a negative one wraps and a fraction is cut off. The decoder asks
nothing of the number, so a request has the numbers of its payload exactly when
each of them is a word.
-/

namespace DemoExchange.Properties
set_option autoImplicit false
open Text Lab OrderEntry Json OrderClient.JsonEncoder OrderEntry.JsonDecoder

section Casts

variable {lib : Nlohmann} {value : Value} {n : UInt64} {q : Rat}

/-- The cast of a floating-point number to a word cuts its fraction off, where the result fits. -/
def CastTruncates (lib : Nlohmann) : Prop := ∀ (q : Rat) (n : UInt64), q.num.tdiv q.den = n.toNat → lib.castFloat q = n

/-- Not negative, below `2^64`, and no fraction. -/
def IsWord (q : Rat) : Prop := 0 ≤ q ∧ q < 2 ^ 64 ∧ q.den = 1

theorem isWord_toNat (n : UInt64) : IsWord n.toNat := by
  refine ⟨Nat.cast_nonneg _, ?_, Rat.den_natCast _⟩
  have small := n.toNat_lt_size
  exact_mod_cast small

theorem exists_word (word : IsWord q) : ∃ n : UInt64, q = n.toNat := by
  obtain ⟨positive, small, whole⟩ := word
  have integer : (q.num : Rat) = q := Rat.coe_int_num_of_den_eq_one whole
  have positive : 0 ≤ q.num := Rat.num_nonneg.2 positive
  have small : q.num < 2 ^ 64 := by
    rw [← integer] at small
    exact_mod_cast small
  have fits : q.num.toNat < UInt64.size := by
    rw [UInt64.size]
    omega
  refine ⟨UInt64.ofNatLT q.num.toNat fits, ?_⟩
  rw [UInt64.toNat_ofNatLT]
  have natural : (q.num.toNat : Int) = q.num := Int.toNat_of_nonneg positive
  rw [← Int.cast_natCast, natural, integer]

theorem toUInt64_of_toInt {i : Int64} (same : i.toInt = n.toNat) : i.toUInt64 = n := by
  apply UInt64.toNat_inj.1
  have wraps := i.toBitVec.toInt_eq_toNat_cond
  have stored : i.toUInt64.toNat = i.toBitVec.toNat := rfl
  have signed : i.toInt = i.toBitVec.toInt := rfl
  have fits := i.toBitVec.isLt
  have small := n.toNat_lt
  omega

/-- What is read from a number that is a word is that number. -/
theorem number_of_isWord (truncates : CastTruncates lib) (got : lib.getUnsigned value = .ok n) (stored : number? value = some q)
    (word : IsWord q) : q = n.toNat := by
  obtain ⟨m, rfl⟩ := exists_word word
  obtain rfl | ⟨i, rfl, wrapped⟩ | ⟨f, rfl, cut⟩ := getUnsigned_eq_ok got
  · exact (Option.some.inj stored).symm
  · have equal : (i.toInt : Rat) = m.toNat := Option.some.inj stored
    have equal : i.toInt = m.toNat := by exact_mod_cast equal
    rw [← wrapped, toUInt64_of_toInt equal]
  · have equal : f = m.toNat := Option.some.inj stored
    have truncated : f.num.tdiv f.den = m.toNat := by
      rw [equal, Rat.num_natCast, Rat.den_natCast]
      exact Int.tdiv_one _
    rw [← cut, truncates f m truncated]

/-- **What the cast makes of a number** is that number exactly when it is a word. -/
theorem getUnsigned_number (truncates : CastTruncates lib) (got : lib.getUnsigned value = .ok n) :
    number? value = some (n.toNat : Rat) ↔ ∀ q, number? value = some q → IsWord q := by
  constructor
  · intro equal q stored
    have same : q = n.toNat := Option.some.inj (stored.symm.trans equal)
    rw [same]
    exact isWord_toNat n
  · intro words
    obtain ⟨q, stored⟩ := Option.isSome_iff_exists.1 (getUnsigned_isSome.2 ⟨n, got⟩)
    rw [stored, number_of_isWord truncates got stored (words q stored)]

end Casts

section Numbers

variable {lib : Nlohmann} {document : Value} {request : Request}

def orderNumbers (order : NewOrderSingle) : List (String × UInt64) :=
  [("client_id", order.clientId), ("cl_ord_id", order.clOrdId), ("security_id", order.securityId), ("order_qty", order.orderQty),
    ("price", order.price)]

/-- The numeric fields of a request under their keys. -/
def numbers : Request → List (String × UInt64)
  | .newOrderSingle order => orderNumbers order
  | .replaceOrder replace => ("orig_cl_ord_id", replace.origClOrdId) :: orderNumbers (orderOf replace)
  | .cancelOrder cancel => [("client_id", cancel.clientId), ("cl_ord_id", cancel.clOrdId), ("orig_cl_ord_id", cancel.origClOrdId)]
  | .flush => []

def orderKeys : List String := ["client_id", "cl_ord_id", "security_id", "order_qty", "price"]

/-- The keys of the numeric fields of a type of message. -/
def numericKeys (type : Bytes) : List String :=
  if type = ascii "new_order_single" then orderKeys
  else if type = ascii "replace_order" then "orig_cl_ord_id" :: orderKeys
  else if type = ascii "cancel_order" then ["client_id", "cl_ord_id", "orig_cl_ord_id"]
  else []

theorem numericKeys_messageType (request : Request) : numericKeys (messageType request) = (numbers request).map Prod.fst := by
  cases request with
  | newOrderSingle order => rw [messageType, numericKeys, if_pos rfl]; rfl
  | replaceOrder replace => rw [messageType, numericKeys, if_neg (by decide), if_pos rfl]; rfl
  | cancelOrder cancel => rw [messageType, numericKeys, if_neg (by decide), if_neg (by decide), if_pos rfl]; rfl
  | flush => rw [messageType, numericKeys, if_neg (by decide), if_neg (by decide), if_neg (by decide)]; rfl

/-- A number of a request is under its key, as a value of a kind. Only a `security_id` may be absent. -/
def Under (document : Value) (kind : UInt64 → Value → Prop) (field : String × UInt64) : Prop :=
  field.1 = "security_id" ∧ document.find? (ascii field.1) = none ∨ Stores document field.1 (kind field.2)

/-- **The numbers of a request** are those of the document. -/
def Unaltered (document : Value) (request : Request) : Prop :=
  ∀ field ∈ numbers request, Under document (fun n value => number? value = some (n.toNat : Rat)) field

/-- A value is not a number that does not fit into a word. -/
def IsWhole (value : Value) : Prop := ∀ q, number? value = some q → IsWord q

/-- Every numeric field of a message is a whole number below `2^64`. -/
def WholeNumbers (document : Value) : Prop :=
  ∀ type, Typed document type → ∀ key ∈ numericKeys type, MayStore document key IsWhole

theorem ReadsOrder.numbers {order : NewOrderSingle} (reads : ReadsOrder lib document order) :
    ∀ field ∈ orderNumbers order, Under document (fun n value => lib.getUnsigned value = .ok n) field := by
  simp only [orderNumbers, List.forall_mem_cons]
  refine ⟨.inr (getRequired_eq_ok.1 reads.clientId), .inr (getRequired_eq_ok.1 reads.clOrdId), ?_,
    .inr (getRequired_eq_ok.1 reads.orderQty), .inr (getRequired_eq_ok.1 reads.price), List.forall_mem_nil _⟩
  exact (getOptional_eq_ok.1 reads.securityId).imp (fun absent => ⟨rfl, absent.1⟩) id

theorem reads_numbers (reads : ReadsRequest lib document request) :
    ∀ field ∈ numbers request, Under document (fun n value => lib.getUnsigned value = .ok n) field := by
  cases request with
  | newOrderSingle order => exact reads.numbers
  | replaceOrder replace =>
    rw [numbers, List.forall_mem_cons]
    exact ⟨.inr (getRequired_eq_ok.1 reads.2), reads.1.numbers⟩
  | cancelOrder cancel =>
    simp only [numbers, List.forall_mem_cons]
    exact ⟨.inr (getRequired_eq_ok.1 reads.clientId), .inr (getRequired_eq_ok.1 reads.clOrdId),
      .inr (getRequired_eq_ok.1 reads.origClOrdId), List.forall_mem_nil _⟩
  | flush => exact List.forall_mem_nil _

theorem under_iff {field : String × UInt64} (truncates : CastTruncates lib)
    (read : Under document (fun n value => lib.getUnsigned value = .ok n) field) :
    Under document (fun n value => number? value = some (n.toNat : Rat)) field ↔ MayStore document field.1 IsWhole := by
  obtain ⟨optional, absent⟩ | ⟨value, found, got⟩ := read
  · exact iff_of_true (.inl ⟨optional, absent⟩) (mayStore_absent absent)
  · have present : ¬ (field.1 = "security_id" ∧ document.find? (ascii field.1) = none) := fun absent =>
      nomatch absent.2.symm.trans found
    rw [Under, or_iff_right present, stores_found found, mayStore_found found]
    exact getUnsigned_number truncates got

theorem unaltered_iff (truncates : CastTruncates lib) (typed : Typed document (messageType request))
    (reads : ReadsRequest lib document request) : Unaltered document request ↔ WholeNumbers document := by
  have read := reads_numbers reads
  have whole : WholeNumbers document ↔ ∀ key ∈ (numbers request).map Prod.fst, MayStore document key IsWhole := by
    rw [← numericKeys_messageType]
    constructor
    · exact fun whole => whole _ typed
    · intro whole type typed'
      have same : type = messageType request := by
        have same := Option.some.inj (typed'.symm.trans typed)
        rwa [Value.string.injEq] at same
      rwa [same]
  rw [whole, List.forall_mem_map]
  apply forall_congr'
  intro field
  apply forall_congr'
  intro member
  exact under_iff truncates (read field member)

end Numbers

section Requests

variable {lib : Nlohmann} {document : Value} {config : JsonDecoder.Config} {datagram : Bytes} {request : Request}

/-- The decoder alters no number: a request has those of its payload, and a payload with a number that no field can have is refused. -/
def KeepsNumbers (lib : Nlohmann) (config : JsonDecoder.Config) (datagram : Bytes) : Prop :=
  (∀ request, decode lib config datagram = .ok request → ∃ document, lib.parse datagram = .ok document ∧ Unaltered document request) ∧
    ∀ document, lib.parse datagram = .ok document → ¬ WholeNumbers document →
      ∃ reason, decode lib config datagram = parserError reason

/-- **Numbers are kept** exactly where every payload that is otherwise legible has whole numbers only. -/
theorem keepsNumbers_iff (truncates : CastTruncates lib) (config : JsonDecoder.Config) (datagram : Bytes) :
    KeepsNumbers lib config datagram ↔
      ∀ document, lib.parse datagram = .ok document → datagram.length ≤ config.maxDatagramSize.toNat → StoresRequest document →
        WholeNumbers document := by
  constructor
  · rintro ⟨-, refuses⟩ document parsed fits stores
    obtain ⟨request, -, typed, reads⟩ := (storesRequest_iff lib).1 stores
    have decoded : decode lib config datagram = .ok request := decodes_iff.2 ⟨fits, document, parsed, typed, reads⟩
    by_contra altered
    obtain ⟨reason, refused⟩ := refuses document parsed altered
    exact nomatch decoded.symm.trans refused
  · intro whole
    have kept : ∀ request, decode lib config datagram = .ok request →
        ∃ document, lib.parse datagram = .ok document ∧ Unaltered document request ∧ WholeNumbers document := by
      intro request decoded
      obtain ⟨fits, document, parsed, typed, reads⟩ := decodes_iff.1 decoded
      have same := unaltered_iff truncates typed reads
      refine ⟨document, parsed, ?_⟩
      rw [same, and_self]
      by_cases isFlush : request = .flush
      · subst isFlush
        exact same.1 (List.forall_mem_nil _)
      · exact whole document parsed fits ((storesRequest_iff lib).2 ⟨request, isFlush, typed, reads⟩)
    constructor
    · intro request decoded
      obtain ⟨document, parsed, unaltered, -⟩ := kept request decoded
      exact ⟨document, parsed, unaltered⟩
    · intro document parsed altered
      cases decoded : decode lib config datagram with
      | error error =>
        obtain ⟨reason, same⟩ := decode_error decoded
        exact ⟨reason, same.symm⟩
      | ok request =>
        obtain ⟨document', parsed', -, whole⟩ := kept request decoded
        rw [Except.ok.inj (parsed'.symm.trans parsed)] at whole
        exact absurd whole altered

end Requests

section Witness

theorem compact_truncates : CastTruncates compact := by
  intro q n cut
  have floored : q.floor.toNat = n.toNat := by
    rw [Rat.floor_def]
    rcases Int.le_total 0 q.num with positive | negative
    · rw [Int.tdiv_eq_ediv_of_nonneg positive] at cut
      omega
    · have lower : q.num / q.den ≤ 0 := Int.ediv_nonpos_of_nonpos_of_neg negative (by exact_mod_cast q.den_pos)
      have upper : 0 ≤ (-q.num).tdiv q.den := Int.tdiv_nonneg (by omega) (Int.natCast_nonneg _)
      rw [Int.neg_tdiv] at upper
      omega
  change UInt64.ofNat q.floor.toNat = n
  rw [floored, UInt64.ofNat_toNat]

/-- An order to buy for a price of `-1`. -/
def negativePrice : Bytes :=
  ascii "\x7b\"message_type\":\"new_order_single\",\"client_id\":7,\"cl_ord_id\":42,\"symbol\":\"IBM\",\"side\":\"buy\",\"order_qty\":300,\"price\":-1\x7d"

def negativeMembers : List (Bytes × Value) :=
  [(ascii "message_type", .string (ascii "new_order_single")), (ascii "client_id", .numberUnsigned 7),
    (ascii "cl_ord_id", .numberUnsigned 42), (ascii "symbol", .string (ascii "IBM")), (ascii "side", .string (ascii "buy")),
    (ascii "order_qty", .numberUnsigned 300), (ascii "price", .numberInteger (-1))]

/-- A library that parses it. -/
def signed : Nlohmann :=
  { compact with parse := fun text => if text = negativePrice then .ok (object negativeMembers) else compact.parse text }

theorem parse_negativePrice : signed.parse negativePrice = .ok (object negativeMembers) := by
  simp only [signed, if_true]

theorem decode_negativePrice :
    decode signed ⟨1500⟩ negativePrice = .ok (.newOrderSingle { testedOrder with price := 18446744073709551615 }) := by
  decide +kernel

theorem price_negative : ¬ WholeNumbers (object negativeMembers) := by
  intro whole
  have once : (negativeMembers.map Prod.fst).Nodup := by decide
  have typed : Typed (object negativeMembers) (ascii "new_order_single") := find_object once List.mem_cons_self
  have found : (object negativeMembers).find? (ascii "price") = some (.numberInteger (-1)) :=
    find_object once (List.mem_of_getLast? rfl)
  have word : IsWord ((-1 : Int64).toInt : Rat) := whole _ typed "price" (by decide) _ found _ rfl
  exact absurd word.1 (by decide)

/-- **A negative price** becomes the largest one. -/
theorem negativePrice_altered : CastTruncates signed ∧ ¬ KeepsNumbers signed ⟨1500⟩ negativePrice := by
  refine ⟨compact_truncates, ?_⟩
  rintro ⟨-, refuses⟩
  obtain ⟨reason, refused⟩ := refuses _ parse_negativePrice price_negative
  exact nomatch decode_negativePrice.symm.trans refused

theorem isWhole_word (n : UInt64) : IsWhole (toJson n) := by
  intro q stored
  rw [← Option.some.inj stored]
  exact isWord_toNat n

theorem numbers_payload (request : Request) : ∀ field ∈ numbers request, (ascii field.1, toJson field.2) ∈ payload request := by
  cases request with
  | newOrderSingle order => simp [numbers, orderNumbers, payload, payloadNewOrderSingle]
  | replaceOrder replace => simp [numbers, orderNumbers, orderOf, payload, payloadReplaceOrder]
  | cancelOrder cancel => simp [numbers, payload, payloadCancelOrder]
  | flush => exact List.forall_mem_nil _

/-- What the order client writes has whole numbers. -/
theorem wholeNumbers_payload (request : Request) : WholeNumbers (object (payload request)) := by
  intro type typed key member
  have same : toJson (messageType request) = Value.string type :=
    Option.some.inj ((find_object (payload_once request) (payload_typed request)).symm.trans typed)
  rw [← Value.string.inj same, numericKeys_messageType] at member
  obtain ⟨field, known, rfl⟩ := List.mem_map.1 member
  exact (mayStore_found (find_object (payload_once request) (numbers_payload request field known))).2 (isWhole_word field.2)

theorem keepsNumbers_iff_testedOrder : KeepsNumbers compact ⟨1500⟩ (encode compact (.newOrderSingle testedOrder)) := by
  apply (keepsNumbers_iff compact_truncates _ _).2
  intro document parsed _ _
  have valid : Utf8Texts (.newOrderSingle testedOrder) :=
    ⟨@validUtf8_ascii "IBM" (by decide), @validUtf8_ascii "BVMF" (by decide)⟩
  rw [← Except.ok.inj ((parse_encode compact_lawful valid).symm.trans parsed)]
  exact wholeNumbers_payload _

end Witness

end DemoExchange.Properties
