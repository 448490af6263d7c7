import DemoExchange.QuickfixFix.Grammar

/-!
# The framing of a message

A message whose contents do not hold the delimiter is encoded as one record a
field, and what was read from any payload is such a message.
-/

namespace DemoExchange.QuickfixFix
set_option autoImplicit false
open Text Lab

variable {d : UInt8} {payload value : Bytes} {number : Tag} {message : Message}

/-- The record of a field. -/
def body (number : Tag) (value : Bytes) : Bytes := decimal number.toNat ++ equalsSign :: value

/-- A delimiter that is no part of the framing. -/
def Plain (d : UInt8) : Prop := d ≠ equalsSign ∧ isDigit d = false

theorem body_ne_nil : body number value ≠ [] := by simp [body]

theorem not_mem_body (plain : Plain d) (apart : d ∉ value) : d ∉ body number value := by
  have digits : d ∉ decimal number.toNat := fun member => by
    have digit := isDigit_decimal _ d member
    rw [plain.2] at digit
    cases digit
  simp [body, digits, plain.1, apart]

theorem reads_body (number : Tag) (value : Bytes) : Reads (body number value) ⟨number, value⟩ := by
  refine ⟨decimal number.toNat, decimal_ne_nil _, isDigit_decimal _, ?_, rfl, ?_⟩
  · rw [value_decimal]
    exact Nat.le_of_lt_succ number.toNat_lt_size
  · rw [value_decimal, UInt16.ofNat_toNat]

/-- A message that the framing can carry. -/
structure Framed (d : UInt8) (message : Message) : Prop where
  typed : message.msgType ≠ []
  untagged : ∀ field ∈ message.fields, field.number ≠ msgTypeTag
  msgType : d ∉ message.msgType
  values : ∀ field ∈ message.fields, d ∉ field.value

section Encode

theorem encode_append (message : Message) : encode message d = body msgTypeTag message.msgType ++ d ::
    message.fields.flatMap fun field => body field.number field.value ++ [d] := by
  rw [encode, List.foldl_append_eq_append, formatField, List.append_assoc]
  rfl

theorem records_fields (plain : Plain d) : ∀ {fields : List Field}, (∀ field ∈ fields, d ∉ field.value) →
    records d (fields.flatMap fun field => body field.number field.value ++ [d]) =
      fields.map fun field => body field.number field.value := by
  intro fields
  induction fields with
  | nil => exact fun _ => rfl
  | cons field fields ih =>
    intro values
    obtain ⟨first, rest⟩ := List.forall_mem_cons.1 values
    rw [List.flatMap_cons, List.append_assoc, List.singleton_append, records_append (not_mem_body plain first), if_neg body_ne_nil,
      ih rest, List.map_cons]

theorem encode_records (plain : Plain d) (msgType : d ∉ message.msgType) (values : ∀ field ∈ message.fields, d ∉ field.value) :
    records d (encode message d) = body msgTypeTag message.msgType :: message.fields.map fun field => body field.number field.value := by
  rw [encode_append, records_append (not_mem_body plain msgType), if_neg body_ne_nil, records_fields plain values]

theorem reads_fields (fields : List Field) :
    List.Forall₂ Reads (fields.map fun field => body field.number field.value) fields :=
  List.forall₂_map_left_iff.2 (List.forall₂_same.2 fun field _ => reads_body field.number field.value)

theorem lastValue_untagged {fields : List Field} (value : Bytes) (untagged : ∀ field ∈ fields, field.number ≠ msgTypeTag) :
    lastValue msgTypeTag (⟨msgTypeTag, value⟩ :: fields) = some value := by
  have none : fields.reverse.find? (fun field => field.number = msgTypeTag) = none :=
    List.find?_eq_none.2 fun field member => by simpa using untagged field (List.mem_reverse.1 member)
  rw [lastValue, List.reverse_cons, List.find?_append, none]
  simp

/-- **A framed message** is read back. -/
theorem decode_encode (plain : Plain d) (framed : Framed d message) : decode (encode message d) d = .ok message := by
  have kept : message.fields.filter (·.number ≠ msgTypeTag) = message.fields :=
    List.filter_eq_self.2 fun field member => decide_eq_true (framed.untagged field member)
  refine decode_eq_ok.2 ⟨⟨msgTypeTag, message.msgType⟩ :: message.fields, ?_, lastValue_untagged _ framed.untagged, framed.typed, ?_⟩
  · rw [encode_records plain framed.msgType framed.values]
    exact .cons (reads_body _ _) (reads_fields _)
  · rw [List.filter_cons_of_neg (by simp), kept]
    exact (Keyed.foldl_put message.once).symm

end Encode

section Decode

theorem Reads.value_apart {record : Bytes} {field : Field} (reads : Reads record field) (apart : d ∉ record) : d ∉ field.value := by
  obtain ⟨digits, -, -, -, rfl, -⟩ := reads
  exact fun member => apart (List.mem_append_right _ (List.mem_cons_of_mem _ member))

/-- Fields read from records without a delimiter have none in their values. -/
theorem values_apart {records : List Bytes} {fields : List Field} (reads : List.Forall₂ Reads records fields)
    (apart : ∀ record ∈ records, d ∉ record) : ∀ field ∈ fields, d ∉ field.value := by
  induction reads with
  | nil => simp
  | cons first _ ih =>
    obtain ⟨here, later⟩ := List.forall_mem_cons.1 apart
    exact List.forall_mem_cons.2 ⟨first.value_apart here, ih later⟩

/-- **A message that was read** is framed, whatever the payload was. -/
theorem framed_of_decode (read : decode payload d = .ok message) : Framed d message := by
  obtain ⟨fields, reads, type, some, puts⟩ := decode_eq_ok.1 read
  have apart := values_apart reads fun record member => (mem_records member).2
  have kept : ∀ field ∈ message.fields, field ∈ fields ∧ field.number ≠ msgTypeTag := by
    intro field member
    rw [puts] at member
    simpa using Keyed.mem_puts member
  refine ⟨some, fun field member => (kept field member).2, ?_, fun field member => apart field (kept field member).1⟩
  obtain ⟨last, found, value⟩ := Option.map_eq_some_iff.1 type
  exact value ▸ apart last (List.mem_reverse.1 (List.mem_of_find?_eq_some found))

end Decode

end DemoExchange.QuickfixFix
