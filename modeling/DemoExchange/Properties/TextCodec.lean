import DemoExchange.QuickfixFix.Framing

/-!
# Which messages the text codec carries, and which texts it reads

The encoder escapes nothing, so a message comes back from its text exactly
when it is typed, has no field with the tag of the type, and nowhere holds the
delimiter. The decoder reads more texts than those: tags may repeat, segments
may be empty and the last delimiter may be missing.
-/

namespace DemoExchange.Properties
set_option autoImplicit false
open Text QuickfixFix

/-- **The round trip of the text codec**, for every message that the
constructor and `set` build and every delimiter that is no part of the framing. -/
theorem decode_encode_iff (msgType : Bytes) (sets : List Field) (d : UInt8) (separator : d ≠ '='.toUInt8)
    (digit : ¬('0'.toUInt8 ≤ d ∧ d ≤ '9'.toUInt8)) :
    decode (encode ((Message.new msgType).setAll sets) d) d = .ok ((Message.new msgType).setAll sets) ↔
      msgType ≠ [] ∧ (∀ field ∈ ((Message.new msgType).setAll sets).fields, field.number ≠ 35) ∧
        d ∉ msgType ∧ ∀ field ∈ ((Message.new msgType).setAll sets).fields, d ∉ field.value := by
  have plain : Plain d := ⟨separator, decide_eq_false digit⟩
  have typed : ((Message.new msgType).setAll sets).msgType = msgType := Message.setAll_msgType sets _
  constructor
  · intro read
    obtain ⟨some, untagged, apart, values⟩ := framed_of_decode read
    rw [typed] at some apart
    exact ⟨some, untagged, apart, values⟩
  · rintro ⟨some, untagged, apart, values⟩
    refine decode_encode plain ⟨?_, untagged, ?_, values⟩
    · rwa [typed]
    · rwa [typed]

/-- A message with an overwritten field, an empty value and a value with a separator in it. -/
theorem decode_encode_iff_order :
    decode (encode ((Message.new (ascii "D")).setAll [⟨11, ascii "42"⟩, ⟨58, []⟩, ⟨55, ascii "A=B"⟩, ⟨11, ascii "43"⟩]) printableDelimiter)
        printableDelimiter =
      .ok ((Message.new (ascii "D")).setAll [⟨11, ascii "42"⟩, ⟨58, []⟩, ⟨55, ascii "A=B"⟩, ⟨11, ascii "43"⟩]) :=
  (decode_encode_iff (ascii "D") [⟨11, ascii "42"⟩, ⟨58, []⟩, ⟨55, ascii "A=B"⟩, ⟨11, ascii "43"⟩] printableDelimiter (by decide)
    (by decide)).2 (by decide)

/-- Leaving out the last delimiter changes nothing. -/
theorem records_final (payload : Bytes) (d : UInt8) : records d (payload ++ [d]) = records d payload := by
  rw [records, List.splitOn_append_cons_self, List.filter_append]
  simp [records]

/-- **The grammar that `decode` accepts.** The payload, cut at the delimiter and
without its empty segments, has to be a list of fields, the last of tag 35 with
a value. The message keeps the other tags, each once and where it came first,
with the value that it had last. -/
theorem decode_accepts (payload : Bytes) (d : UInt8) :
    ((∃ message, decode payload d = .ok message) ↔ ∃ fields, List.Forall₂ Reads (records d payload) fields ∧
        ∃ msgType, lastValue 35 fields = some msgType ∧ msgType ≠ []) ∧
      (∀ message fields, decode payload d = .ok message → List.Forall₂ Reads (records d payload) fields → Says fields message) ∧
      decode (payload ++ [d]) d = decode payload d := by
  refine ⟨⟨?_, ?_⟩, ?_, ?_⟩
  · rintro ⟨message, read⟩
    obtain ⟨fields, reads, type, some, -⟩ := decode_eq_ok.1 read
    exact ⟨fields, reads, message.msgType, type, some⟩
  · rintro ⟨fields, reads, msgType, type, some⟩
    exact ⟨⟨msgType, _, Keyed.nodup_puts _⟩, decode_eq_ok.2 ⟨fields, reads, type, some, rfl⟩⟩
  · intro message fields read reads
    obtain ⟨fields', reads', type, -, puts⟩ := decode_eq_ok.1 read
    rw [reads_unique reads reads']
    exact says_of_puts type puts
  · rw [decode, decodeLoop_records, records_final, ← decodeLoop_records, ← decode]

end DemoExchange.Properties
