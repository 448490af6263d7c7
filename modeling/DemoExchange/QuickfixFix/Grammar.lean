import DemoExchange.QuickfixFix.Codec

/-!
# The grammar of a message

`decode` reads the records of its payload, in order. A record is the digits of
a tag, the separator and a value; the fields that the records stand for decide
what the message is, the last one with a tag giving its value.
-/

namespace DemoExchange.QuickfixFix
set_option autoImplicit false
open Text Lab

variable {d : UInt8} {payload record : Bytes} {number : Tag} {field : Field} {fields : List Field}
  {state state' : Bytes × Message} {message : Message}

section Loop

/-- Reading records, in order. -/
def decodeRecords (fields : List Bytes) (state : Bytes × Message) : Result (Bytes × Message) :=
  fields.foldlM (fun state field => decodeField field state) state

/-- What the loop does after a record. -/
theorem decodeLoop_rest (ih : ∀ (state : Bytes × Message) (head : UInt8) (rest : Bytes), payload.dropWhile (· ≠ d) = head :: rest →
      decodeLoop d rest state = decodeRecords (records d rest) state) (state : Bytes × Message) :
    (match _found : payload.dropWhile (· ≠ d) with
      | [] => pure state
      | _ :: rest => decodeLoop d rest state) = decodeRecords (records d (payload.dropWhile (· ≠ d)).tail) state := by
  split
  · rename_i found
    rw [found]
    rfl
  · rename_i head rest found
    rw [found]
    exact ih state head rest found

/-- **The loop** reads the records of its payload. -/
theorem decodeLoop_records (payload : Bytes) (state : Bytes × Message) :
    decodeLoop d payload state = decodeRecords (records d payload) state := by
  fun_induction decodeLoop d payload state with
  | case1 state => rfl
  | case2 payload state some field next busy ih =>
    have after : next = decodeRecords (records d (payload.dropWhile (· ≠ d)).tail) := funext (decodeLoop_rest ih)
    rw [records_first payload, if_neg busy, after]
    rfl
  | case3 payload state some field next idle ih =>
    have after : next = decodeRecords (records d (payload.dropWhile (· ≠ d)).tail) := funext (decodeLoop_rest ih)
    rw [records_first payload, if_pos (not_not.1 idle), after]
    rfl

end Loop

section Records

/-- The record stands for the field: the digits of its tag, the separator, its value. -/
def Reads (record : Bytes) (field : Field) : Prop :=
  ∃ digits, digits ≠ [] ∧ (∀ b ∈ digits, isDigit b = true) ∧ value digits ≤ 65535 ∧
    record = digits ++ equalsSign :: field.value ∧ field.number = UInt16.ofNat (value digits)

/-- What `decode_field` does with a field. -/
def note (state : Bytes × Message) (field : Field) : Bytes × Message :=
  if field.number = msgTypeTag then (field.value, state.2) else (state.1, state.2.set field.number field.value)

theorem equalsSign_not_digit : isDigit equalsSign = false := by decide

theorem ne_equalsSign {digits : Bytes} (all : ∀ b ∈ digits, isDigit b = true) : ∀ b ∈ digits, decide (b ≠ equalsSign) = true := by
  intro b hb
  refine decide_eq_true fun same => ?_
  have digit := all b hb
  rw [same, equalsSign_not_digit] at digit
  cases digit

theorem takeWhile_digits {digits : Bytes} (all : ∀ b ∈ digits, isDigit b = true) (value : Bytes) :
    (digits ++ equalsSign :: value).takeWhile (· ≠ equalsSign) = digits := by
  rw [List.takeWhile_append_of_pos (ne_equalsSign all)]
  simp

theorem dropWhile_digits {digits : Bytes} (all : ∀ b ∈ digits, isDigit b = true) (value : Bytes) :
    (digits ++ equalsSign :: value).dropWhile (· ≠ equalsSign) = equalsSign :: value := by
  rw [List.dropWhile_append_of_pos (ne_equalsSign all)]
  simp

/-- A record is cut at its first separator. -/
theorem dropWhile_eq_cons {separator : UInt8} {value : Bytes} (found : record.dropWhile (· ≠ equalsSign) = separator :: value) :
    record = record.takeWhile (· ≠ equalsSign) ++ equalsSign :: value := by
  have whole := List.takeWhile_append_dropWhile (p := (· ≠ equalsSign)) (l := record)
  have stops := List.head?_dropWhile_not (· ≠ equalsSign) record
  rw [found] at stops whole
  have equals : separator = equalsSign := by simpa using stops
  rw [equals] at whole
  exact whole.symm

/-- The field of a record. -/
theorem Reads.unique {field' : Field} (reads : Reads record field) (reads' : Reads record field') : field = field' := by
  obtain ⟨digits, -, all, -, rfl, number⟩ := reads
  obtain ⟨digits', -, all', -, same, number'⟩ := reads'
  have name := takeWhile_digits all field.value
  have rest := dropWhile_digits all field.value
  rw [same, takeWhile_digits all'] at name
  rw [same, dropWhile_digits all', List.cons.injEq] at rest
  rw [← name, ← number'] at number
  obtain ⟨tag, text⟩ := field
  obtain ⟨tag', text'⟩ := field'
  exact congrArg₂ Field.mk number rest.2.symm

theorem reads_unique {records : List Bytes} {fields' : List Field} (reads : List.Forall₂ Reads records fields)
    (reads' : List.Forall₂ Reads records fields') : fields = fields' := by
  induction reads generalizing fields' with
  | nil =>
    cases reads'
    rfl
  | cons first _ ih =>
    cases reads' with
    | cons first' rest' => rw [first.unique first', ih rest']

theorem decodeField_reads (reads : Reads record field) (state : Bytes × Message) :
    decodeField record state = .ok (note state field) := by
  obtain ⟨digits, some, all, fits, rfl, number⟩ := reads
  rw [decodeField, takeWhile_digits all, dropWhile_digits all]
  simp only [some, if_false, fromChars16_eq_ok.2 ⟨some, all, fits, number⟩, Result.ok_bind, note]
  split <;> rfl

theorem exists_reads (read : decodeField record state = .ok state') : ∃ field, Reads record field := by
  rw [decodeField] at read
  split at read
  · cases read
  · rename_i separator value found
    have whole := dropWhile_eq_cons found
    split at read
    · cases read
    · cases number : fromChars16 (record.takeWhile (· ≠ equalsSign)) with
      | error e =>
        rw [number] at read
        cases read
      | ok number' =>
        obtain ⟨some, digits, fits, same⟩ := fromChars16_eq_ok.1 number
        exact ⟨⟨number', value⟩, _, some, digits, fits, whole, same⟩

/-- **What `decode_field` accepts.** -/
theorem decodeField_eq_ok : decodeField record state = .ok state' ↔ ∃ field, Reads record field ∧ state' = note state field := by
  constructor
  · intro read
    obtain ⟨field, reads⟩ := exists_reads read
    rw [decodeField_reads reads] at read
    exact ⟨field, reads, (Except.ok.inj read).symm⟩
  · rintro ⟨field, reads, rfl⟩
    exact decodeField_reads reads state

/-- **What the loop accepts**: records that stand for fields, which it notes in order. -/
theorem decodeRecords_eq_ok {records : List Bytes} :
    decodeRecords records state = .ok state' ↔ ∃ fields, List.Forall₂ Reads records fields ∧ state' = fields.foldl note state := by
  induction records generalizing state with
  | nil =>
    constructor
    · intro read
      exact ⟨[], .nil, (Except.ok.inj read).symm⟩
    · rintro ⟨_, ⟨⟩, rfl⟩
      rfl
  | cons record records ih =>
    rw [decodeRecords, List.foldlM_cons]
    constructor
    · intro read
      cases first : decodeField record state with
      | error e =>
        rw [first] at read
        cases read
      | ok next =>
        rw [first, Result.ok_bind] at read
        obtain ⟨field, reads, rfl⟩ := decodeField_eq_ok.1 first
        obtain ⟨fields, all, rfl⟩ := ih.1 read
        exact ⟨field :: fields, .cons reads all, rfl⟩
    · rintro ⟨_, whole, rfl⟩
      obtain ⟨field, fields, reads, rest, rfl⟩ := List.forall₂_cons_left_iff.1 whole
      rw [decodeField_reads reads, Result.ok_bind]
      exact ih.2 ⟨fields, rest, rfl⟩

end Records

section Repeats

/-- The value of the last field with a tag. -/
def lastValue (number : Tag) (fields : List Field) : Option Bytes :=
  (fields.reverse.find? fun field => field.number = number).map Field.value

/-- The tags of the fields that a message keeps, in the order in which they came first. -/
def keptTags (fields : List Field) : List Tag := ((fields.map Field.number).filter (· ≠ msgTypeTag)).eraseDups

theorem lastValue_snoc (number : Tag) (fields : List Field) (field : Field) :
    lastValue number (fields ++ [field]) = if field.number = number then some field.value else lastValue number fields := by
  rw [lastValue, List.reverse_append, List.reverse_singleton, List.singleton_append, List.find?_cons]
  by_cases same : field.number = number <;> simp [same, lastValue]

/-- Fields of other tags do not change the last value. -/
theorem lastValue_filter (other : number ≠ msgTypeTag) (fields : List Field) :
    lastValue number (fields.filter (·.number ≠ msgTypeTag)) = lastValue number fields := by
  rw [lastValue, ← List.filter_reverse, List.find?_filter, lastValue]
  congr 2
  funext field
  by_cases same : field.number = number <;> simp [same, other]

theorem foldl_note_type (fields : List Field) :
    (fields.foldl note ([], .new [])).1 = (lastValue msgTypeTag fields).getD [] := by
  induction fields using List.reverseRecOn with
  | nil => rfl
  | append_singleton fields field ih =>
    rw [List.foldl_append, List.foldl_cons, List.foldl_nil, lastValue_snoc, note]
    split
    · rfl
    · exact ih

theorem foldl_note_fields (fields : List Field) :
    (fields.foldl note ([], .new [])).2.fields = Keyed.puts Field.number (fields.filter (·.number ≠ msgTypeTag)) := by
  induction fields using List.reverseRecOn with
  | nil => rfl
  | append_singleton fields field ih =>
    rw [List.foldl_append, List.foldl_cons, List.foldl_nil, List.filter_append, note]
    split
    · rename_i type
      simp [type, ih]
    · rename_i other
      have kept : [field].filter (·.number ≠ msgTypeTag) = [field] := by simp [other]
      rw [kept, Keyed.puts_snoc, ← ih]
      rfl

/-- The message keeps what the fields say. -/
structure Says (fields : List Field) (message : Message) : Prop where
  msgType : lastValue msgTypeTag fields = some message.msgType
  tags : message.fields.map Field.number = keptTags fields
  values : ∀ field ∈ message.fields, lastValue field.number fields = some field.value
  get : ∀ number ≠ msgTypeTag, message.get number = lastValue number fields

/-- A message of the fields that are not its type, the later ones put over the earlier. -/
theorem says_of_puts (type : lastValue msgTypeTag fields = some message.msgType)
    (puts : message.fields = Keyed.puts Field.number (fields.filter (·.number ≠ msgTypeTag))) : Says fields message := by
  have get : ∀ number ≠ msgTypeTag, message.get number = lastValue number fields := by
    intro number other
    rw [Message.get, puts, Keyed.get_puts, ← lastValue_filter other, lastValue]
  refine ⟨type, ?_, fun field member => ?_, get⟩
  · rw [puts, Keyed.keys_puts, keptTags, List.filter_map]
    rfl
  · have other : field.number ≠ msgTypeTag := by
      rw [puts] at member
      simpa using (List.mem_filter.1 (Keyed.mem_puts member)).2
    rw [← get _ other, Message.get, Keyed.get_of_mem message.once member]
    rfl

/-- **What `decode` accepts**: records that stand for fields, the last type among them not empty. -/
theorem decode_eq_ok : decode payload d = .ok message ↔
    ∃ fields, List.Forall₂ Reads (records d payload) fields ∧ lastValue msgTypeTag fields = some message.msgType ∧
      message.msgType ≠ [] ∧ message.fields = Keyed.puts Field.number (fields.filter (·.number ≠ msgTypeTag)) := by
  rw [decode, decodeLoop_records]
  constructor
  · intro read
    cases looped : decodeRecords (records d payload) ([], .new []) with
    | error e =>
      rw [looped] at read
      cases read
    | ok state =>
      obtain ⟨fields, reads, rfl⟩ := decodeRecords_eq_ok.1 looped
      rw [looped, Result.ok_bind] at read
      simp only [foldl_note_type] at read
      cases type : lastValue msgTypeTag fields with
      | none =>
        rw [type] at read
        cases read
      | some msgType =>
        rw [type, Option.getD_some] at read
        by_cases empty : msgType = []
        · rw [if_pos empty] at read
          cases read
        · rw [if_neg empty] at read
          cases read
          have typed : ((Message.new msgType).setAll (fields.foldl note ([], .new [])).2.fields).msgType = msgType :=
            Message.setAll_msgType _ _
          refine ⟨fields, reads, by rw [typed]; exact type, by rwa [typed], ?_⟩
          rw [Message.setAll_new_fields, foldl_note_fields]
  · rintro ⟨fields, reads, type, some, puts⟩
    rw [decodeRecords_eq_ok.2 ⟨fields, reads, rfl⟩, Result.ok_bind]
    simp only [foldl_note_type, type, Option.getD_some, some, if_false]
    refine congrArg Except.ok (Message.ext (Message.setAll_msgType _ _) ?_)
    rw [Message.setAll_new_fields, foldl_note_fields, puts]

end Repeats

end DemoExchange.QuickfixFix
