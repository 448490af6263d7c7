import DemoExchange.Lab.Described
import DemoExchange.Properties.Json

/-!
# The binding of described structs is exact

A member is read at the value that a default-constructed struct has there,
whatever was read before it, and is found under its name in the object that is
written. So what reading makes of an object, and when it fails, is said member
by member.
-/

namespace DemoExchange.Properties.Binding
set_option autoImplicit false
open Text Lab Json

section Kinds

variable {α : Type} (lib : Nlohmann)

/-- The field of a default-constructed struct. -/
def Fresh : FieldKind α → α → Prop
  | .plain _, _ => True
  | .defaulted _ defaultValue, field => field = defaultValue
  | .optional _, field => field = none

/-- The serializer of the field's type reads back what it writes, over the field
of a default-constructed struct; an optional one never writes `null`. -/
def RoundTrips : FieldKind α → α → Prop
  | .plain codec, initial => ∀ value, codec.fromJson lib (codec.toJson value) initial = .ok value
  | .defaulted codec defaultValue, _ => ∀ value, codec.fromJson lib (codec.toJson value) defaultValue = .ok value
  | .optional codec, _ => ∀ value, codec.fromJson lib (codec.toJson value) codec.initial = .ok value ∧ codec.toJson value ≠ .null

/-- The field has to be there. -/
def Required : FieldKind α → Prop
  | .plain _ => True
  | .defaulted _ _ => False
  | .optional _ => False

/-- The serializer of the field's type fails on a value that is there. -/
def FailsOn : FieldKind α → α → Value → Prop
  | .plain codec, initial, value => ∃ what, codec.fromJson lib value initial = .error what
  | .defaulted codec defaultValue, _, value => ∃ what, codec.fromJson lib value defaultValue = .error what
  | .optional codec, _, value => value ≠ .null ∧ ∃ what, codec.fromJson lib value codec.initial = .error what

/-- The field that is read: the decoded value, or what stands for one that is not there. -/
def IsRead : FieldKind α → α → Option Value → α → Prop
  | .plain codec, initial, some value, field => codec.fromJson lib value initial = .ok field
  | .plain _, _, none, _ => False
  | .defaulted codec defaultValue, _, some value, field => codec.fromJson lib value defaultValue = .ok field
  | .defaulted _ defaultValue, _, none, field => field = defaultValue
  | .optional codec, _, some value, field =>
    (value = .null → field = none) ∧
      (value ≠ .null → ∃ decoded, field = some decoded ∧ codec.fromJson lib value codec.initial = .ok decoded)
  | .optional _, _, none, field => field = none

/-- The value that is written, if one is. -/
def written : FieldKind α → α → Option Value
  | .plain codec, field => some (codec.toJson field)
  | .defaulted codec _, field => some (codec.toJson field)
  | .optional codec, field => field.map codec.toJson

end Kinds

section OneField

variable {α : Type} {lib : Nlohmann} {document value : Value} {key key' : Bytes} {codec : Codec α} {kind : FieldKind α}
  {initial field : α}

theorem optionalFromJson_value (some' : value ≠ .null) :
    optionalFromJson lib codec value = (codec.fromJson lib value codec.initial).map some := by
  cases value with
  | null => exact absurd rfl some'
  | _ =>
    simp only [optionalFromJson]
    cases codec.fromJson lib _ codec.initial <;> rfl

theorem optionalFromJson_ok {field : Option α} :
    optionalFromJson lib codec value = .ok field ↔
      (value = .null → field = none) ∧
        (value ≠ .null → ∃ decoded, field = some decoded ∧ codec.fromJson lib value codec.initial = .ok decoded) := by
  by_cases null : value = .null
  · subst null
    simp [optionalFromJson, eq_comm]
  · rw [optionalFromJson_value null]
    cases codec.fromJson lib value codec.initial <;> simp [Except.map, null, eq_comm]

theorem optionalFromJson_error :
    (∃ what, optionalFromJson lib codec value = .error what) ↔
      value ≠ .null ∧ ∃ what, codec.fromJson lib value codec.initial = .error what := by
  by_cases null : value = .null
  · subst null
    simp [optionalFromJson]
  · rw [optionalFromJson_value null]
    cases codec.fromJson lib value codec.initial <;> simp [Except.map, null]

/-- **A field that is read.** -/
theorem readField_ok (fresh : Fresh kind initial) :
    readField lib document key kind initial = .ok field ↔ IsRead lib kind initial (document.find? key) field := by
  cases kind with
  | plain codec =>
    rw [readField, Nlohmann.member]
    cases document.find? key with
    | none =>
      constructor
      · intro read
        cases read
      · exact False.elim
    | some value => exact Iff.rfl
  | defaulted codec defaultValue =>
    cases fresh
    rw [readField]
    cases document.find? key with
    | none => exact ⟨fun read => (Except.ok.inj read).symm, fun read => congrArg Except.ok read.symm⟩
    | some value => exact Iff.rfl
  | optional codec =>
    cases fresh
    rw [readField]
    cases document.find? key with
    | none => exact ⟨fun read => (Except.ok.inj read).symm, fun read => congrArg Except.ok read.symm⟩
    | some value => exact optionalFromJson_ok

/-- **A field that is not read.** -/
theorem readField_error (fresh : Fresh kind initial) :
    (∃ what, readField lib document key kind initial = .error what) ↔
      (Required kind ∧ document.find? key = none) ∨ ∃ value, document.find? key = some value ∧ FailsOn lib kind initial value := by
  cases kind with
  | plain codec =>
    rw [readField, Nlohmann.member]
    cases document.find? key with
    | none => exact iff_of_true ⟨_, rfl⟩ (.inl ⟨trivial, rfl⟩)
    | some value => simp [FailsOn]
  | defaulted codec defaultValue =>
    cases fresh
    rw [readField]
    cases document.find? key with
    | none => simp [Required]
    | some value => simp [FailsOn]
  | optional codec =>
    cases fresh
    rw [readField]
    cases document.find? key with
    | none => simp [Required]
    | some value => simp [FailsOn, optionalFromJson_error]

/-- What was written is read back. -/
theorem isRead_written (fresh : Fresh kind initial) (lawful : RoundTrips lib kind initial) (field : α) :
    IsRead lib kind initial (written kind field) field := by
  cases kind with
  | plain codec => exact lawful field
  | defaulted codec defaultValue => exact lawful field
  | optional codec =>
    cases field with
    | none => rfl
    | some value => exact ⟨fun null => absurd null (lawful value).2, fun _ => ⟨value, rfl, (lawful value).1⟩⟩

theorem ordered_writeField (ordered : Ordered document) (kind : FieldKind α) (field : α) :
    Ordered (writeField document key kind field) := by
  cases kind with
  | plain codec => exact ordered.assign _ _
  | defaulted codec defaultValue => exact ordered.assign _ _
  | optional codec =>
    cases field with
    | none => exact ordered
    | some value => exact ordered.assign _ _

theorem find_writeField (ordered : Ordered document) (kind : FieldKind α) (field : α) :
    (writeField document key kind field).find? key' =
      if key' = key then (written kind field).or (document.find? key') else document.find? key' := by
  cases kind with
  | plain codec => exact find_assign ordered _ _ _
  | defaulted codec defaultValue => exact find_assign ordered _ _ _
  | optional codec =>
    cases field with
    | none => simp [writeField, written]
    | some value => exact find_assign ordered _ _ _

end OneField

section Members

variable {σ : Type} {lib : Nlohmann} {document : Value} {members : List (Member σ)} {object object' : σ}

/-- Reading some members does not touch the others. -/
theorem readFields_frame {other : Member σ} (apart : ∀ member ∈ members, Member.Apart other member)
    (read : readFields lib document members object = .ok object') : other.pointer.get object' = other.pointer.get object := by
  induction members generalizing object with
  | nil =>
    cases read
    rfl
  | cons member members ih =>
    obtain ⟨here, later⟩ := List.forall_mem_cons.1 apart
    obtain ⟨field, -, read⟩ := Throws.bind_eq_ok.1 read
    rw [ih later read, here.1]

/-- **The members that are read**, each over the field that stood there. -/
theorem readFields_ok (set : ∀ member ∈ members, ∀ field object, member.pointer.get (member.pointer.set field object) = field)
    (apart : members.Pairwise Member.Apart) (read : readFields lib document members object = .ok object') :
    ∀ member ∈ members, readField lib document member.name member.kind (member.pointer.get object) = .ok (member.pointer.get object') := by
  induction members generalizing object with
  | nil => simp
  | cons member members ih =>
    obtain ⟨first, rest⟩ := List.pairwise_cons.1 apart
    obtain ⟨setFirst, setRest⟩ := List.forall_mem_cons.1 set
    obtain ⟨field, found, read⟩ := Throws.bind_eq_ok.1 read
    refine List.forall_mem_cons.2 ⟨?_, fun other inside => ?_⟩
    · rw [readFields_frame first read, setFirst]
      exact found
    · rw [← ih setRest rest read other inside, (first other inside).2]

/-- **When the loop over the members fails**: a member fails over the field that stands there. -/
theorem readFields_error (apart : members.Pairwise Member.Apart) :
    (∃ what, readFields lib document members object = .error what) ↔
      ∃ member ∈ members, ∃ what, readField lib document member.name member.kind (member.pointer.get object) = .error what := by
  induction members generalizing object with
  | nil => simp [readFields]
  | cons member members ih =>
    obtain ⟨first, rest⟩ := List.pairwise_cons.1 apart
    rw [readFields, List.exists_mem_cons_iff]
    cases found : readField lib document member.name member.kind (member.pointer.get object) with
    | error what => exact iff_of_true ⟨what, rfl⟩ (.inl ⟨what, rfl⟩)
    | ok field =>
      rw [Throws.ok_bind, ih rest]
      have unmoved : ∀ other ∈ members, other.pointer.get (member.pointer.set field object) = other.pointer.get object :=
        fun other inside => (first other inside).2 field object
      constructor
      · rintro ⟨other, inside, what, failed⟩
        rw [unmoved other inside] at failed
        exact .inr ⟨other, inside, what, failed⟩
      · rintro (⟨what, failed⟩ | ⟨other, inside, what, failed⟩)
        · cases failed
        · rw [← unmoved other inside] at failed
          exact ⟨other, inside, what, failed⟩

theorem ordered_writeFields (ordered : Ordered document) : Ordered (writeFields members object document) := by
  induction members generalizing document with
  | nil => exact ordered
  | cons member members ih => exact ih (ordered_writeField ordered _ _)

/-- A key that is no name is left alone. -/
theorem find_writeFields_other (ordered : Ordered document) {key : Bytes} (other : ∀ member ∈ members, member.name ≠ key) :
    (writeFields members object document).find? key = document.find? key := by
  induction members generalizing document with
  | nil => rfl
  | cons member members ih =>
    obtain ⟨here, later⟩ := List.forall_mem_cons.1 other
    rw [writeFields, List.foldl_cons, ← writeFields, ih (ordered_writeField ordered _ _) later, find_writeField ordered,
      if_neg (Ne.symm here)]

/-- **A member is found under its name** as it was written. -/
theorem find_writeFields (ordered : Ordered document) (names : (members.map Member.name).Nodup)
    (free : ∀ member ∈ members, document.find? member.name = none) :
    ∀ member ∈ members, (writeFields members object document).find? member.name = written member.kind (member.pointer.get object) := by
  induction members generalizing document with
  | nil => simp
  | cons member members ih =>
    obtain ⟨absent, names⟩ := List.nodup_cons.1 names
    obtain ⟨freeFirst, freeRest⟩ := List.forall_mem_cons.1 free
    have others : ∀ other ∈ members, other.name ≠ member.name := fun other inside same =>
      absent (List.mem_map.2 ⟨other, inside, same⟩)
    have next : Ordered (writeField document member.name member.kind (member.pointer.get object)) :=
      ordered_writeField ordered member.kind _
    rw [writeFields, List.foldl_cons, ← writeFields]
    refine List.forall_mem_cons.2 ⟨?_, fun other inside => ih next names (fun other inside => ?_) other inside⟩
    · rw [find_writeFields_other next others, find_writeField ordered, if_pos rfl, freeFirst, Option.or_none]
    · rw [find_writeField ordered, if_neg (others other inside)]
      exact freeRest other inside

theorem hasDescribedField_iff {key : Bytes} : hasDescribedField members key = true ↔ ∃ member ∈ members, member.name = key := by
  rw [hasDescribedField, List.any_eq_true]
  exact ⟨fun ⟨member, inside, same⟩ => ⟨member, inside, (of_decide_eq_true same).symm⟩,
    fun ⟨member, inside, same⟩ => ⟨member, inside, decide_eq_true same.symm⟩⟩

theorem rejectUnknownItems_ok {items : List (Bytes × Value)} :
    rejectUnknownItems members items = .ok () ↔ ∀ key ∈ items.map Prod.fst, ∃ member ∈ members, member.name = key := by
  induction items with
  | nil => simp [rejectUnknownItems]
  | cons item items ih =>
    obtain ⟨key, value⟩ := item
    rw [rejectUnknownItems, List.map_cons, List.forall_mem_cons, ← hasDescribedField_iff, ← ih]
    by_cases known : hasDescribedField members key = true <;> simp [known]

/-- **What is not rejected**: an object all of whose keys are names. -/
theorem rejectUnknownFields_ok :
    rejectUnknownFields members document = .ok () ↔ document.IsObject ∧ ∀ key ∈ document.keys, ∃ member ∈ members, member.name = key := by
  cases document with
  | object items => exact rejectUnknownItems_ok.trans (iff_of_eq (true_and _)).symm
  | _ => exact iff_of_false nofun fun both => both.1

theorem rejectUnknownFields_error :
    (∃ what, rejectUnknownFields members document = .error what) ↔
      ¬document.IsObject ∨ ∃ key ∈ document.keys, ∀ member ∈ members, member.name ≠ key := by
  have accepted : (∃ what, rejectUnknownFields members document = .error what) ↔ ¬rejectUnknownFields members document = .ok () := by
    cases rejectUnknownFields members document with
    | error what => exact iff_of_true ⟨what, rfl⟩ nofun
    | ok _ => exact iff_of_false nofun (not_not.2 rfl)
  rw [accepted, rejectUnknownFields_ok, not_and_or]
  refine or_congr_right ?_
  push Not
  rfl

end Members

section Structs

variable {σ : Type} {lib : Nlohmann} {described : Described σ} {document : Value} {initial object : σ}

/-- The struct as it is default-constructed: the defaults stand, and no optional has a value. -/
def DefaultConstructed (described : Described σ) (initial : σ) : Prop :=
  ∀ member ∈ described.members, Fresh member.kind (member.pointer.get initial)

/-- The serializers of the fields round-trip. -/
def LawfulFields (lib : Nlohmann) (described : Described σ) (initial : σ) : Prop :=
  ∀ member ∈ described.members, RoundTrips lib member.kind (member.pointer.get initial)

/-- **When reading fails.** -/
theorem read_error (fresh : DefaultConstructed described initial) :
    (∃ what, readDescribedObject lib described document initial = .error what) ↔
      ¬document.IsObject ∨ (∃ key ∈ document.keys, ∀ member ∈ described.members, member.name ≠ key) ∨
        (∃ member ∈ described.members, Required member.kind ∧ document.find? member.name = none) ∨
          ∃ member ∈ described.members, ∃ value, document.find? member.name = some value ∧
            FailsOn lib member.kind (member.pointer.get initial) value := by
  have members : (∃ what, readFields lib document described.members initial = .error what) ↔
      ∃ member ∈ described.members, (Required member.kind ∧ document.find? member.name = none) ∨
        ∃ value, document.find? member.name = some value ∧ FailsOn lib member.kind (member.pointer.get initial) value := by
    rw [readFields_error described.apart]
    exact exists_congr fun member => and_congr_right fun inside => readField_error (fresh member inside)
  rw [readDescribedObject]
  cases rejected : rejectUnknownFields described.members document with
  | error what =>
    have refused := rejectUnknownFields_error.1 ⟨what, rejected⟩
    refine iff_of_true ⟨what, rfl⟩ ?_
    rw [← or_assoc]
    exact .inl refused
  | ok _ =>
    have accepted : ¬(¬document.IsObject ∨ ∃ key ∈ document.keys, ∀ member ∈ described.members, member.name ≠ key) := by
      rw [← rejectUnknownFields_error, rejected]
      exact nofun
    rw [Throws.ok_bind, members, ← or_assoc, or_iff_right accepted]
    simp only [and_or_left, exists_or]

/-- **What reading leaves**, member by member. -/
theorem read_ok (fresh : DefaultConstructed described initial) (read : readDescribedObject lib described document initial = .ok object) :
    ∀ member ∈ described.members,
      IsRead lib member.kind (member.pointer.get initial) (document.find? member.name) (member.pointer.get object) := by
  intro member inside
  obtain ⟨-, -, read⟩ := Throws.bind_eq_ok.1 read
  exact (readField_ok (fresh member inside)).1 (readFields_ok described.written described.apart read member inside)

theorem find_writeDescribedObject :
    ∀ member ∈ described.members,
      (writeDescribedObject described object).find? member.name = written member.kind (member.pointer.get object) :=
  find_writeFields (.object List.Pairwise.nil) described.names fun _ _ => rfl

/-- What is written has no other keys. -/
theorem keys_writeDescribedObject :
    ∀ key ∈ (writeDescribedObject described object).keys, ∃ member ∈ described.members, member.name = key := by
  intro key inside
  by_contra unknown
  have none : (writeDescribedObject described object).find? key = none := by
    refine find_writeFields_other (.object List.Pairwise.nil) fun member listed same => unknown ⟨member, listed, same⟩
  exact find_eq_none.1 none inside

theorem isObject_writeDescribedObject : (writeDescribedObject described object).IsObject :=
  (ordered_writeFields (.object List.Pairwise.nil)).isObject

/-- **What was written is read back.** -/
theorem read_write (fresh : DefaultConstructed described initial) (lawful : LawfulFields lib described initial) (object : σ) :
    readDescribedObject lib described (writeDescribedObject described object) initial = .ok object := by
  have each : ∀ member ∈ described.members,
      readField lib (writeDescribedObject described object) member.name member.kind (member.pointer.get initial) =
        .ok (member.pointer.get object) := by
    intro member inside
    rw [readField_ok (fresh member inside), find_writeDescribedObject member inside]
    exact isRead_written (fresh member inside) (lawful member inside) _
  have known : ∀ key ∈ (writeDescribedObject described object).keys, ∃ member ∈ described.members, member.name = key :=
    keys_writeDescribedObject
  have accepted := rejectUnknownFields_ok.2 ⟨isObject_writeDescribedObject, known⟩
  rw [readDescribedObject, accepted, Throws.ok_bind]
  cases read : readFields lib (writeDescribedObject described object) described.members initial with
  | error what =>
    obtain ⟨member, inside, what, failed⟩ := (readFields_error described.apart).1 ⟨what, read⟩
    rw [each member inside] at failed
    cases failed
  | ok object' =>
    refine congrArg Except.ok (described.whole _ _ fun member inside => ?_)
    have again := readFields_ok described.written described.apart read member inside
    rw [each member inside] at again
    exact (Except.ok.inj again).symm

end Structs

/-- **The binding of described structs is exact**: reading into a
default-constructed struct inverts writing; it fails exactly when the value is
no object, has an unknown key, lacks a plain member or has a member that its
serializer refuses; and it leaves every member as that member's value says. -/
theorem described_binding_exact {σ : Type} (lib : Nlohmann) (described : Described σ) (initial : σ)
    (fresh : DefaultConstructed described initial) (lawful : LawfulFields lib described initial) :
    (∀ object, readDescribedObject lib described (writeDescribedObject described object) initial = .ok object) ∧
      ∀ document,
        ((∃ what, readDescribedObject lib described document initial = .error what) ↔
          ¬document.IsObject ∨ (∃ key ∈ document.keys, ∀ member ∈ described.members, member.name ≠ key) ∨
            (∃ member ∈ described.members, Required member.kind ∧ document.find? member.name = none) ∨
              ∃ member ∈ described.members, ∃ value, document.find? member.name = some value ∧
                FailsOn lib member.kind (member.pointer.get initial) value) ∧
          ∀ object, readDescribedObject lib described document initial = .ok object → ∀ member ∈ described.members,
            IsRead lib member.kind (member.pointer.get initial) (document.find? member.name) (member.pointer.get object) := by
  refine ⟨read_write fresh lawful, fun document => ⟨read_error fresh, fun object read => read_ok fresh read⟩⟩

section Witness

/-- `std::string`. -/
def stringCodec : Codec Bytes := ⟨.string, fun lib value _ => lib.getString value, []⟩

/-- `int`: a number of any kind is cast, a fraction towards zero. -/
def intFromJson (lib : Nlohmann) : Value → Throws Int32
  | .numberUnsigned n => .ok (Int32.ofNat n.toNat)
  | .numberInteger i => .ok i.toInt32
  | .numberFloat q => .ok (Int32.ofInt (q.num.tdiv q.den))
  | .boolean b => .ok (if b then 1 else 0)
  | value => .error (lib.typeError value (ascii "number"))

def intCodec : Codec Int32 := ⟨fun i => .numberInteger i.toInt64, fun lib value _ => intFromJson lib value, 0⟩

/-- The struct of the binding's test. -/
structure DescribedConfig where
  venue : Bytes
  maxConnections : Int32
  logFile : Option Bytes
  deriving DecidableEq, Repr

/-- `LAB_AUTO_JSON(described_config, venue, max_connections, log_file)`. -/
def describedConfig : Described DescribedConfig where
  members :=
    [⟨ascii "venue", Bytes, .plain stringCodec, ⟨DescribedConfig.venue, fun venue config => { config with venue }⟩⟩,
      ⟨ascii "max_connections", Int32, .defaulted intCodec 8,
        ⟨DescribedConfig.maxConnections, fun maxConnections config => { config with maxConnections }⟩⟩,
      ⟨ascii "log_file", Option Bytes, .optional stringCodec, ⟨DescribedConfig.logFile, fun logFile config => { config with logFile }⟩⟩]
  names := by
    simp only [List.map_cons, List.map_nil]
    decide
  written := by simp
  apart := by simp [Member.Apart]
  whole := by
    rintro ⟨venue, maxConnections, logFile⟩ ⟨venue', maxConnections', logFile'⟩ same
    simpa using same

/-- `described_config{}`. -/
def freshConfig : DescribedConfig := ⟨[], 8, none⟩

theorem defaultConstructed_freshConfig : DefaultConstructed describedConfig freshConfig := by
  simp [DefaultConstructed, describedConfig, freshConfig, Fresh]

theorem lawful_describedConfig : LawfulFields compact describedConfig freshConfig := by
  simp [LawfulFields, describedConfig, RoundTrips, stringCodec, intCodec, intFromJson, Nlohmann.getString]

/-- A value that is read back, and the object of the test with an unknown field. -/
theorem described_binding_exact_describedConfig :
    readDescribedObject compact describedConfig (writeDescribedObject describedConfig ⟨ascii "B3", 16, some (ascii "b3.log")⟩) freshConfig =
        .ok ⟨ascii "B3", 16, some (ascii "b3.log")⟩ ∧
      ∃ what, readDescribedObject compact describedConfig
        (.object [(ascii "unexpected", .boolean true), (ascii "venue", .string (ascii "B3"))]) freshConfig = .error what := by
  obtain ⟨back, reading⟩ :=
    described_binding_exact compact describedConfig freshConfig defaultConstructed_freshConfig lawful_describedConfig
  refine ⟨back _, (reading _).1.2 (.inr (.inl ⟨ascii "unexpected", List.mem_cons_self, ?_⟩))⟩
  simp only [describedConfig, List.forall_mem_cons]
  exact ⟨by decide, by decide, by decide, List.forall_mem_nil _⟩

end Witness

end DemoExchange.Properties.Binding
