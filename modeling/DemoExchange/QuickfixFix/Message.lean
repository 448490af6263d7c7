import DemoExchange.Lab.Error
import DemoExchange.Lib.Keyed

/-!
# FIX messages

`quickfix_fix/message.hpp`, the members of `message` in
`quickfix_fix/src/session.cpp`, and `quickfix_fix/error_code.hpp`. The vector of
fields has every tag once: `set` overwrites a field where it stands.
-/

namespace DemoExchange.QuickfixFix
set_option autoImplicit false
open Text Lab

inductive ErrorCode where
  | notConnected
  | malformedMessage
  | missingMsgType
  deriving DecidableEq, Repr

/-- The value of the enumerator. -/
def ErrorCode.value : ErrorCode → Nat
  | .notConnected => 207001
  | .malformedMessage => 207002
  | .missingMsgType => 207003

abbrev Tag := UInt16

structure Field where
  number : Tag
  value : Bytes
  deriving DecidableEq, Repr

@[ext]
structure Message where
  msgType : Bytes
  fields : List Field
  once : (fields.map Field.number).Nodup
  deriving DecidableEq, Repr

namespace Message

/-- The constructor. -/
def new (msgType : Bytes) : Message := ⟨msgType, [], List.nodup_nil⟩

def set (message : Message) (number : Tag) (value : Bytes) : Message where
  msgType := message.msgType
  fields := Keyed.put Field.number ⟨number, value⟩ message.fields
  once := Keyed.nodup_put message.once

def get (message : Message) (number : Tag) : Option Bytes :=
  (Keyed.get Field.number number message.fields).map Field.value

variable {message : Message} {number number' : Tag} {value : Bytes}

@[simp] theorem msgType_new (msgType : Bytes) : (new msgType).msgType = msgType := rfl

@[simp] theorem get_set_self : (message.set number value).get number = some value := by
  have found := @Keyed.get_put_self _ _ _ Field.number ⟨number, value⟩ message.fields
  exact congrArg (Option.map Field.value) found

theorem get_set_of_ne (other : number ≠ number') : (message.set number value).get number' = message.get number' := by
  have same := @Keyed.get_put_of_ne _ _ _ Field.number ⟨number, value⟩ number' message.fields other
  exact congrArg (Option.map Field.value) same

/-- Set fields one after the other. -/
def setAll (message : Message) (fields : List Field) : Message :=
  fields.foldl (fun message field => message.set field.number field.value) message

theorem setAll_msgType (fields : List Field) : ∀ message : Message, (message.setAll fields).msgType = message.msgType := by
  induction fields with
  | nil => exact fun _ => rfl
  | cons field fields ih => exact fun message => ih (message.set field.number field.value)

theorem setAll_fields (fields : List Field) : ∀ message : Message,
    (message.setAll fields).fields = fields.foldl (fun l r => Keyed.put Field.number r l) message.fields := by
  induction fields with
  | nil => exact fun _ => rfl
  | cons field fields ih => exact fun message => ih (message.set field.number field.value)

theorem setAll_new_fields (msgType : Bytes) (message : Message) : ((new msgType).setAll message.fields).fields = message.fields := by
  rw [setAll_fields]
  exact Keyed.foldl_put message.once

/-- **Setting the fields of a message** on one of the same type builds it again. -/
theorem setAll_new (message : Message) : (new message.msgType).setAll message.fields = message := by
  ext1
  · exact setAll_msgType _ _
  · exact setAll_new_fields _ message

end Message

end DemoExchange.QuickfixFix
