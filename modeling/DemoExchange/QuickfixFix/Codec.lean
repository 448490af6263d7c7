import DemoExchange.Lab.Charconv
import DemoExchange.QuickfixFix.Message

/-!
# The text codec

`quickfix_fix/src/codec.cpp`.
-/

namespace DemoExchange.QuickfixFix
set_option autoImplicit false
open Text Lab

def soh : UInt8 := 1

def printableDelimiter : UInt8 := '|'.toUInt8

def msgTypeTag : Tag := 35

def equalsSign : UInt8 := '='.toUInt8

/-- `decode_field`. The two strings it writes to are what it is given and what it returns. -/
def decodeField (field : Bytes) : Bytes × Message → Result (Bytes × Message)
  | (msgType, output) =>
    let malformed : Error := ⟨ErrorCode.malformedMessage.value, ascii "malformed FIX field '" ++ field ++ ascii "'"⟩
    let name := field.takeWhile (· ≠ equalsSign)
    match field.dropWhile (· ≠ equalsSign) with
    | [] => .error malformed
    | _ :: value =>
      if name = [] then .error malformed
      else do
        let number ← fromChars16 name
        if number = msgTypeTag then return (value, output) else return (msgType, output.set number value)

/-- The format `{}={}{}`. -/
def formatField (number : Tag) (value : Bytes) (delimiter : UInt8) : Bytes :=
  decimal number.toNat ++ equalsSign :: value ++ [delimiter]

def encode (message : Message) (delimiter : UInt8) : Bytes :=
  message.fields.foldl (fun output field => output ++ formatField field.number field.value delimiter)
    (formatField msgTypeTag message.msgType delimiter)

/-- The loop of `decode`. -/
def decodeLoop (delimiter : UInt8) (payload : Bytes) (state : Bytes × Message) : Result (Bytes × Message) :=
  if payload = [] then .ok state
  else do
    let field := payload.takeWhile (· ≠ delimiter)
    let state ← if field ≠ [] then decodeField field state else .ok state
    match _found : payload.dropWhile (· ≠ delimiter) with
    | [] => return state
    | _ :: rest => decodeLoop delimiter rest state
termination_by payload.length
decreasing_by
  have shorter := (List.dropWhile_sublist (· ≠ delimiter) (l := payload)).length_le
  rw [_found, List.length_cons] at shorter
  omega

def decode (payload : Bytes) (delimiter : UInt8) : Result Message := do
  let (msgType, output) ← decodeLoop delimiter payload ([], .new [])
  if msgType = [] then .error ⟨ErrorCode.missingMsgType.value, ascii "tag 35 is required"⟩
  else return (Message.new msgType).setAll output.fields

end DemoExchange.QuickfixFix
