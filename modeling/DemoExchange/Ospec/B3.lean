import DemoExchange.Lab.Error
import DemoExchange.OrderEntry.Messages

/-!
# The order-routing vocabulary of the venue

`ospec/b3.hpp` and `ospec/src/b3.cpp`: the tags and names of the FIX fields, and
the code of every value of an enumeration. A `parse_` switch is a table of codes
(`parseValue`); each `normalize` is a switch of its own.
-/

namespace DemoExchange.Ospec.B3
set_option autoImplicit false
open Text Lab OrderEntry

structure FieldSpec where
  number : UInt16
  name : Bytes
  deriving DecidableEq, Repr

def account : FieldSpec := ⟨1, ascii "Account"⟩
def avgPx : FieldSpec := ⟨6, ascii "AvgPx"⟩
def cumQty : FieldSpec := ⟨14, ascii "CumQty"⟩
def clOrdId : FieldSpec := ⟨11, ascii "ClOrdID"⟩
def lastPx : FieldSpec := ⟨31, ascii "LastPx"⟩
def lastQty : FieldSpec := ⟨32, ascii "LastQty"⟩
def orderId : FieldSpec := ⟨37, ascii "OrderID"⟩
def origClOrdId : FieldSpec := ⟨41, ascii "OrigClOrdID"⟩
def orderQty : FieldSpec := ⟨38, ascii "OrderQty"⟩
def ordStatus : FieldSpec := ⟨39, ascii "OrdStatus"⟩
def ordType : FieldSpec := ⟨40, ascii "OrdType"⟩
def price : FieldSpec := ⟨44, ascii "Price"⟩
def securityId : FieldSpec := ⟨48, ascii "SecurityID"⟩
def text : FieldSpec := ⟨58, ascii "Text"⟩
def side : FieldSpec := ⟨54, ascii "Side"⟩
def symbol : FieldSpec := ⟨55, ascii "Symbol"⟩
def timeInForce : FieldSpec := ⟨59, ascii "TimeInForce"⟩
def transactTime : FieldSpec := ⟨60, ascii "TransactTime"⟩
def cxlRejReason : FieldSpec := ⟨102, ascii "CxlRejReason"⟩
def leavesQty : FieldSpec := ⟨151, ascii "LeavesQty"⟩
def securityExchange : FieldSpec := ⟨207, ascii "SecurityExchange"⟩
def execId : FieldSpec := ⟨17, ascii "ExecID"⟩
def execType : FieldSpec := ⟨150, ascii "ExecType"⟩

def normalizeSide : Side → UInt8
  | .buy => '1'.toUInt8
  | .sell => '2'.toUInt8

def normalizeOrdType : OrdType → UInt8
  | .market => '1'.toUInt8
  | .limit => '2'.toUInt8

def normalizeTimeInForce : TimeInForce → UInt8
  | .day => '0'.toUInt8
  | .ioc => '3'.toUInt8

def normalizeExecType : ExecType → UInt8
  | .newOrder => '0'.toUInt8
  | .replaced => '5'.toUInt8
  | .canceled => '4'.toUInt8
  | .trade => 'F'.toUInt8
  | .rejected => '8'.toUInt8
  | .expired => 'C'.toUInt8

def normalizeOrdStatus : OrdStatus → UInt8
  | .newOrder => '0'.toUInt8
  | .partiallyFilled => '1'.toUInt8
  | .filled => '2'.toUInt8
  | .canceled => '4'.toUInt8
  | .replaced => '5'.toUInt8
  | .rejected => '8'.toUInt8
  | .expired => 'C'.toUInt8

def normalizeRejectReason : RejectReason → UInt16
  | .unknownOrder => 1
  | .duplicateOrder => 6
  | .unknownSymbol => 1
  | .unsupportedRequest => 99

/-- `invalid_value`. -/
def invalidValue {α : Type} (fieldName : String) (shown : Bytes) : Result α :=
  makeLeafError .invalidArgument (ascii "invalid B3 " ++ ascii fieldName ++ ascii " value '" ++ shown ++ ascii "'")

/-- A `switch` on the code of a field; `shown` is how the code is printed. -/
def parseValue {α κ : Type} [BEq κ] (fieldName : String) (cases : List (κ × α)) (value : κ) (shown : Bytes) : Result α :=
  match cases.lookup value with
  | some parsed => .ok parsed
  | none => invalidValue fieldName shown

def parseSide (value : UInt8) : Result Side :=
  parseValue "Side" [('1'.toUInt8, .buy), ('2'.toUInt8, .sell)] value [value]

def parseOrdType (value : UInt8) : Result OrdType :=
  parseValue "OrdType" [('1'.toUInt8, .market), ('2'.toUInt8, .limit)] value [value]

def parseTimeInForce (value : UInt8) : Result TimeInForce :=
  parseValue "TimeInForce" [('0'.toUInt8, .day), ('3'.toUInt8, .ioc)] value [value]

def parseExecType (value : UInt8) : Result ExecType :=
  parseValue "ExecType" [('0'.toUInt8, .newOrder), ('5'.toUInt8, .replaced), ('4'.toUInt8, .canceled), ('F'.toUInt8, .trade),
    ('8'.toUInt8, .rejected), ('C'.toUInt8, .expired)] value [value]

def parseOrdStatus (value : UInt8) : Result OrdStatus :=
  parseValue "OrdStatus" [('0'.toUInt8, .newOrder), ('1'.toUInt8, .partiallyFilled), ('2'.toUInt8, .filled), ('4'.toUInt8, .canceled),
    ('5'.toUInt8, .replaced), ('8'.toUInt8, .rejected), ('C'.toUInt8, .expired)] value [value]

def parseRejectReason (value : UInt16) : Result RejectReason :=
  parseValue "RejectReason" [(1, .unknownOrder), (6, .duplicateOrder), (99, .unsupportedRequest)] value (decimal value.toNat)

@[simp] theorem parseSide_normalize (value : Side) : parseSide (normalizeSide value) = .ok value := by
  cases value <;> rfl

@[simp] theorem parseOrdType_normalize (value : OrdType) : parseOrdType (normalizeOrdType value) = .ok value := by
  cases value <;> rfl

@[simp] theorem parseTimeInForce_normalize (value : TimeInForce) : parseTimeInForce (normalizeTimeInForce value) = .ok value := by
  cases value <;> rfl

@[simp] theorem parseExecType_normalize (value : ExecType) : parseExecType (normalizeExecType value) = .ok value := by
  cases value <;> rfl

@[simp] theorem parseOrdStatus_normalize (value : OrdStatus) : parseOrdStatus (normalizeOrdStatus value) = .ok value := by
  cases value <;> rfl

/-- A reject reason as it comes back: the code of an unknown symbol is that of an unknown order. -/
def readBack : RejectReason → RejectReason
  | .unknownSymbol => .unknownOrder
  | reason => reason

@[simp] theorem parseRejectReason_normalize (value : RejectReason) :
    parseRejectReason (normalizeRejectReason value) = .ok (readBack value) := by
  cases value <;> rfl

theorem readBack_eq_iff {value : RejectReason} : readBack value = value ↔ value ≠ .unknownSymbol := by
  cases value <;> decide

end DemoExchange.Ospec.B3
