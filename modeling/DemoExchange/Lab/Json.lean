import DemoExchange.Lab.FixedString
import DemoExchange.Lib.Json

/-!
# JSON

`lab/json.hpp`. The library under it, `nlohmann::json`, is a parameter: how it
prints and parses and the texts of what it throws. A function that may throw a
`std::exception` returns its `what`.
-/

namespace DemoExchange.Lab
set_option autoImplicit false
open Text Json

abbrev Throws (α : Type) := Except Bytes α

@[simp] theorem Throws.ok_bind {α β : Type} (a : α) (f : α → Throws β) : (Except.ok a >>= f) = f a := rfl

theorem Throws.bind_eq_ok {α β : Type} {x : Throws α} {f : α → Throws β} {b : β} :
    (x >>= f) = .ok b ↔ ∃ a, x = .ok a ∧ f a = .ok b := by
  constructor
  · intro returned
    cases x with
    | error what => cases returned
    | ok a => exact ⟨a, rfl, returned⟩
  · rintro ⟨a, rfl, returned⟩
    exact returned

structure Nlohmann where
  parse : Bytes → Throws Value
  /-- `dump` without indentation, bytes that are not UTF-8 replaced. -/
  dump : Value → Bytes
  /-- What `at` throws for a key that is not there. -/
  atError : Value → Bytes → Bytes
  /-- What `get` throws for a value that is not of the named type. -/
  typeError : Value → Bytes → Bytes
  /-- The cast of a number with a fraction to a word; one that does not fit has no defined value. -/
  castFloat : Rat → UInt64

namespace Nlohmann

/-- A flat object is parsed as it was dumped. -/
def Lawful (lib : Nlohmann) : Prop := ∀ document, Flat document → lib.parse (lib.dump document) = .ok document

variable (lib : Nlohmann)

/-- `at`. -/
def member (document : Value) (key : Bytes) : Throws Value :=
  match document.find? key with
  | some value => .ok value
  | none => .error (lib.atError document key)

/-- `get<std::string>`. -/
def getString : Value → Throws Bytes
  | .string s => .ok s
  | value => .error (lib.typeError value (ascii "string"))

/-- `get<std::uint64_t>`. -/
def getUnsigned : Value → Throws UInt64
  | .numberUnsigned n => .ok n
  | .numberInteger i => .ok i.toUInt64
  | .numberFloat q => .ok (lib.castFloat q)
  | value => .error (lib.typeError value (ascii "number"))

end Nlohmann

/-- The types with a `to_json` and a `from_json`. -/
class JsonValue (α : Type) where
  toJson : α → Value
  fromJson : Nlohmann → Value → Throws α
  from_to : ∀ lib value, fromJson lib (toJson value) = .ok value

instance : JsonValue Bytes where
  toJson := .string
  fromJson := Nlohmann.getString
  from_to _ _ := rfl

/-- A strong type over a word. -/
instance : JsonValue UInt64 where
  toJson := .numberUnsigned
  fromJson := Nlohmann.getUnsigned
  from_to _ _ := rfl

def FixedString.fromJson (n : Nat) (lib : Nlohmann) (value : Value) : Throws (FixedString n) := do
  let text ← lib.getString value
  match fromView n text with
  | .ok parsed => .ok parsed
  | .error _ => .error (ascii "fixed_string out of bounds")

instance (n : Nat) : JsonValue (FixedString n) where
  toJson text := .string text.content
  fromJson := FixedString.fromJson n
  from_to lib text := by
    change (match FixedString.fromView n text.content with
      | .ok parsed => Except.ok parsed
      | .error _ => .error (ascii "fixed_string out of bounds")) = .ok text
    rw [FixedString.fromView_content]

export JsonValue (toJson fromJson)

/-- `to_json` of a `std::optional`. -/
def optionalToJson {α : Type} [JsonValue α] : Option α → Value
  | some value => toJson value
  | none => .null

end DemoExchange.Lab
