import DemoExchange.Lib.Text

/-!
# Results

`lab/error_code.hpp` and `lab/error.hpp`. A `lab::result<T>` is a `Result T`;
an error is the value of its `std::error_code`, which is unique across the
libraries, and its text. Where an error was made (`std::source_location`) is
left out.
-/

namespace DemoExchange.Lab
set_option autoImplicit false
open Text

inductive ErrorCode where
  | genericError
  | invalidArgument
  | outOfBounds
  | alreadyInProgress
  | notImplemented
  | configurationError
  deriving DecidableEq, Repr

/-- The value of the enumerator. -/
def ErrorCode.value : ErrorCode → Nat
  | .genericError => 101001
  | .invalidArgument => 101004
  | .outOfBounds => 101007
  | .alreadyInProgress => 101008
  | .notImplemented => 101009
  | .configurationError => 101011

structure Error where
  errorCode : Nat
  what : Bytes
  deriving DecidableEq, Repr

abbrev Result (α : Type) := Except Error α

/-- `make_leaf_error` of a code and a text. -/
def makeLeafError {α : Type} (ec : ErrorCode) (text : Bytes) : Result α := .error ⟨ec.value, text⟩

@[simp] theorem Result.ok_bind {α β : Type} (a : α) (f : α → Result β) : (Except.ok a >>= f) = f a := rfl

theorem Result.bind_eq_ok {α β : Type} {x : Result α} {f : α → Result β} {b : β} :
    (x >>= f) = .ok b ↔ ∃ a, x = .ok a ∧ f a = .ok b := by
  constructor
  · intro returned
    cases x with
    | error e => cases returned
    | ok a => exact ⟨a, rfl, returned⟩
  · rintro ⟨a, rfl, returned⟩
    exact returned

end DemoExchange.Lab
