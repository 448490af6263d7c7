import DemoExchange.Lab.Error

/-!
# The text of a `lab::fixed_string`

Two `fixed_string<N>` compare equal when their length-prefixed contents do, so
where only the value matters a `fixed_string<N>` is its content: at most `N`
bytes.
-/

namespace DemoExchange.Lab
set_option autoImplicit false

/-- The content of a `fixed_string<N>`. -/
structure FixedString (n : Nat) where
  content : List UInt8
  bounded : content.length ≤ n
  deriving DecidableEq, Repr

/-- `from` of a `std::string_view`. -/
def FixedString.fromView (n : Nat) (sv : Text.Bytes) : Result (FixedString n) :=
  if fits : sv.length ≤ n then .ok ⟨sv, fits⟩ else makeLeafError .outOfBounds (Text.ascii "max size exceeded")

@[simp] theorem FixedString.fromView_content {n : Nat} (text : FixedString n) : fromView n text.content = .ok text := dif_pos text.bounded

instance (n : Nat) (text : FixedString n) (texts : List (FixedString n)) : Decidable (text ∈ texts) := inferInstance

end DemoExchange.Lab
