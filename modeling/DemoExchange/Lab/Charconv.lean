import DemoExchange.Lab.Error

/-!
# Numbers from text

`lab/charconv.hpp`. `std::from_chars` on an unsigned type reads the digits at
the front of its input and fails where there are none or where the number does
not fit; `lab::from_chars` also fails where something is left.
-/

namespace DemoExchange.Lab
set_option autoImplicit false
open Text

/-- `lab::from_chars<T>` with `charconv::match_type::exact`, for an unsigned `T` of `size` values. -/
def fromChars (size : Nat) (view : Bytes) : Result Nat :=
  let digits := view.takeWhile isDigit
  if digits = [] ∨ size ≤ value digits then
    makeLeafError .invalidArgument (ascii "can't convert string \"" ++ view ++ ascii "\" to integer")
  else
    let rest := view.dropWhile isDigit
    if rest ≠ [] then
      makeLeafError .invalidArgument (ascii "string \"" ++ view ++
        ascii "\" to integer with exact match has unmatched characters \"" ++ rest ++ ascii "\"")
    else .ok (value digits)

/-- `lab::from_chars<std::uint16_t>`. -/
def fromChars16 (view : Bytes) : Result UInt16 := (fromChars UInt16.size view).map UInt16.ofNat

/-- `lab::from_chars<std::uint64_t>`, and of a strong type over it. -/
def fromChars64 (view : Bytes) : Result UInt64 := (fromChars UInt64.size view).map UInt64.ofNat

/-- **What is accepted**: digits, of a number that fits. -/
theorem fromChars_eq_ok {size n : Nat} {view : Bytes} :
    fromChars size view = .ok n ↔ view ≠ [] ∧ (∀ b ∈ view, isDigit b = true) ∧ value view < size ∧ n = value view := by
  constructor
  · intro read
    simp only [fromChars] at read
    split at read
    · cases read
    · rename_i fits
      split at read
      · cases read
      · rename_i exact
        have digits : ∀ b ∈ view, isDigit b = true := List.dropWhile_eq_nil_iff.1 (not_not.1 exact)
        rw [List.takeWhile_eq_self_iff.2 digits, not_or, Nat.not_le] at fits
        rw [List.takeWhile_eq_self_iff.2 digits] at read
        exact ⟨fits.1, digits, fits.2, (Except.ok.inj read).symm⟩
  · rintro ⟨some, digits, fits, rfl⟩
    have whole : view.takeWhile isDigit = view := List.takeWhile_eq_self_iff.2 digits
    have rest : view.dropWhile isDigit = [] := List.dropWhile_eq_nil_iff.2 digits
    simp only [fromChars, whole, rest, ne_eq, not_true_eq_false, if_false]
    exact if_neg (not_or.2 ⟨some, Nat.not_le.2 fits⟩)

theorem fromChars16_eq_ok {n : UInt16} {view : Bytes} :
    fromChars16 view = .ok n ↔
      view ≠ [] ∧ (∀ b ∈ view, isDigit b = true) ∧ value view ≤ 65535 ∧ n = UInt16.ofNat (value view) := by
  rw [fromChars16]
  cases read : fromChars UInt16.size view with
  | error e =>
    constructor
    · intro none
      cases none
    · rintro ⟨some, digits, fits, -⟩
      rw [fromChars_eq_ok.2 ⟨some, digits, Nat.lt_succ_of_le fits, rfl⟩] at read
      cases read
  | ok m =>
    obtain ⟨some, digits, fits, rfl⟩ := fromChars_eq_ok.1 read
    constructor
    · intro same
      exact ⟨some, digits, Nat.le_of_lt_succ fits, (Except.ok.inj same).symm⟩
    · rintro ⟨-, -, -, rfl⟩
      rfl

theorem fromChars_decimal {size n : Nat} (fits : n < size) : fromChars size (decimal n) = .ok n := by
  refine fromChars_eq_ok.2 ⟨decimal_ne_nil n, isDigit_decimal n, ?_, (value_decimal n).symm⟩
  rwa [value_decimal]

/-- **A printed word** reads as itself. -/
@[simp] theorem fromChars16_decimal (n : UInt16) : fromChars16 (decimal n.toNat) = .ok n := by
  rw [fromChars16, fromChars_decimal n.toNat_lt_size]
  exact congrArg Except.ok UInt16.ofNat_toNat

@[simp] theorem fromChars64_decimal (n : UInt64) : fromChars64 (decimal n.toNat) = .ok n := by
  rw [fromChars64, fromChars_decimal n.toNat_lt_size]
  exact congrArg Except.ok UInt64.ofNat_toNat

end DemoExchange.Lab
