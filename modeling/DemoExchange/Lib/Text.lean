import Mathlib.Data.List.TakeWhile
import Mathlib.Data.UInt

/-!
# Text as bytes

A text is its bytes. `decimal` prints a natural number without leading zeros
and `value` reads a run of digits; reading what was printed gives the number
back. `Text.records` cuts a text at a delimiter and drops the empty pieces.
-/

namespace Text
set_option autoImplicit false

abbrev Bytes := List UInt8

/-- An ASCII text. -/
def ascii (s : String) : Bytes := s.toList.map Char.toUInt8

section Decimal

def isDigit (b : UInt8) : Bool := '0'.toUInt8 ≤ b ∧ b ≤ '9'.toUInt8

/-- A number in decimal. -/
def decimal (n : Nat) : Bytes := (Nat.toDigits 10 n).map Char.toUInt8

/-- The number that a run of digits stands for. -/
def value (digits : Bytes) : Nat := digits.foldl (fun n b => 10 * n + (b.toNat - '0'.toUInt8.toNat)) 0

theorem decimal_ne_nil (n : Nat) : decimal n ≠ [] := by
  rw [decimal, ne_eq, List.map_eq_nil_iff]
  exact Nat.toDigits_ne_nil

theorem digit_bounds {c : Char} (digit : c.isDigit) : 48 ≤ c.toNat ∧ c.toNat ≤ 57 := by
  simp only [Char.isDigit, ge_iff_le, Bool.and_eq_true, decide_eq_true_eq, UInt32.le_iff_toNat_le] at digit
  exact digit

theorem toUInt8_digit {c : Char} (digit : c.isDigit) : c.toUInt8.toNat = c.toNat := by
  have bounds := digit_bounds digit
  rw [Char.toUInt8, UInt32.toNat_toUInt8]
  exact Nat.mod_eq_of_lt (by unfold Char.toNat at bounds; omega)

theorem digits_of_decimal (n : Nat) : ∀ c ∈ Nat.toDigits 10 n, c.isDigit :=
  fun _ => Nat.isDigit_of_mem_toDigits (by decide) (by decide)

theorem isDigit_decimal (n : Nat) : ∀ b ∈ decimal n, isDigit b = true := by
  intro b hb
  obtain ⟨c, hc, rfl⟩ := List.mem_map.1 hb
  have digit := digits_of_decimal n c hc
  have bounds := digit_bounds digit
  simp only [isDigit, decide_eq_true_eq, UInt8.le_iff_toNat_le, toUInt8_digit digit]
  exact bounds

theorem value_digits {digits : List Char} (all : ∀ c ∈ digits, c.isDigit) :
    value (digits.map Char.toUInt8) = Nat.ofDigitChars 10 digits 0 := by
  rw [value, List.foldl_map, Nat.ofDigitChars]
  refine List.foldl_ext _ _ _ fun n c hc => ?_
  rw [toUInt8_digit (all c hc)]
  rfl

/-- **Reading a printed number** gives it back. -/
theorem value_decimal (n : Nat) : value (decimal n) = n := by
  rw [decimal, value_digits (digits_of_decimal n)]
  exact Nat.ofDigitChars_ten_toDigits

end Decimal

section Records

variable {α : Type} [DecidableEq α] {d : α} {record text : List α}

/-- What lies between the delimiters, without the empty pieces. -/
def records (d : α) (text : List α) : List (List α) := (text.splitOn d).filter (· ≠ [])

@[simp] theorem records_nil : records d [] = [] := rfl

theorem not_mem_splitOn : ∀ piece ∈ text.splitOn d, d ∉ piece := by
  induction text with
  | nil => simp
  | cons b text ih =>
    rw [List.splitOn_cons_eq_if_modifyHead]
    split
    · exact List.forall_mem_cons.2 ⟨List.not_mem_nil, ih⟩
    · rename_i other
      obtain ⟨first, rest, pieces⟩ := List.exists_cons_of_ne_nil (List.splitOn_ne_nil d text)
      rw [pieces] at ih ⊢
      obtain ⟨ihFirst, ihRest⟩ := List.forall_mem_cons.1 ih
      refine List.forall_mem_cons.2 ⟨fun member => ?_, ihRest⟩
      rcases List.mem_cons.1 member with rfl | member
      · exact other (beq_self_eq_true _)
      · exact ihFirst member

/-- A record is not empty and has no delimiter in it. -/
theorem mem_records (member : record ∈ records d text) : record ≠ [] ∧ d ∉ record := by
  obtain ⟨piece, some⟩ := List.mem_filter.1 member
  exact ⟨of_decide_eq_true some, not_mem_splitOn record piece⟩

theorem records_append (apart : d ∉ record) (rest : List α) :
    records d (record ++ d :: rest) = if record = [] then records d rest else record :: records d rest := by
  rw [records, List.splitOn_append_cons_self_of_not_mem apart, List.filter_cons]
  by_cases empty : record = [] <;> simp [empty, records]

theorem records_single (apart : d ∉ text) : records d text = if text = [] then [] else [text] := by
  rw [records, List.splitOn_eq_singleton apart]
  by_cases empty : text = [] <;> simp [empty]

/-- **The first record** is what comes before the first delimiter. -/
theorem records_first (text : List α) :
    records d text = (if text.takeWhile (· ≠ d) = [] then [] else [text.takeWhile (· ≠ d)]) ++
      records d (text.dropWhile (· ≠ d)).tail := by
  have apart : d ∉ text.takeWhile (· ≠ d) := fun member => by simpa using List.mem_takeWhile_imp member
  have whole := List.takeWhile_append_dropWhile (p := (· ≠ d)) (l := text)
  cases rest : text.dropWhile (· ≠ d) with
  | nil =>
    rw [rest, List.append_nil] at whole
    rw [whole] at apart
    rw [whole, records_single apart]
    simp
  | cons b rest' =>
    have delimiter : b = d := by
      have stops := List.head?_dropWhile_not (· ≠ d) text
      rw [rest] at stops
      simpa using stops
    rw [rest, delimiter] at whole
    conv_lhs => rw [← whole, records_append apart]
    split <;> simp

end Records

end Text
