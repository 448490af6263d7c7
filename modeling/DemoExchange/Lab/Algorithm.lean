import DemoExchange.Lib.Text
import Mathlib.Data.List.DropRight

/-!
# Trimming

`lab/algorithm.hpp`: `ltrim`, `rtrim` and `trim`.
-/

namespace DemoExchange.Lab
set_option autoImplicit false
open Text

def asciiWhitespace : Bytes := ascii " \t\r\n"

/-- From the first character that is none of `chars`. -/
def ltrim (view chars : Bytes) : Bytes := view.dropWhile fun b => b ∈ chars

/-- Up to the last character that is none of `chars`. -/
def rtrim (view chars : Bytes) : Bytes := view.rdropWhile fun b => b ∈ chars

def trim (view chars : Bytes) : Bytes := rtrim (ltrim view chars) chars

section Trimming

variable {view chars : Bytes}

theorem ltrim_eq_nil : ltrim view chars = [] ↔ ∀ b ∈ view, b ∈ chars := by
  simp [ltrim, List.dropWhile_eq_nil_iff]

theorem rtrim_eq_nil : rtrim view chars = [] ↔ ∀ b ∈ view, b ∈ chars := by
  simp [rtrim, List.rdropWhile_eq_nil_iff]

/-- What is cut off on the left leaves a view that starts with another character. -/
theorem ltrim_cons {b : UInt8} {rest : Bytes} (cut : ltrim view chars = b :: rest) : b ∉ chars := by
  have stops := List.head?_dropWhile_not (fun b => decide (b ∈ chars)) view
  rw [show view.dropWhile (fun b => decide (b ∈ chars)) = b :: rest from cut] at stops
  simpa using stops

/-- **Nothing is left** of a view that has no other characters. -/
theorem trim_eq_nil : trim view chars = [] ↔ ∀ b ∈ view, b ∈ chars := by
  rw [trim, rtrim_eq_nil]
  cases cut : ltrim view chars with
  | nil => exact iff_of_true (List.forall_mem_nil _) (ltrim_eq_nil.1 cut)
  | cons b rest =>
    refine iff_of_false (fun all => ltrim_cons cut (all b List.mem_cons_self)) fun all => ?_
    rw [ltrim_eq_nil.2 all] at cut
    cases cut

end Trimming

end DemoExchange.Lab
