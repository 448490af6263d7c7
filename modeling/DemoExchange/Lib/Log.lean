import Mathlib.Data.List.Induction

/-!
# Statements about every entry of a log

`Each P log` says that every entry of the log satisfies `P` of what was logged
before it. A log grows at its end, so `Each` is built one entry at a time.
-/

namespace Log
set_option autoImplicit false

variable {α β : Type} {P : List α → α → Prop} {log : List α} {a : α}

def Each (P : List α → α → Prop) (log : List α) : Prop :=
  ∀ before a after, log = before ++ a :: after → P before a

theorem Each.nil : Each P [] := by
  intro before a after split
  cases before <;> cases split

theorem Each.snoc (h : Each P log) (here : P log a) : Each P (log ++ [a]) := by
  intro before b after split
  obtain rfl | ⟨after', c, rfl⟩ := List.eq_nil_or_concat after
  · obtain ⟨rfl, same⟩ := List.append_inj' split rfl
    cases same
    exact here
  · rw [List.concat_eq_append, ← List.cons_append, ← List.append_assoc] at split
    exact h before b after' (List.append_inj' split rfl).1

/-- Entries that satisfy `P` whatever is before them may be appended freely. -/
theorem Each.append_of_forall (h : Each P log) : ∀ {entries : List α}, (∀ a ∈ entries, ∀ before, P before a) →
    Each P (log ++ entries) := by
  intro entries free
  induction entries using List.reverseRecOn with
  | nil => rwa [List.append_nil]
  | append_singleton entries a ih =>
    rw [← List.append_assoc]
    have before := ih fun b hb => free b (List.mem_append_left _ hb)
    exact before.snoc (free a (List.mem_append_right _ (List.mem_singleton_self a)) _)

/-- A log read through a view. -/
theorem Each.of_map {view : α → β} {Q : List β → β → Prop} (h : Each Q (log.map view))
    (same : ∀ before a, Q (before.map view) (view a) → P before a) : Each P log := by
  intro before a after split
  refine same before a (h _ _ (after.map view) ?_)
  rw [split, List.map_append, List.map_cons]

end Log
