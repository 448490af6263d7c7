import Mathlib.Data.Option.Basic

/-!
# Interleavings of labelled steps

Several parties share a state; each of their atomic steps is an action, which
`step` may not allow in a state. An interleaving is a list of actions, run by
`exec`. `exec_invariant` is the induction rule for what holds after every
interleaving, and `Reaches` says that some interleaving leads to a state.
-/

namespace Interleaving
set_option autoImplicit false

variable {S A : Type} {step : S → A → Option S} {s s' s'' : S}

/-- The state after some actions, each of them allowed where it comes. -/
def exec (step : S → A → Option S) : S → List A → Option S
  | s, [] => some s
  | s, a :: actions => (step s a).bind fun s => exec step s actions

theorem exec_append (actions more : List A) : exec step s (actions ++ more) = (exec step s actions).bind fun s => exec step s more := by
  induction actions generalizing s with
  | nil => rfl
  | cons a actions ih =>
    rw [List.cons_append, exec, exec, Option.bind_assoc]
    exact congrArg _ (funext fun s => ih)

/-- **Invariants.** What holds at first and is kept by each action holds after any interleaving. -/
theorem exec_invariant {P : S → Prop} (start : P s) (keeps : ∀ s a s', P s → step s a = some s' → P s') :
    ∀ {actions : List A}, exec step s actions = some s' → P s' := by
  intro actions ran
  induction actions generalizing s with
  | nil => exact Option.some.inj ran ▸ start
  | cons a actions ih =>
    obtain ⟨next, stepped, ran⟩ := Option.bind_eq_some_iff.1 ran
    exact ih (keeps s a next start stepped) ran

/-- Some interleaving leads from one state to the other. -/
def Reaches (step : S → A → Option S) (s s' : S) : Prop := ∃ actions, exec step s actions = some s'

theorem Reaches.refl : Reaches step s s := ⟨[], rfl⟩

theorem Reaches.trans (first : Reaches step s s') (later : Reaches step s' s'') : Reaches step s s'' := by
  obtain ⟨actions, ran⟩ := first
  obtain ⟨more, ran'⟩ := later
  exact ⟨actions ++ more, by rw [exec_append, ran]; exact ran'⟩

theorem Reaches.head {a : A} (stepped : step s a = some s') (later : Reaches step s' s'') : Reaches step s s'' := by
  obtain ⟨actions, ran⟩ := later
  exact ⟨a :: actions, by rw [exec, stepped]; exact ran⟩

theorem Reaches.single {a : A} (stepped : step s a = some s') : Reaches step s s' := .head stepped .refl

/-- **Simulation.** Where each action of a system is matched by some actions of
what is seen of it, so is every interleaving. -/
theorem exec_simulates {T B : Type} {step' : T → B → Option T} (view : S → T)
    (matched : ∀ s a s', step s a = some s' → Reaches step' (view s) (view s')) :
    ∀ {actions : List A}, exec step s actions = some s' → Reaches step' (view s) (view s') :=
  exec_invariant (P := fun s' => Reaches step' (view s) (view s')) .refl
    fun t a t' reached stepped => reached.trans (matched t a t' stepped)

end Interleaving
