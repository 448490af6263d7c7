import DemoExchange.Lib.Interleaving
import Mathlib.Order.WellFounded

/-!
# Endless interleavings and weak fairness

A trace goes on for ever; in each moment it takes an action or none. It is fair
to a party when the party acts again and again, unless again and again it
cannot. `Progress.leads` is the rule for what a fair trace comes to: in every
state on the way it is the turn of one party, which can act, and a measure goes
down at the latest when that party does.
-/

namespace Interleaving
set_option autoImplicit false

variable {S A : Type} {step : S → A → Option S}

/-- A moment of a trace. -/
def move (step : S → A → Option S) (s : S) : Option A → Option S
  | some a => step s a
  | none => some s

/-- An endless interleaving. -/
structure Trace (step : S → A → Option S) where
  state : Nat → S
  act : Nat → Option A
  moves : ∀ i, move step (state i) (act i) = some (state (i + 1))

/-- One of a party's actions is allowed. What is whose may depend on the state. -/
def Can (step : S → A → Option S) (mine : S → A → Prop) (s : S) : Prop := ∃ a s', mine s a ∧ step s a = some s'

namespace Trace

variable {trace : Trace step} {mine : S → A → Prop}

/-- **Weak fairness.** At no time has the party acted for the last time while it can act ever after. -/
def Fair (trace : Trace step) (mine : S → A → Prop) : Prop :=
  ∀ i, ∃ j, i ≤ j ∧ ((∃ a, trace.act j = some a ∧ mine (trace.state j) a) ∨ ¬Can step mine (trace.state j))

/-- A moment is a step or changes nothing. -/
theorem moved (trace : Trace step) (i : Nat) :
    (∃ a, trace.act i = some a ∧ step (trace.state i) a = some (trace.state (i + 1))) ∨
      trace.act i = none ∧ trace.state (i + 1) = trace.state i := by
  have moves := trace.moves i
  cases act : trace.act i with
  | some a =>
    rw [act] at moves
    exact .inl ⟨a, rfl, moves⟩
  | none =>
    rw [act] at moves
    exact .inr ⟨rfl, (Option.some.inj moves).symm⟩

/-- What a trace comes to, some interleaving does. -/
theorem reaches (trace : Trace step) {i j : Nat} (later : i ≤ j) : Reaches step (trace.state i) (trace.state j) := by
  induction j, later using Nat.le_induction with
  | base => exact .refl
  | succ j later ih =>
    obtain ⟨a, -, stepped⟩ | ⟨-, same⟩ := trace.moved j
    · exact ih.trans (.single stepped)
    · exact same ▸ ih

/-- What every step extends, a trace extends. -/
theorem grows {α : Type} {log : S → List α} (extends' : ∀ s a s', step s a = some s' → log s <+: log s') (trace : Trace step)
    {i j : Nat} (later : i ≤ j) : log (trace.state i) <+: log (trace.state j) := by
  induction j, later using Nat.le_induction with
  | base => exact List.prefix_rfl
  | succ j later ih =>
    obtain ⟨a, -, stepped⟩ | ⟨-, same⟩ := trace.moved j
    · exact ih.trans (extends' _ _ _ stepped)
    · exact same ▸ ih

end Trace

section Progress

variable {Party W : Type} {mine : Party → S → A → Prop} {P Q : S → Prop} {turn : S → Party} {measure : S → W}

/-- Why a system that is in `P` comes to `Q`. The party whose turn it is can
act. No step makes the measure larger; one that keeps it is another party's,
and leaves the turn where it is. -/
structure Progress [LT W] (step : S → A → Option S) (mine : Party → S → A → Prop) (P Q : S → Prop) (turn : S → Party)
    (measure : S → W) : Prop where
  can : ∀ s, P s → ¬Q s → Can step (mine (turn s)) s
  steps : ∀ s a s', P s → ¬Q s → step s a = some s' →
    Q s' ∨ P s' ∧ (measure s' < measure s ∨ measure s' = measure s ∧ turn s' = turn s ∧ ¬mine (turn s) s a)

/-- As long as `Q` is not reached and the measure has not gone down, it is the same party's turn. -/
theorem Progress.waits [LT W] (progress : Progress step mine P Q turn measure) (trace : Trace step) {i : Nat}
    (here : P (trace.state i)) {j : Nat} (later : i ≤ j) :
    (∃ k, i ≤ k ∧ (Q (trace.state k) ∨ P (trace.state k) ∧ measure (trace.state k) < measure (trace.state i))) ∨
      P (trace.state j) ∧ measure (trace.state j) = measure (trace.state i) ∧ turn (trace.state j) = turn (trace.state i) := by
  induction j, later using Nat.le_induction with
  | base => exact .inr ⟨here, rfl, rfl⟩
  | succ j later ih =>
    obtain found | ⟨there, level, whose⟩ := ih
    · exact .inl found
    · obtain ⟨a, -, stepped⟩ | ⟨-, same⟩ := trace.moved j
      · by_cases reached : Q (trace.state j)
        · exact .inl ⟨j, later, .inl reached⟩
        · obtain reached | ⟨next, less | ⟨equal, kept, -⟩⟩ := progress.steps _ a _ there reached stepped
          · exact .inl ⟨j + 1, Nat.le_succ_of_le later, .inl reached⟩
          · exact .inl ⟨j + 1, Nat.le_succ_of_le later, .inr ⟨next, level ▸ less⟩⟩
          · exact .inr ⟨next, equal.trans level, kept.trans whose⟩
      · rw [same]
        exact .inr ⟨there, level, whose⟩

/-- **Progress.** A trace that is in `P`, and fair to the parties whose turn it may be there, comes to `Q`. -/
theorem Progress.leads [LT W] [WellFoundedLT W] (progress : Progress step mine P Q turn measure) {trace : Trace step}
    (fair : ∀ s, P s → trace.Fair (mine (turn s))) {i : Nat} (here : P (trace.state i)) : ∃ j, i ≤ j ∧ Q (trace.state j) := by
  generalize level : measure (trace.state i) = w
  induction w using WellFoundedLT.induction generalizing i with
  | ind w ih =>
    have further : (∃ k, i ≤ k ∧ (Q (trace.state k) ∨ P (trace.state k) ∧ measure (trace.state k) < measure (trace.state i))) →
        ∃ j, i ≤ j ∧ Q (trace.state j) := by
      rintro ⟨k, later, reached | ⟨there, less⟩⟩
      · exact ⟨k, later, reached⟩
      · obtain ⟨j, later', reached⟩ := ih _ (level ▸ less) there rfl
        exact ⟨j, later.trans later', reached⟩
    -- the party whose turn it is acts at `j`, if nothing has changed by then
    obtain ⟨j, later, acts⟩ := fair _ here i
    obtain found | ⟨there, equal, whose⟩ := progress.waits trace here later
    · exact further found
    · by_cases reached : Q (trace.state j)
      · exact ⟨j, later, reached⟩
      · rw [← whose] at acts
        obtain ⟨a, act, own⟩ | cannot := acts
        · obtain ⟨b, act', stepped⟩ | ⟨act', -⟩ := trace.moved j
          · obtain rfl := Option.some.inj (act.symm.trans act')
            refine further ⟨j + 1, Nat.le_succ_of_le later, ?_⟩
            obtain reached | ⟨next, less | ⟨-, -, other⟩⟩ := progress.steps _ a _ there reached stepped
            · exact .inl reached
            · exact .inr ⟨next, equal ▸ less⟩
            · exact absurd own other
          · rw [act] at act'
            cases act'
        · exact absurd (progress.can _ there reached) cannot

end Progress

section Ending

variable {s s' : S} {actions : List A}

/-- The beginnings of an interleaving are interleavings. -/
theorem exec_take (ran : exec step s actions = some s') (i : Nat) :
    ∃ t, exec step s (actions.take i) = some t ∧ exec step t (actions.drop i) = some s' := by
  rw [← List.take_append_drop i actions, exec_append] at ran
  exact Option.bind_eq_some_iff.1 ran

/-- An interleaving after which nothing happens. -/
def Trace.ending (ran : exec step s actions = some s') : Trace step where
  state i := (exec step s (actions.take i)).getD s'
  act i := actions[i]?
  moves i := by
    obtain ⟨t, here, rest⟩ := exec_take ran i
    cases act : actions[i]? with
    | none =>
      have done : actions.length ≤ i := List.getElem?_eq_none_iff.1 act
      rw [List.take_of_length_le done, List.take_of_length_le (Nat.le_succ_of_le done), ran]
      rfl
    | some a =>
      obtain ⟨inside, same⟩ := List.getElem?_eq_some_iff.1 act
      obtain ⟨t', next, -⟩ := exec_take ran (i + 1)
      rw [next, here]
      rw [List.take_add_one, act, exec_append, here] at next
      simpa [exec, move] using next

theorem Trace.ending_last (ran : exec step s actions = some s') {i : Nat} (done : actions.length ≤ i) :
    (Trace.ending ran).state i = s' := by
  show (exec step s (actions.take i)).getD s' = s'
  rw [List.take_of_length_le done, ran]
  rfl

/-- It is fair to a party that cannot act any more. -/
theorem Trace.ending_fair (ran : exec step s actions = some s') {mine : S → A → Prop} (cannot : ¬Can step mine s') :
    (Trace.ending ran).Fair mine :=
  fun i => ⟨i + actions.length, Nat.le_add_right _ _, .inr (by rwa [Trace.ending_last ran (Nat.le_add_left _ _)])⟩

end Ending

end Interleaving
