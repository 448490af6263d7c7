import DemoExchange.Lib.Run
import Mathlib.Logic.Relation

/-!
# A machine between two queues

Inputs are accepted into a queue, a machine handles them one by one, and the
messages in its answers pass through a second queue to where they are
published. `Step` leaves open which of the three happens next. Whatever the
order, nothing is lost, duplicated or overtaken (`run_exact`): what was
accepted is what was handled and what waits, and what the machine said is what
was published and what is in transit.
-/

namespace Pipeline
set_option autoImplicit false

variable {S I O M E : Type}

structure State (S I O M : Type) where
  accepted : List I
  waiting : List I
  machine : S
  answers : List (I × O)
  inTransit : List M
  published : List M

/-- Nothing has happened. -/
def start (machine : S) : State S I O M := ⟨[], [], machine, [], [], []⟩

variable {step : S → I → Except E (S × O)} {messages : O → List M}

inductive Step (step : S → I → Except E (S × O)) (messages : O → List M) : State S I O M → State S I O M → Prop
  | accept (p : State S I O M) (i : I) :
    Step step messages p { p with accepted := p.accepted ++ [i], waiting := p.waiting ++ [i] }
  | handle {p : State S I O M} {i : I} {rest : List I} {s : S} {o : O} (next : p.waiting = i :: rest)
      (stepped : step p.machine i = .ok (s, o)) :
    Step step messages p
      { p with waiting := rest, machine := s, answers := p.answers ++ [(i, o)], inTransit := p.inTransit ++ messages o }
  | publish {p : State S I O M} {m : M} {rest : List M} (next : p.inTransit = m :: rest) :
    Step step messages p { p with inTransit := rest, published := p.published ++ [m] }

/-- What each queue took in is what came out of it and what is still in it. -/
structure Exact (step : S → I → Except E (S × O)) (messages : O → List M) (machine : S) (p : State S I O M) : Prop where
  inputs : p.accepted = p.answers.map Prod.fst ++ p.waiting
  outputs : (p.answers.flatMap fun answer => messages answer.2) = p.published ++ p.inTransit
  handled : Run.run step machine (p.answers.map Prod.fst) = .ok (p.machine, p.answers)

theorem Exact.start (machine : S) : Exact step messages machine (Pipeline.start machine) := ⟨rfl, rfl, rfl⟩

/-- One step keeps the queues exact. -/
theorem Exact.after {machine : S} {p p' : State S I O M} (exact : Exact step messages machine p) (taken : Step step messages p p') :
    Exact step messages machine p' := by
  obtain ⟨inputs, outputs, handled⟩ := exact
  cases taken with
  | accept i => exact ⟨by rw [inputs, List.append_assoc], outputs, handled⟩
  | handle next stepped =>
    refine ⟨?_, ?_, ?_⟩
    · simp only [inputs, next, List.map_append, List.map_cons, List.map_nil, List.append_assoc, List.singleton_append]
    · simp only [outputs, List.flatMap_append, List.flatMap_cons, List.flatMap_nil, List.append_nil, List.append_assoc]
    · rw [List.map_append]
      exact Run.run_snoc handled stepped
  | publish next => exact ⟨inputs, by rw [outputs, next, List.append_assoc, List.singleton_append], handled⟩

/-- **Exactness.** No order of steps loses, duplicates or reorders anything. -/
theorem run_exact {machine : S} {p : State S I O M} (ran : Relation.ReflTransGen (Step step messages) (start machine) p) :
    Exact step messages machine p := by
  induction ran with
  | refl => exact .start machine
  | tail _ taken ih => exact ih.after taken

end Pipeline
