import Mathlib.Data.List.Induction

/-!
# Runs of a fallible step and of the machine it refines

`run` folds a step that can fault over a list of inputs and keeps what each
input answered; `drive` is the same fold of a total machine. `run_refines`
carries a simulation of one step to whole runs, `drive_rule` is the
induction rule for a statement about the state reached and everything
answered on the way, and `drive_purge` compares a run with the run of some of
its inputs.
-/

namespace Run
set_option autoImplicit false

variable {S A I O E : Type}

/-- The state after `is` and, for each input, what the step answered. -/
def run (step : S → I → Except E (S × O)) : S → List I → Except E (S × List (I × O))
  | s, [] => .ok (s, [])
  | s, i :: is =>
    match step s i with
    | .error e => .error e
    | .ok (s', o) =>
      match run step s' is with
      | .error e => .error e
      | .ok (s'', tr) => .ok (s'', (i, o) :: tr)

/-- One more input that does not fault. -/
theorem run_snoc {step : S → I → Except E (S × O)} {s s' s'' : S} {is : List I} {tr : List (I × O)} {i : I} {o : O}
    (ran : run step s is = .ok (s', tr)) (stepped : step s' i = .ok (s'', o)) :
    run step s (is ++ [i]) = .ok (s'', tr ++ [(i, o)]) := by
  induction is generalizing s tr with
  | nil =>
    obtain ⟨rfl, rfl⟩ := Prod.mk.inj (Except.ok.inj ran)
    simp only [List.nil_append, run, stepped]
  | cons j is ih =>
    rw [List.cons_append, run]
    rw [run] at ran
    cases first : step s j with
    | error e =>
      rw [first] at ran
      cases ran
    | ok answered =>
      rw [first] at ran
      cases rest : run step answered.1 is with
      | error e =>
        simp only [rest] at ran
        cases ran
      | ok later =>
        simp only [rest, Except.ok.injEq, Prod.mk.injEq] at ran
        obtain ⟨rfl, rfl⟩ := ran
        simp only [ih rest]
        rfl

/-- The run of a machine that cannot fault. -/
def drive (f : A → I → A × O) : A → List I → A × List (I × O)
  | a, [] => (a, [])
  | a, i :: is => ((drive f (f a i).1 is).1, (i, (f a i).2) :: (drive f (f a i).1 is).2)

theorem drive_append (f : A → I → A × O) (a : A) (is js : List I) :
    drive f a (is ++ js) =
      ((drive f (drive f a is).1 js).1, (drive f a is).2 ++ (drive f (drive f a is).1 js).2) := by
  induction is generalizing a with
  | nil => rfl
  | cons i is ih => simp only [List.cons_append, drive, ih]

/-- One more input extends the run by what the step answers to it. -/
theorem drive_snoc (f : A → I → A × O) (a : A) (is : List I) (i : I) :
    drive f a (is ++ [i]) =
      ((f (drive f a is).1 i).1, (drive f a is).2 ++ [(i, (f (drive f a is).1 i).2)]) := by
  rw [drive_append]
  rfl

/-- The answers of a run are listed under the inputs they answer. -/
theorem drive_inputs (f : A → I → A × O) (a : A) (is : List I) :
    (drive f a is).2.map Prod.fst = is := by
  induction is generalizing a with
  | nil => rfl
  | cons i is ih => simp only [drive, List.map_cons, ih]

/-- A run seen through a map of the states and of the answers. -/
theorem drive_map {B P : Type} {f : A → I → A × O} {f' : B → I → B × P} {g : A → B} {view : O → P}
    (step : ∀ a i, f' (g a) i = (g (f a i).1, view (f a i).2)) (a : A) (is : List I) :
    drive f' (g a) is = (g (drive f a is).1, (drive f a is).2.map (Prod.map id view)) := by
  induction is generalizing a with
  | nil => rfl
  | cons i is ih => simp only [drive, step, ih, List.map_cons, Prod.map, id]

/-- A step lemma for every allowed input is a statement about every run. -/
theorem drive_rule {f : A → I → A × O} {a : A} {P : A → List (I × O) → Prop} {Q : I → Prop}
    (start : P a []) (step : ∀ x tr i, P x tr → Q i → P (f x i).1 (tr ++ [(i, (f x i).2)])) :
    ∀ is, (∀ i ∈ is, Q i) → P (drive f a is).1 (drive f a is).2 := by
  intro is
  induction is using List.reverseRecOn with
  | nil => exact fun _ => start
  | append_singleton is i ih =>
    intro allowed
    rw [drive_snoc]
    exact step _ _ _ (ih fun j hj => allowed j (List.mem_append_left _ hj))
      (allowed i (List.mem_append_right _ (List.mem_singleton_self i)))

/-- What one more input keeps, every beginning of the inputs has. -/
theorem prefix_rule {P : List I → Prop} {is : List I} (start : P [])
    (step : ∀ before i, before ++ [i] <+: is → P before → P (before ++ [i])) : ∀ before, before <+: is → P before := by
  intro before
  induction before using List.reverseRecOn with
  | nil => exact fun _ => start
  | append_singleton before i ih => exact fun part => step before i part (ih ((List.prefix_append _ _).trans part))

/-- **Unwinding.** If inputs that are not seen keep the view of a state, and
seen inputs are answered alike in states of one view and lead to states of one
view, then leaving out the unseen inputs changes neither the answers to the
others nor the view reached. -/
theorem drive_purge {f : A → I → A × O} {seen : I → Bool} {Q : I → Prop} {Same : A → A → Prop}
    (unseen : ∀ a b i, Same a b → Q i → seen i = false → Same (f a i).1 b)
    (alike : ∀ a b i, Same a b → Q i → seen i = true → (f a i).2 = (f b i).2 ∧ Same (f a i).1 (f b i).1) :
    ∀ is a b, (∀ i ∈ is, Q i) → Same a b →
      (drive f a is).2.filter (fun entry => seen entry.1) = (drive f b (is.filter seen)).2 ∧
        Same (drive f a is).1 (drive f b (is.filter seen)).1 := by
  intro is
  induction is with
  | nil => exact fun a b _ same => ⟨rfl, same⟩
  | cons i is ih =>
    intro a b allowed same
    have here := allowed i List.mem_cons_self
    have later := fun j hj => allowed j (List.mem_cons_of_mem _ hj)
    cases visible : seen i with
    | false =>
      obtain ⟨answers, reached⟩ := ih (f a i).1 b later (unseen a b i same here visible)
      rw [List.filter_cons_of_neg (by simp [visible])]
      refine ⟨?_, reached⟩
      show ((i, (f a i).2) :: (drive f (f a i).1 is).2).filter _ = _
      rw [List.filter_cons_of_neg (by simp [visible]), answers]
    | true =>
      obtain ⟨answer, same'⟩ := alike a b i same here visible
      obtain ⟨answers, reached⟩ := ih (f a i).1 (f b i).1 later same'
      rw [List.filter_cons_of_pos visible]
      refine ⟨?_, reached⟩
      show ((i, (f a i).2) :: (drive f (f a i).1 is).2).filter _ =
        (i, (f b i).2) :: (drive f (f b i).1 (is.filter seen)).2
      rw [List.filter_cons_of_pos (by simp [visible]), answers, answer]

/-- **Simulation.** A step that never faults from related states and answers
as the machine does never faults in a run, and answers as the machine's run. -/
theorem run_refines {step : S → I → Except E (S × O)} {f : A → I → A × O} {R : S → A → Prop}
    (sim : ∀ s a i, R s a → ∃ s', step s i = .ok (s', (f a i).2) ∧ R s' (f a i).1) :
    ∀ is s a, R s a → ∃ s', run step s is = .ok (s', (drive f a is).2) ∧ R s' (drive f a is).1 := by
  intro is
  induction is with
  | nil => exact fun s a related => ⟨s, rfl, related⟩
  | cons i is ih =>
    intro s a related
    obtain ⟨s', stepped, related'⟩ := sim s a i related
    obtain ⟨s'', ran, related''⟩ := ih s' _ related'
    refine ⟨s'', ?_, related''⟩
    simp only [run, stepped, ran, drive]

end Run
