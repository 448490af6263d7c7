import DemoExchange.Lib.Run

/-!
# Stages of a stream

A stage turns what it has read into what it writes. It is `Causal` when it
never takes back what it wrote: reading on only adds to the end. Causal stages
compose, so what the last of a chain has written, while each of them may lag
behind the one before, is the beginning of what the chain as a whole makes of
its input (`Causal.lags`).
-/

namespace Stages
set_option autoImplicit false

variable {α β γ : Type}

/-- More input adds to the end of the output. -/
def Causal (f : List α → List β) : Prop := ∀ input more, input <+: more → f input <+: f more

theorem Causal.comp {g : List β → List γ} {f : List α → List β} (later : Causal g) (first : Causal f) : Causal (g ∘ f) :=
  fun input more part => later _ _ (first input more part)

/-- A stage that writes something for each thing it reads. -/
theorem causal_flatMap (f : α → List β) : Causal (List.flatMap f) := by
  rintro input _ ⟨rest, rfl⟩
  rw [List.flatMap_append]
  exact List.prefix_append _ _

/-- A machine answers each input once and for all. -/
theorem causal_drive {A I O : Type} (step : A → I → A × O) (a : A) : Causal fun inputs => (Run.drive step a inputs).2 := by
  rintro input _ ⟨rest, rfl⟩
  simp only [Run.drive_append]
  exact List.prefix_append _ _

/-- **A stage that lags behind.** What was written of what was read so far is
the beginning of what there is to write. -/
theorem Causal.lags {f : List α → List β} (causal : Causal f) {read offered : List α} {written : List β} (behind : read <+: offered)
    (wrote : written <+: f read) : written <+: f offered := wrote.trans (causal read offered behind)

end Stages
