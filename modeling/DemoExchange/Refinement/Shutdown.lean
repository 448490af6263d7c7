import DemoExchange.Refinement.Pipeline
import DemoExchange.Refinement.Runs

/-!
# A way out of every state

A loop that was told to stop can be run to its exit by its own steps, and a
task of the pipeline can always be finished: the queues take every post and the
engine answers every request. So `stop` is never blocked for good.
-/

namespace DemoExchange.Refinement
set_option autoImplicit false
open Lab OrderEntry MatchingEngine Server Interleaving

section Exit

variable {S A τ : Type} {step : S → A → Option S} {P : S → Prop} {get : S → EventLoop τ}

/-- A system that holds a stopped loop, lets its consumer take its steps, and can finish its tasks. -/
structure Lets (step : S → A → Option S) (P : S → Prop) (get : S → EventLoop τ) : Prop where
  stopped : ∀ s, P s → (get s).running = false
  moves : ∀ s act loop, P s → (get s).step act = some loop → ∃ a s', step s a = some s' ∧ P s' ∧ get s' = loop
  finishes : ∀ s loop, P s → (get s).taskReturns = some loop → ∃ s', Reaches step s s' ∧ P s' ∧ get s' = loop

/-- The loop's thread can be made to exit. -/
def Exits (step : S → A → Option S) (P : S → Prop) (get : S → EventLoop τ) (s : S) : Prop :=
  ∃ s', Reaches step s s' ∧ P s' ∧ (get s').exited = true

theorem Exits.move (lets : Lets step P get) {s : S} {act : EventLoop.Act} {loop : EventLoop τ} (here : P s)
    (stepped : (get s).step act = some loop) (later : ∀ s', P s' → get s' = loop → Exits step P get s') : Exits step P get s := by
  obtain ⟨a, s', taken, there, same⟩ := lets.moves s act loop here stepped
  obtain ⟨s'', reached, holds, gone⟩ := later s' there same
  exact ⟨s'', .head taken reached, holds, gone⟩

theorem Exits.finish (lets : Lets step P get) {s : S} {loop : EventLoop τ} (here : P s) (returned : (get s).taskReturns = some loop)
    (later : ∀ s', P s' → get s' = loop → Exits step P get s') : Exits step P get s := by
  obtain ⟨s', reached, there, same⟩ := lets.finishes s loop here returned
  obtain ⟨s'', further, holds, gone⟩ := later s' there same
  exact ⟨s'', reached.trans further, holds, gone⟩

/-- A task that the consumer takes is finished before it goes on. -/
theorem Exits.execute (lets : Lets step P get) {s : S} {task : τ} {next : EventLoop.Next} (here : P s)
    (position : (get s).position = .executing task next)
    (later : ∀ s', P s' → get s' = { get s with position := next.position } → Exits step P get s') : Exits step P get s :=
  .finish lets here (EventLoop.taskReturns_executing position) later

theorem exits_drain (lets : Lets step P get) (queue : List τ) :
    ∀ s, P s → (get s).position = .drain → (get s).taskQueue = queue → Exits step P get s := by
  induction queue with
  | nil =>
    intro s here position empty
    refine .move lets here (EventLoop.step_drain position) fun s' there same => ⟨s', .refl, there, ?_⟩
    rw [same, EventLoop.exited_iff]
    simp only [EventLoop.dequeue, empty]
  | cons task rest ih =>
    intro s here position full
    refine .move lets here (EventLoop.step_drain position) fun s' there same => ?_
    simp only [EventLoop.dequeue, full] at same
    refine .execute lets there (by rw [same]) fun s'' later same' => ?_
    exact ih s'' later (by rw [same']; rfl) (by rw [same', same])

theorem exits_enter (lets : Lets step P get) {s : S} (here : P s) (position : (get s).position = .enter) : Exits step P get s := by
  refine .move lets here (EventLoop.step_enter position) fun s' there same => ?_
  refine exits_drain lets _ s' there ?_ rfl
  rw [same]
  simp [lets.stopped s here]

theorem exits_wait (lets : Lets step P get) {s : S} (here : P s) (position : (get s).position = .wait) : Exits step P get s := by
  refine .move lets here (EventLoop.step_wait position) fun s' there same => ?_
  exact exits_enter lets there (by rw [same])

/-- The pollers that are left are done, whatever they find to do. -/
theorem exits_polling (lets : Lets step P get) (left : Nat) :
    ∀ s didWork, P s → (get s).position = .polling left didWork → Exits step P get s := by
  induction left with
  | zero =>
    intro s didWork here position
    refine .move lets here (EventLoop.step_pollersDone position) fun s' there same => ?_
    rcases EventLoop.idle_cases (get s) didWork with idle | idle
    · exact exits_enter lets there (by rw [same, idle])
    · exact exits_wait lets there (by rw [same, idle])
  | succ left ih =>
    intro s didWork here position
    refine .move lets here (EventLoop.step_poller position false) fun s' there same => ?_
    exact ih s' _ there (by rw [same])

theorem exits_dequeue (lets : Lets step P get) (queue : List τ) :
    ∀ s didWork, P s → (get s).position = .dequeue didWork → (get s).taskQueue = queue → Exits step P get s := by
  induction queue with
  | nil =>
    intro s didWork here position empty
    refine .move lets here (EventLoop.step_dequeue position) fun s' there same => ?_
    simp only [EventLoop.dequeue, empty] at same
    exact exits_polling lets _ s' didWork there (by rw [same])
  | cons task rest ih =>
    intro s didWork here position full
    refine .move lets here (EventLoop.step_dequeue position) fun s' there same => ?_
    simp only [EventLoop.dequeue, full] at same
    refine .execute lets there (by rw [same]) fun s'' later same' => ?_
    exact ih s'' true later (by rw [same']; rfl) (by rw [same', same])

/-- **A stopped loop** can be run to its exit, wherever its consumer stands. -/
theorem exits (lets : Lets step P get) {s : S} (here : P s) : Exits step P get s := by
  cases position : (get s).position with
  | enter => exact exits_enter lets here position
  | dequeue didWork => exact exits_dequeue lets _ s didWork here position rfl
  | executing task next =>
    refine .execute lets here position fun s' there same => ?_
    cases next with
    | dequeue => exact exits_dequeue lets _ s' true there (by rw [same]; rfl) rfl
    | enter => exact exits_enter lets there (by rw [same]; rfl)
    | drain => exact exits_drain lets _ s' there (by rw [same]; rfl) rfl
  | polling left didWork => exact exits_polling lets left s didWork here position
  | wait => exact exits_wait lets here position
  | drain => exact exits_drain lets _ s here position rfl
  | exited => exact ⟨s, .refl, here, EventLoop.exited_iff.2 position⟩

end Exit

section Joining

variable {alloc : Pool.Allocator} {configuration : Config} {app app' : Application} {stage : Stage}

/-- **The engine answers** whatever it is sent. -/
theorem Live.sends (live : Live alloc configuration app) (request : Request) :
    ∃ engine emissions, app.engine.send alloc request = .ok (engine, emissions) := by
  obtain ⟨e, ran, behind⟩ := engine_run alloc configuration.matchingEngine (app.answers.map Prod.fst)
  have same : app.engine = e := (Prod.mk.inj (Except.ok.inj (live.exact.handled.symm.trans ran))).1
  obtain ⟨e', sent, -⟩ := send_refines alloc e _ request behind
  exact ⟨e', _, same ▸ sent⟩

/-- `stop` waits for the thread of a stage. -/
structure Joining (alloc : Pool.Allocator) (configuration : Config) (stage : Stage) (app : Application) : Prop where
  live : Live alloc configuration app
  here : app.controller = .joining stage

theorem Joining.taken (joining : Joining alloc configuration stage app) (taken : Application.Taken alloc app app')
    (same : app'.controller = app.controller) : Joining alloc configuration stage app' :=
  ⟨joining.live.taken taken, same.trans joining.here⟩

theorem lets_input : Lets (Application.step alloc) (Joining alloc configuration .input) Application.inputLoop where
  stopped _ joining := joining.live.told .input joining.here
  moves app act loop joining stepped :=
    ⟨.inputLoop act, { app with inputLoop := loop }, by simp only [Application.step, stepped, Option.map_some],
      joining.taken (.inputLoop stepped) rfl, rfl⟩
  finishes app loop joining returned := by
    obtain ⟨task, -⟩ := EventLoop.unfinished_taskReturns returned
    exact task.elim

theorem lets_output : Lets (Application.step alloc) (Joining alloc configuration .output) Application.outputLoop where
  stopped _ joining := joining.live.told .output joining.here
  moves app act loop joining stepped :=
    ⟨.outputLoop act, { app with outputLoop := loop }, by simp only [Application.step, stepped, Option.map_some],
      joining.taken (.outputLoop stepped) rfl, rfl⟩
  finishes app loop joining returned := by
    obtain ⟨message, task, -⟩ := EventLoop.unfinished_taskReturns returned
    have published : app.step alloc .publish = some { app with outputLoop := loop, published := app.published ++ [message] } := by
      simp only [Application.step, task, returned, Option.map_some]
    exact ⟨_, .head published .refl, joining.taken (.publish task returned) rfl, rfl⟩

/-- The engine's calls can be made, one after the other. -/
theorem Joining.callbacks (emissions : List Emission) :
    ∀ app : Application, Joining alloc configuration stage app → app.callbacks = some emissions →
      ∃ app', Reaches (Application.step alloc) app app' ∧ Joining alloc configuration stage app' ∧ app'.callbacks = some [] ∧
        app'.processingLoop = app.processingLoop := by
  induction emissions with
  | nil => exact fun app joining left => ⟨app, .refl, joining, left, rfl⟩
  | cons emission rest ih =>
    intro app joining left
    have called : app.step alloc .callback = some ({ app with callbacks := some rest }.emit emission) := by
      simp only [Application.step, left]
    obtain ⟨app', reached, there, done, same⟩ := ih _ (joining.taken (.callback left) rfl) rfl
    exact ⟨app', .head called reached, there, done, same⟩

/-- A call of the engine that was made can be brought to its end. -/
theorem Joining.sendReturns {emissions : List Emission} {loop : EventLoop Request} (joining : Joining alloc configuration stage app)
    (left : app.callbacks = some emissions) (returned : app.processingLoop.taskReturns = some loop) :
    ∃ app', Reaches (Application.step alloc) app app' ∧ Joining alloc configuration stage app' ∧ app'.processingLoop = loop := by
  obtain ⟨app', reached, there, done, same⟩ := Joining.callbacks emissions app joining left
  rw [← same] at returned
  have finished : app'.step alloc .sendReturns = some { app' with processingLoop := loop, callbacks := none } := by
    simp only [Application.step, done, returned, Option.map_some]
  exact ⟨_, reached.trans (.head finished .refl), there.taken (.sendReturns done returned) rfl, rfl⟩

theorem lets_processing : Lets (Application.step alloc) (Joining alloc configuration .processing) Application.processingLoop where
  stopped _ joining := joining.live.told .processing joining.here
  moves app act loop joining stepped :=
    ⟨.processingLoop act, { app with processingLoop := loop }, by simp only [Application.step, stepped, Option.map_some],
      joining.taken (.processingLoop stepped) rfl, rfl⟩
  finishes app loop joining returned := by
    cases left : app.callbacks with
    | some emissions => exact joining.sendReturns left returned
    | none =>
      -- the task has not called the engine yet; its call cannot fault
      obtain ⟨request, task, -⟩ := EventLoop.unfinished_taskReturns returned
      obtain ⟨engine, emissions, sent⟩ := joining.live.sends request
      have called : app.step alloc .send =
          some { app with engine, callbacks := some emissions, answers := app.answers ++ [(request, emissions)] } := by
        simp only [Application.step, left, task, Application.send, sent]
      obtain ⟨app', reached, there, same⟩ := (joining.taken (.send left task sent) rfl).sendReturns rfl returned
      exact ⟨app', .head called reached, there, same⟩

/-- A stage can be joined. -/
theorem Joining.exits (joining : Joining alloc configuration stage app) :
    ∃ app', Reaches (Application.step alloc) app app' ∧ Live alloc configuration app' ∧ app'.controller = stage.joined := by
  obtain ⟨app', reached, there, gone⟩ : ∃ app', Reaches (Application.step alloc) app app' ∧
      Joining alloc configuration stage app' ∧ app'.exited stage = true := by
    cases stage with
    | input => exact Refinement.exits lets_input joining
    | processing => exact Refinement.exits lets_processing joining
    | output => exact Refinement.exits lets_output joining
  have joined : app'.step alloc .control = some { app' with controller := stage.joined } := by
    simp only [Application.step, Application.control, there.here, gone, if_true]
  exact ⟨_, reached.trans (.head joined .refl), there.live.taken (.join there.here gone), rfl⟩

/-- A stage whose loop is to be stopped can be left. -/
theorem Live.stops (live : Live alloc configuration app) (here : app.controller = .stopping stage) :
    ∃ app', Reaches (Application.step alloc) app app' ∧ Live alloc configuration app' ∧ app'.controller = stage.joined := by
  have told : app.step alloc .control = some { app.stopLoop stage with controller := .joining stage } := by
    simp only [Application.step, Application.control, here]
  obtain ⟨app', reached, there, next⟩ := Joining.exits ⟨live.taken (.stopLoop here), rfl⟩
  exact ⟨app', .head told reached, there, next⟩

/-- `stop` can be brought to its return. -/
def Returns (alloc : Pool.Allocator) (app : Application) : Prop :=
  ∃ app', Reaches (Application.step alloc) app app' ∧ app'.controller = .returned

theorem Returns.of_reaches (reached : Reaches (Application.step alloc) app app') (later : Returns alloc app') : Returns alloc app := by
  obtain ⟨last, further, returned⟩ := later
  exact ⟨last, reached.trans further, returned⟩

theorem Live.returns_joined (live : Live alloc configuration app) : ∀ stage : Stage, app.controller = stage.joined → Returns alloc app
  | .output, here => ⟨app, .refl, here⟩
  | .processing, here => by
    obtain ⟨app', reached, -, next⟩ := live.stops here
    exact ⟨app', reached, next⟩
  | .input, here => by
    obtain ⟨app', reached, live', next⟩ := live.stops here
    obtain ⟨last, further, -, returned⟩ := live'.stops next
    exact ⟨last, reached.trans further, returned⟩

theorem Live.returns (live : Live alloc configuration app) : Returns alloc app := by
  cases here : app.controller with
  | started =>
    have told : app.step alloc .control = some { app with controller := .stopping .input } := by
      simp only [Application.step, Application.control, here]
    obtain ⟨app', reached, live', next⟩ := (live.taken (.stopSession here)).stops rfl
    exact .of_reaches (.head told reached) (live'.returns_joined .input next)
  | stopping stage =>
    obtain ⟨app', reached, live', next⟩ := live.stops here
    exact .of_reaches reached (live'.returns_joined stage next)
  | joining stage =>
    obtain ⟨app', reached, live', next⟩ := Joining.exits ⟨live, here⟩
    exact .of_reaches reached (live'.returns_joined stage next)
  | returned => exact ⟨app, .refl, here⟩

end Joining

end DemoExchange.Refinement
