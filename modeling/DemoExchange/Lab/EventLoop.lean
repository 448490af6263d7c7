import Mathlib.Data.List.Basic

/-!
# The event loop

`lab/event_loop.hpp`. A loop is its queue of tasks, its running flag and where
its consumer thread stands in `run`. The queue is a linearizable FIFO, so an
operation on it or on the flag is one atomic step; the steps of the consumer
are the labels `Act`, and what other threads do to the loop is `post`, `stop`
and `exited`, which a `join` waits for. Running a task is left to the loop's
owner: the consumer stands at `executing` until the task returns.
-/

namespace DemoExchange.Lab
set_option autoImplicit false

/-- `event_loop_idle_strategy`. -/
inductive IdleStrategy where
  | timedWait
  | busySpin
  deriving DecidableEq, Repr

namespace EventLoop

/-- Where the consumer goes on when a task returns. -/
inductive Next where
  | dequeue
  | enter
  | drain
  deriving DecidableEq, Repr

/-- The next atomic step of `run`. `didWork` is the local of the timed wait,
which the busy spin does without. -/
inductive Position (τ : Type) where
  /-- Load `running_`. -/
  | enter
  /-- `try_dequeue` in the loop. -/
  | dequeue (didWork : Bool)
  /-- Inside `task()`. -/
  | executing (task : τ) (next : Next)
  /-- Inside the first of the pollers that are left, or past the last. -/
  | polling (left : Nat) (didWork : Bool)
  /-- `wait_dequeue_timed`. -/
  | wait
  /-- `try_dequeue` in `drain`. -/
  | drain
  /-- `run` has returned. -/
  | exited
  deriving DecidableEq, Repr

/-- The task under way. -/
def Position.task? {τ : Type} : Position τ → Option τ
  | .executing task _ => some task
  | _ => none

def Next.position {τ : Type} : Next → Position τ
  | .dequeue => .dequeue true
  | .enter => .enter
  | .drain => .drain

inductive Act where
  | loadRunning
  | tryDequeue
  | pollerReturns (worked : Bool)
  | pollersDone
  | waitDequeue
  | waitTimesOut
  deriving DecidableEq, Repr

end EventLoop

open EventLoop in
structure EventLoop (τ : Type) where
  idleStrategy : IdleStrategy
  /-- How many pollers were added. -/
  pollers : Nat
  taskQueue : List τ
  running : Bool
  position : Position τ
  deriving DecidableEq, Repr

namespace EventLoop

variable {τ : Type}

/-- `start`: the thread has not loaded the flag yet. -/
def start (idleStrategy : IdleStrategy) (pollers : Nat) : EventLoop τ := ⟨idleStrategy, pollers, [], true, .enter⟩

def post (loop : EventLoop τ) (task : τ) : EventLoop τ := { loop with taskQueue := loop.taskQueue ++ [task] }

def stop (loop : EventLoop τ) : EventLoop τ := { loop with running := false }

/-- The thread can be joined. -/
def exited (loop : EventLoop τ) : Bool :=
  match loop.position with
  | .exited => true
  | _ => false

/-- The task that the consumer runs. -/
def task? (loop : EventLoop τ) : Option τ := loop.position.task?

/-- The consumer is inside a poller. -/
def inPoller (loop : EventLoop τ) : Bool :=
  match loop.position with
  | .polling (_ + 1) _ => true
  | _ => false

/-- `try_dequeue` in front of a task's call. -/
def dequeue (loop : EventLoop τ) (next : Next) (empty : Position τ) : EventLoop τ :=
  match loop.taskQueue with
  | task :: rest => { loop with taskQueue := rest, position := .executing task next }
  | [] => { loop with position := empty }

/-- What `run_timed_wait` and `run_busy_spin` do after the pollers. -/
def idle (loop : EventLoop τ) (didWork : Bool) : Position τ :=
  match loop.idleStrategy with
  | .timedWait => if didWork then .enter else .wait
  | .busySpin => .enter

/-- A step of the consumer. The wait may time out at any moment. -/
def step (loop : EventLoop τ) : Act → Option (EventLoop τ)
  | .loadRunning =>
    match loop.position with
    | .enter => some { loop with position := if loop.running then .dequeue false else .drain }
    | _ => none
  | .tryDequeue =>
    match loop.position with
    | .dequeue didWork => some (loop.dequeue .dequeue (.polling loop.pollers didWork))
    | .drain => some (loop.dequeue .drain .exited)
    | _ => none
  | .pollerReturns worked =>
    match loop.position with
    | .polling (left + 1) didWork => some { loop with position := .polling left (worked || didWork) }
    | _ => none
  | .pollersDone =>
    match loop.position with
    | .polling 0 didWork => some { loop with position := loop.idle didWork }
    | _ => none
  | .waitDequeue =>
    match loop.position, loop.taskQueue with
    | .wait, _ :: _ => some (loop.dequeue .enter .enter)
    | _, _ => none
  | .waitTimesOut =>
    match loop.position with
    | .wait => some { loop with position := .enter }
    | _ => none

/-- A task returns. -/
def taskReturns (loop : EventLoop τ) : Option (EventLoop τ) :=
  match loop.position with
  | .executing _ next => some { loop with position := next.position }
  | _ => none

section Equations

variable {loop : EventLoop τ} {task : τ} {next : Next} {left : Nat} {didWork : Bool}

theorem step_enter (here : loop.position = .enter) :
    loop.step .loadRunning = some { loop with position := if loop.running then .dequeue false else .drain } := by
  simp only [step, here]

theorem step_dequeue (here : loop.position = .dequeue didWork) :
    loop.step .tryDequeue = some (loop.dequeue .dequeue (.polling loop.pollers didWork)) := by
  simp only [step, here]

theorem step_drain (here : loop.position = .drain) : loop.step .tryDequeue = some (loop.dequeue .drain .exited) := by
  simp only [step, here]

theorem step_poller (here : loop.position = .polling (left + 1) didWork) (worked : Bool) :
    loop.step (.pollerReturns worked) = some { loop with position := .polling left (worked || didWork) } := by
  simp only [step, here]

theorem step_pollersDone (here : loop.position = .polling 0 didWork) :
    loop.step .pollersDone = some { loop with position := loop.idle didWork } := by
  simp only [step, here]

theorem step_wait (here : loop.position = .wait) : loop.step .waitTimesOut = some { loop with position := .enter } := by
  simp only [step, here]

theorem taskReturns_executing (here : loop.position = .executing task next) :
    loop.taskReturns = some { loop with position := next.position } := by
  simp only [taskReturns, here]

end Equations

section Steps

variable {loop loop' : EventLoop τ}

@[simp] theorem exited_iff : loop.exited = true ↔ loop.position = .exited := by
  unfold exited
  cases loop.position <;> simp

/-- The consumer has seen that the flag is down. -/
def Position.past : Position τ → Prop
  | .drain => True
  | .exited => True
  | .executing _ next => next = .drain
  | _ => False

/-- What a step of the consumer can do: go to another position, where it has
no task, or take the first task of the queue. -/
inductive Moved (loop : EventLoop τ) : EventLoop τ → Prop where
  | goes (position : Position τ) (free : position.task? = none) (past : position.past → loop.position.past ∨ loop.running = false)
      (empty : position = .exited → loop.taskQueue = []) : Moved loop { loop with position := position }
  | takes (task : τ) (rest : List τ) (next : Next) (first : loop.taskQueue = task :: rest)
      (past : next = .drain → loop.position.past) :
      Moved loop { loop with taskQueue := rest, position := .executing task next }

theorem dequeue_moved {next : Next} {empty : Position τ} (free : empty.task? = none)
    (past : next = .drain → loop.position.past) (later : empty.past → loop.position.past) : Moved loop (loop.dequeue next empty) := by
  unfold dequeue
  split
  · rename_i task rest first
    exact .takes task rest next first past
  · rename_i none
    exact .goes empty free (fun h => .inl (later h)) fun _ => none

theorem idle_cases (loop : EventLoop τ) (didWork : Bool) : loop.idle didWork = .enter ∨ loop.idle didWork = .wait := by
  unfold idle
  cases loop.idleStrategy <;> cases didWork <;> simp

/-- A step is taken by a consumer without a task. -/
theorem step_moved {act : Act} (stepped : loop.step act = some loop') : loop.task? = none ∧ Moved loop loop' := by
  cases act with
  | loadRunning =>
    simp only [step] at stepped
    split at stepped
    · rename_i here
      cases stepped
      refine ⟨congrArg Position.task? here, ?_⟩
      by_cases flag : loop.running = true
      · rw [if_pos flag]
        exact .goes (.dequeue false) rfl (fun h => h.elim) (fun h => nomatch h)
      · rw [if_neg flag]
        exact .goes .drain rfl (fun _ => .inr (Bool.eq_false_iff.2 flag)) (fun h => nomatch h)
    · cases stepped
  | tryDequeue =>
    simp only [step] at stepped
    split at stepped
    · rename_i here
      cases stepped
      exact ⟨congrArg Position.task? here, dequeue_moved rfl (fun h => nomatch h) fun h => h.elim⟩
    · rename_i here
      cases stepped
      have past : loop.position.past := by rw [here]; trivial
      exact ⟨congrArg Position.task? here, dequeue_moved rfl (fun _ => past) fun _ => past⟩
    · cases stepped
  | pollerReturns worked =>
    simp only [step] at stepped
    split at stepped
    · rename_i left didWork here
      cases stepped
      exact ⟨congrArg Position.task? here, .goes (.polling left _) rfl (fun h => h.elim) (fun h => nomatch h)⟩
    · cases stepped
  | pollersDone =>
    simp only [step] at stepped
    split at stepped
    · rename_i didWork here
      cases stepped
      refine ⟨congrArg Position.task? here, ?_⟩
      rcases idle_cases loop didWork with idle | idle
      · rw [idle]
        exact .goes .enter rfl (fun h => h.elim) (fun h => nomatch h)
      · rw [idle]
        exact .goes .wait rfl (fun h => h.elim) (fun h => nomatch h)
    · cases stepped
  | waitDequeue =>
    simp only [step] at stepped
    split at stepped
    · rename_i here first
      cases stepped
      exact ⟨congrArg Position.task? here, dequeue_moved rfl (fun h => nomatch h) fun h => h.elim⟩
    · cases stepped
  | waitTimesOut =>
    simp only [step] at stepped
    split at stepped
    · rename_i here
      cases stepped
      exact ⟨congrArg Position.task? here, .goes .enter rfl (fun h => h.elim) (fun h => nomatch h)⟩
    · cases stepped

/-- The tasks that were posted and have not returned, in their order. -/
def unfinished (loop : EventLoop τ) : List τ := loop.task?.toList ++ loop.taskQueue

/-- A post comes last. -/
@[simp] theorem unfinished_post (task : τ) : (loop.post task).unfinished = loop.unfinished ++ [task] := by
  simp only [unfinished, post, task?, List.append_assoc]

theorem Moved.unfinished (free : loop.task? = none) (moved : Moved loop loop') : loop'.unfinished = loop.unfinished := by
  cases moved with
  | goes position free' past empty => simp only [EventLoop.unfinished, task?, free', show loop.position.task? = none from free]
  | takes task rest next first past =>
    simp only [EventLoop.unfinished, free, first]
    rfl

/-- A consumer moves tasks from the queue to its hands and drops none. -/
theorem unfinished_step {act : Act} (stepped : loop.step act = some loop') : loop'.unfinished = loop.unfinished := by
  obtain ⟨free, moved⟩ := step_moved stepped
  exact moved.unfinished free

theorem taskReturns_cases (returned : loop.taskReturns = some loop') :
    ∃ task next, loop.position = .executing task next ∧ loop' = { loop with position := next.position } := by
  unfold taskReturns at returned
  split at returned
  · rename_i task next here
    exact ⟨task, next, here, (Option.some.inj returned).symm⟩
  · cases returned

theorem Next.task?_position (next : Next) : (next.position : Position τ).task? = none := by
  cases next <;> rfl

/-- The task that returns is the first. -/
theorem unfinished_taskReturns (returned : loop.taskReturns = some loop') :
    ∃ task, loop.task? = some task ∧ loop.unfinished = task :: loop'.unfinished := by
  obtain ⟨task, next, here, rfl⟩ := taskReturns_cases returned
  refine ⟨task, congrArg Position.task? here, ?_⟩
  simp only [unfinished, task?, here, Next.task?_position]
  rfl

/-- A consumer that is past its loop saw the flag down, and left no task when
it exited. -/
structure Sound (loop : EventLoop τ) : Prop where
  past : loop.position.past → loop.running = false
  empty : loop.exited = true → loop.taskQueue = []

theorem Sound.start (idleStrategy : IdleStrategy) (pollers : Nat) : Sound (EventLoop.start idleStrategy pollers : EventLoop τ) :=
  ⟨fun h => h.elim, fun _ => rfl⟩

theorem Sound.step (sound : Sound loop) {act : Act} (stepped : loop.step act = some loop') : Sound loop' := by
  obtain ⟨-, moved⟩ := step_moved stepped
  cases moved with
  | goes position free past empty => exact ⟨fun h => (past h).elim sound.past id, fun h => empty (exited_iff.1 h)⟩
  | takes task rest next first past => exact ⟨fun h => sound.past (past h), fun h => nomatch (exited_iff.1 h)⟩

/-- A task may be posted while the consumer runs. -/
theorem Sound.post (sound : Sound loop) (live : loop.exited = false) (task : τ) : Sound (loop.post task) := by
  refine ⟨sound.past, fun h => ?_⟩
  rw [show loop.exited = true from h] at live
  cases live

theorem Sound.stop (sound : Sound loop) : Sound loop.stop := ⟨fun _ => rfl, sound.empty⟩

theorem Sound.taskReturns (sound : Sound loop) (returned : loop.taskReturns = some loop') : Sound loop' := by
  obtain ⟨task, next, here, rfl⟩ := taskReturns_cases returned
  refine ⟨fun h => sound.past ?_, fun h => ?_⟩
  · rw [here]
    cases next with
    | dequeue => exact h.elim
    | enter => exact h.elim
    | drain => rfl
  · cases next <;> cases exited_iff.1 h

/-- **The final drain.** A consumer that exited has finished every task. -/
theorem Sound.finished (sound : Sound loop) (exited : loop.exited = true) : loop.unfinished = [] := by
  rw [unfinished, task?, exited_iff.1 exited, sound.empty exited]
  rfl

theorem Sound.running_of_exited (sound : Sound loop) (exited : loop.exited = true) : loop.running = false := by
  apply sound.past
  rw [exited_iff.1 exited]
  trivial

/-- A loop is live as long as its flag goes down only after something that has
not happened. -/
theorem Sound.live (sound : Sound loop) {happened : Bool} (guarded : loop.running = false → happened = true)
    (not : happened = false) : loop.exited = false := by
  rw [Bool.eq_false_iff]
  intro exited
  rw [guarded (sound.running_of_exited exited)] at not
  cases not

theorem not_exited_of_task {task : τ} (running : loop.task? = some task) : loop.exited = false := by
  rw [Bool.eq_false_iff, ne_eq, exited_iff]
  intro gone
  rw [task?, gone] at running
  cases running

theorem not_exited_of_polling (polling : loop.inPoller = true) : loop.exited = false := by
  rw [Bool.eq_false_iff, ne_eq, exited_iff]
  intro gone
  rw [inPoller, gone] at polling
  cases polling

theorem running_step {act : Act} (stepped : loop.step act = some loop') : loop'.running = loop.running := by
  cases (step_moved stepped).2 <;> rfl

theorem running_taskReturns (returned : loop.taskReturns = some loop') : loop'.running = loop.running := by
  obtain ⟨task, next, here, rfl⟩ := taskReturns_cases returned
  rfl

/-- An exited consumer takes no step. -/
theorem step_exited (exited : loop.exited = true) (act : Act) : loop.step act = none := by
  rw [exited_iff] at exited
  cases act <;> simp only [step, exited]

theorem exited_step (exited : loop.exited = true) {act : Act} (stepped : loop.step act = some loop') : loop'.exited = true := by
  rw [step_exited exited] at stepped
  cases stepped

theorem exited_taskReturns (exited : loop.exited = true) (returned : loop.taskReturns = some loop') : loop'.exited = true := by
  rw [exited_iff] at exited
  rw [taskReturns, exited] at returned
  cases returned

end Steps

end EventLoop

end DemoExchange.Lab
