import DemoExchange.Lab.EventLoop

/-!
# How far a consumer is from what it comes to

`rank` bounds the steps of a consumer whose flag is down: each of them, and
each return of a task, makes it smaller, and only an exited consumer takes none.
`ahead` bounds the steps of a consumer with tasks in its queue up to the next
task, whatever the flag is.
-/

namespace DemoExchange.Lab.EventLoop
set_option autoImplicit false

variable {τ : Type} {loop loop' : EventLoop τ} {act : Act}

/-- A step of the consumer, with what allows it. -/
inductive Stepped (loop : EventLoop τ) : EventLoop τ → Prop where
  | enters (here : loop.position = .enter) :
    Stepped loop { loop with position := if loop.running then .dequeue false else .drain }
  | dequeues {didWork : Bool} (here : loop.position = .dequeue didWork) :
    Stepped loop (loop.dequeue .dequeue (.polling loop.pollers didWork))
  | drains (here : loop.position = .drain) : Stepped loop (loop.dequeue .drain .exited)
  | polls {left : Nat} {didWork : Bool} (worked : Bool) (here : loop.position = .polling (left + 1) didWork) :
    Stepped loop { loop with position := .polling left (worked || didWork) }
  | idles {didWork : Bool} (here : loop.position = .polling 0 didWork) : Stepped loop { loop with position := loop.idle didWork }
  | wakes {task : τ} {rest : List τ} (here : loop.position = .wait) (first : loop.taskQueue = task :: rest) :
    Stepped loop (loop.dequeue .enter .enter)
  | timesOut (here : loop.position = .wait) : Stepped loop { loop with position := .enter }

theorem step_stepped (stepped : loop.step act = some loop') : Stepped loop loop' := by
  unfold step at stepped
  split at stepped <;> split at stepped <;> cases stepped
  · rename_i here
    exact .enters here
  · rename_i here
    exact .dequeues here
  · rename_i here
    exact .drains here
  · rename_i here
    exact .polls _ here
  · rename_i here
    exact .idles here
  · rename_i here first
    exact .wakes here first
  · rename_i here
    exact .timesOut here

theorem executing_of_task {task : τ} (running : loop.task? = some task) : ∃ next, loop.position = .executing task next := by
  unfold task? Position.task? at running
  split at running
  · rename_i current next here
    exact ⟨next, Option.some.inj running ▸ here⟩
  · cases running

/-- A consumer that has no task and has not exited can take a step. -/
theorem step_of_live (free : loop.task? = none) (live : loop.exited = false) : ∃ act loop', loop.step act = some loop' := by
  cases here : loop.position with
  | enter => exact ⟨_, _, step_enter here⟩
  | dequeue didWork => exact ⟨_, _, step_dequeue here⟩
  | executing task next =>
    rw [task?, here] at free
    cases free
  | polling left didWork =>
    cases left with
    | zero => exact ⟨_, _, step_pollersDone here⟩
    | succ left => exact ⟨_, _, step_poller here true⟩
  | wait => exact ⟨_, _, step_wait here⟩
  | drain => exact ⟨_, _, step_drain here⟩
  | exited =>
    rw [exited_iff.2 here] at live
    cases live

section Rank

/-- What a consumer has before it at a position, its queue aside. -/
def Position.rank (pollers : Nat) : Position τ → Nat
  | .exited => 0
  | .drain => 1
  | .enter => 2
  | .wait => 3
  | .polling left _ => 4 + left
  | .dequeue _ => 5 + pollers
  | .executing _ .drain => 2
  | .executing _ .enter => 3
  | .executing _ .dequeue => 6 + pollers

/-- A bound on the steps that are left to a consumer whose flag is down. A task takes two. -/
def rank (loop : EventLoop τ) : Nat := loop.position.rank loop.pollers + 2 * loop.taskQueue.length

end Rank

section Ahead

/-- What a consumer with tasks in its queue has before it until it takes one. -/
def ahead (loop : EventLoop τ) : Nat :=
  match loop.position with
  | .executing _ _ => 0
  | .exited => 0
  | .dequeue _ => 1
  | .drain => 1
  | .enter => 2
  | .wait => 3
  | .polling left _ => 4 + left

theorem ahead_dequeue {next : Next} {empty : Position τ} (full : loop.taskQueue ≠ []) : (loop.dequeue next empty).ahead = 0 := by
  obtain ⟨task, rest, first⟩ := List.exists_cons_of_ne_nil full
  simp [dequeue, first, ahead]

/-- **Each step** of a consumer that has tasks brings it nearer to the next. -/
theorem ahead_step (full : loop.taskQueue ≠ []) (stepped : loop.step act = some loop') : loop'.ahead < loop.ahead := by
  cases step_stepped stepped with
  | enters here => cases up : loop.running <;> simp [ahead, here]
  | dequeues here =>
    rw [ahead_dequeue full]
    simp [ahead, here]
  | drains here =>
    rw [ahead_dequeue full]
    simp [ahead, here]
  | polls worked here => simp [ahead, here]
  | idles here =>
    rename_i didWork
    rcases idle_cases loop didWork with idle | idle <;> rw [idle] <;> simp [ahead, here]
  | wakes here first =>
    rw [ahead_dequeue full]
    simp [ahead, here]
  | timesOut here => simp [ahead, here]

/-- After a task the next is not far. -/
theorem ahead_taskReturns (returned : loop.taskReturns = some loop') : loop'.ahead < 3 := by
  obtain ⟨task, next, here, rfl⟩ := taskReturns_cases returned
  cases next <;> simp [ahead, Next.position]

end Ahead

end DemoExchange.Lab.EventLoop
