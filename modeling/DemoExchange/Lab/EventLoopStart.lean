import DemoExchange.Lab.Error
import DemoExchange.Lab.EventLoop

/-!
# Starting an event loop

`lab/event_loop.hpp` before its thread is made: the constructor, `add_poller`
and `start`. A loop without a thread stands where one stands whose thread has
exited: it takes no step, and a join of it returns at once.
-/

namespace DemoExchange.Lab.EventLoop
set_option autoImplicit false
open Text

variable {τ : Type}

/-- The constructor. -/
def new (idleStrategy : IdleStrategy) : EventLoop τ := ⟨idleStrategy, 0, [], false, .exited⟩

def addPoller (loop : EventLoop τ) : EventLoop τ := { loop with pollers := loop.pollers + 1 }

/-- `start`, where making the thread throws that text or does not. -/
def tryStart (loop : EventLoop τ) (thrown : Option Bytes) : Result Unit × EventLoop τ :=
  if loop.running then (makeLeafError .alreadyInProgress (ascii "event loop already running"), loop)
  else
    match thrown with
    | none => (.ok (), { loop with running := true, position := .enter })
    | some what => (makeLeafError .genericError what, { loop with running := false })

section Steps

variable {loop loop' : EventLoop τ}

/-- A loop that was not started takes no step and is stopped in vain. -/
structure Idle (loop : EventLoop τ) : Prop where
  exited : loop.exited = true
  stopped : loop.running = false

theorem idle_new (idleStrategy : IdleStrategy) : Idle (new idleStrategy : EventLoop τ) := ⟨rfl, rfl⟩

theorem Idle.stop (idle : Idle loop) : loop.stop = loop := by
  obtain ⟨idleStrategy, pollers, taskQueue, running, position⟩ := loop
  have down : running = false := idle.stopped
  rw [EventLoop.stop, down]

theorem Idle.inPoller (idle : Idle loop) : loop.inPoller = false := by
  rw [EventLoop.inPoller, exited_iff.1 idle.exited]

/-- A loop that starts has made its thread; one that does not is as it was. -/
theorem tryStart_cases (idle : Idle loop) (thrown : Option Bytes) :
    (∃ what, thrown = some what ∧ loop.tryStart thrown = (makeLeafError .genericError what, loop)) ∨
      thrown = none ∧ loop.tryStart thrown = (.ok (), { loop with running := true, position := .enter }) := by
  obtain ⟨idleStrategy, pollers, taskQueue, running, position⟩ := loop
  have down : running = false := idle.stopped
  subst down
  cases thrown with
  | none => exact .inr ⟨rfl, rfl⟩
  | some what => exact .inl ⟨what, rfl, rfl⟩

end Steps

end DemoExchange.Lab.EventLoop
