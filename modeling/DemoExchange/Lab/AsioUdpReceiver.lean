import DemoExchange.Lib.Text

/-!
# The UDP receiver

`lab/network/asio_udp_receiver.hpp` over a socket and an `io_context` that one
thread polls. A datagram waits in the socket's buffer until the outstanding
receive takes it; the completion is then ready for `poll_one`, which runs its
handler: `on_datagram`, and `post_receive` again. Another thread may call
`stop` between any two of these steps.
-/

namespace DemoExchange.Lab
set_option autoImplicit false
open Text

/-- The size of `receive_buffer_`. -/
def receiveBufferSize : Nat := 65535

namespace AsioUdpReceiver

/-- The operation that `async_receive_from` started. -/
inductive Operation where
  | none
  | outstanding
  /-- Its handler is ready to be called with a datagram. -/
  | received (datagram : Bytes)
  /-- Its handler is ready to be called with an error. -/
  | failed
  deriving DecidableEq, Repr

/-- Where the polling thread stands. -/
inductive Position where
  /-- Not in `poll_one`. -/
  | outside
  /-- In the handler, in front of `on_datagram`. -/
  | onDatagram (datagram : Bytes)
  /-- In the handler, in front of `post_receive`. -/
  | postReceive
  /-- `poll_one` is about to return; it ran a handler or not. -/
  | returning (worked : Bool)
  deriving DecidableEq, Repr

end AsioUdpReceiver

open AsioUdpReceiver in
structure AsioUdpReceiver where
  socketBuffer : List Bytes
  operation : Operation
  position : Position
  deriving DecidableEq, Repr

namespace AsioUdpReceiver

/-- `start` has bound the socket and posted the first receive. -/
def start : AsioUdpReceiver := ⟨[], .outstanding, .outside⟩

/-- A datagram reaches the socket. -/
def arrive (receiver : AsioUdpReceiver) (datagram : Bytes) : AsioUdpReceiver :=
  { receiver with socketBuffer := receiver.socketBuffer ++ [datagram] }

/-- The outstanding receive takes the first datagram, as much of it as the buffer holds. -/
def complete (receiver : AsioUdpReceiver) : Option AsioUdpReceiver :=
  match receiver.operation, receiver.socketBuffer with
  | .outstanding, datagram :: rest =>
    some { receiver with socketBuffer := rest, operation := .received (datagram.take receiveBufferSize) }
  | _, _ => none

/-- The outstanding receive fails. -/
def fail (receiver : AsioUdpReceiver) : Option AsioUdpReceiver :=
  match receiver.operation with
  | .outstanding => some { receiver with operation := .failed }
  | _ => none

/-- `stop`: what is outstanding is aborted. A completion that is ready stays as it is. -/
def stop (receiver : AsioUdpReceiver) : AsioUdpReceiver :=
  match receiver.operation with
  | .outstanding => { receiver with operation := .failed }
  | _ => receiver

/-- `poll_one` is called. A handler that is given an error returns at once. -/
def pollOne (receiver : AsioUdpReceiver) : Option AsioUdpReceiver :=
  match receiver.position with
  | .outside =>
    match receiver.operation with
    | .received datagram => some { receiver with operation := .none, position := .onDatagram datagram }
    | .failed => some { receiver with operation := .none, position := .returning true }
    | _ => some { receiver with position := .returning false }
  | _ => none

/-- The handler calls `on_datagram` with the datagram. -/
def onDatagram (receiver : AsioUdpReceiver) : Option (Bytes × AsioUdpReceiver) :=
  match receiver.position with
  | .onDatagram datagram => some (datagram, { receiver with position := .postReceive })
  | _ => none

/-- `post_receive` at the end of the handler. -/
def postReceive (receiver : AsioUdpReceiver) : Option AsioUdpReceiver :=
  match receiver.position with
  | .postReceive => some { receiver with operation := .outstanding, position := .returning true }
  | _ => none

/-- `poll_one` returns. -/
def pollReturns (receiver : AsioUdpReceiver) : Option (Bool × AsioUdpReceiver) :=
  match receiver.position with
  | .returning worked => some (worked, { receiver with position := .outside })
  | _ => none

section Steps

variable {receiver receiver' : AsioUdpReceiver} {datagram : Bytes} {worked : Bool}

/-- The polling thread is in the handler. -/
def inHandler (receiver : AsioUdpReceiver) : Bool :=
  match receiver.position with
  | .onDatagram _ => true
  | .postReceive => true
  | _ => false

/-- No receive is posted, and none will be. -/
def ended (receiver : AsioUdpReceiver) : Bool :=
  !receiver.inHandler &&
    match receiver.operation with
    | .none => true
    | .failed => true
    | _ => false

/-- A datagram as far as the receive buffer holds it. -/
def cut (datagram : Bytes) : Bytes := datagram.take receiveBufferSize

def Position.inHand : Position → List Bytes
  | .onDatagram datagram => [datagram]
  | _ => []

def Operation.inHand : Operation → List Bytes
  | .received datagram => [datagram]
  | _ => []

/-- What reached the socket and was not handed to `on_datagram`, in its order. -/
def undelivered (receiver : AsioUdpReceiver) : List Bytes :=
  receiver.position.inHand ++ receiver.operation.inHand ++ receiver.socketBuffer.map cut

/-- What a step can do to a receiver. -/
inductive Moved (receiver : AsioUdpReceiver) : AsioUdpReceiver → Prop where
  | arrive (datagram : Bytes) : Moved receiver (receiver.arrive datagram)
  | complete {receiver' : AsioUdpReceiver} (stepped : receiver.complete = some receiver') : Moved receiver receiver'
  | fail {receiver' : AsioUdpReceiver} (stepped : receiver.fail = some receiver') : Moved receiver receiver'
  | stop : Moved receiver receiver.stop
  | pollOne {receiver' : AsioUdpReceiver} (stepped : receiver.pollOne = some receiver') : Moved receiver receiver'
  | onDatagram {datagram : Bytes} {receiver' : AsioUdpReceiver} (taken : receiver.onDatagram = some (datagram, receiver')) :
    Moved receiver receiver'
  | postReceive {receiver' : AsioUdpReceiver} (stepped : receiver.postReceive = some receiver') : Moved receiver receiver'
  | pollReturns {worked : Bool} {receiver' : AsioUdpReceiver} (returned : receiver.pollReturns = some (worked, receiver')) :
    Moved receiver receiver'

theorem complete_cases (stepped : receiver.complete = some receiver') :
    receiver.operation = .outstanding ∧ ∃ datagram rest, receiver.socketBuffer = datagram :: rest ∧
      receiver' = { receiver with socketBuffer := rest, operation := .received (cut datagram) } := by
  unfold complete at stepped
  split at stepped
  · rename_i datagram rest here first
    exact ⟨here, datagram, rest, first, (Option.some.inj stepped).symm⟩
  · cases stepped

theorem fail_cases (stepped : receiver.fail = some receiver') :
    receiver.operation = .outstanding ∧ receiver' = { receiver with operation := .failed } := by
  unfold fail at stepped
  split at stepped
  · rename_i here
    exact ⟨here, (Option.some.inj stepped).symm⟩
  · cases stepped

theorem stop_cases (receiver : AsioUdpReceiver) :
    receiver.operation = .outstanding ∧ receiver.stop = { receiver with operation := .failed } ∨
      receiver.operation ≠ .outstanding ∧ receiver.stop = receiver := by
  unfold stop
  split
  · rename_i here
    exact .inl ⟨here, rfl⟩
  · rename_i other
    exact .inr ⟨other, rfl⟩

/-- `poll_one` finds a datagram, an error, or nothing to do. -/
theorem pollOne_cases (stepped : receiver.pollOne = some receiver') :
    receiver.position = .outside ∧
      ((∃ datagram, receiver.operation = .received datagram ∧
          receiver' = { receiver with operation := .none, position := .onDatagram datagram }) ∨
        (receiver.operation = .failed ∧ receiver' = { receiver with operation := .none, position := .returning true }) ∨
          (receiver.operation = .none ∨ receiver.operation = .outstanding) ∧
            receiver' = { receiver with position := .returning false }) := by
  unfold pollOne at stepped
  split at stepped
  · rename_i outside
    refine ⟨outside, ?_⟩
    cases ready : receiver.operation with
    | none =>
      simp only [ready] at stepped
      exact .inr (.inr ⟨.inl rfl, (Option.some.inj stepped).symm⟩)
    | outstanding =>
      simp only [ready] at stepped
      exact .inr (.inr ⟨.inr rfl, (Option.some.inj stepped).symm⟩)
    | received datagram =>
      simp only [ready] at stepped
      exact .inl ⟨datagram, rfl, (Option.some.inj stepped).symm⟩
    | failed =>
      simp only [ready] at stepped
      exact .inr (.inl ⟨rfl, (Option.some.inj stepped).symm⟩)
  · cases stepped

theorem onDatagram_cases (taken : receiver.onDatagram = some (datagram, receiver')) :
    receiver.position = .onDatagram datagram ∧ receiver' = { receiver with position := .postReceive } := by
  unfold onDatagram at taken
  split at taken
  · rename_i here
    cases taken
    exact ⟨here, rfl⟩
  · cases taken

theorem postReceive_cases (stepped : receiver.postReceive = some receiver') :
    receiver.position = .postReceive ∧ receiver' = { receiver with operation := .outstanding, position := .returning true } := by
  unfold postReceive at stepped
  split at stepped
  · rename_i here
    exact ⟨here, (Option.some.inj stepped).symm⟩
  · cases stepped

theorem pollReturns_cases (returned : receiver.pollReturns = some (worked, receiver')) :
    receiver.position = .returning worked ∧ receiver' = { receiver with position := .outside } := by
  unfold pollReturns at returned
  split at returned
  · rename_i here
    cases returned
    exact ⟨here, rfl⟩
  · cases returned

/-- The handler runs between two receives. -/
def Sound (receiver : AsioUdpReceiver) : Prop := receiver.inHandler = true → receiver.operation = .none

theorem Sound.start : Sound start := fun h => nomatch h

theorem Sound.moved (sound : Sound receiver) (moved : Moved receiver receiver') : Sound receiver' := by
  cases moved with
  | arrive datagram => exact sound
  | complete stepped =>
    obtain ⟨here, datagram, rest, first, rfl⟩ := complete_cases stepped
    intro inside
    rw [sound inside] at here
    cases here
  | fail stepped =>
    obtain ⟨here, rfl⟩ := fail_cases stepped
    intro inside
    rw [sound inside] at here
    cases here
  | stop =>
    obtain ⟨here, same⟩ | ⟨-, same⟩ := stop_cases receiver
    · rw [same]
      intro inside
      rw [sound inside] at here
      cases here
    · rw [same]
      exact sound
  | pollOne stepped =>
    obtain ⟨-, ⟨datagram, ready, rfl⟩ | ⟨ready, rfl⟩ | ⟨ready, rfl⟩⟩ := pollOne_cases stepped
    · exact fun _ => rfl
    · exact fun _ => rfl
    · exact fun inside => nomatch inside
  | onDatagram taken =>
    obtain ⟨here, rfl⟩ := onDatagram_cases taken
    exact fun _ => sound (by rw [inHandler, here])
  | postReceive stepped =>
    obtain ⟨here, rfl⟩ := postReceive_cases stepped
    exact fun inside => nomatch inside
  | pollReturns returned =>
    obtain ⟨here, rfl⟩ := pollReturns_cases returned
    exact fun inside => nomatch inside

@[simp] theorem undelivered_arrive : (receiver.arrive datagram).undelivered = receiver.undelivered ++ [cut datagram] := by
  simp only [undelivered, arrive, List.map_append, List.map_cons, List.map_nil, List.append_assoc]

theorem undelivered_complete (stepped : receiver.complete = some receiver') : receiver'.undelivered = receiver.undelivered := by
  obtain ⟨here, datagram, rest, first, rfl⟩ := complete_cases stepped
  simp [undelivered, here, first, Operation.inHand]

theorem undelivered_fail (stepped : receiver.fail = some receiver') : receiver'.undelivered = receiver.undelivered := by
  obtain ⟨here, rfl⟩ := fail_cases stepped
  simp [undelivered, here, Operation.inHand]

@[simp] theorem undelivered_stop : receiver.stop.undelivered = receiver.undelivered := by
  obtain ⟨here, same⟩ | ⟨-, same⟩ := stop_cases receiver
  · simp [same, undelivered, here, Operation.inHand]
  · rw [same]

theorem undelivered_pollOne (stepped : receiver.pollOne = some receiver') : receiver'.undelivered = receiver.undelivered := by
  obtain ⟨outside, ⟨datagram, ready, rfl⟩ | ⟨ready, rfl⟩ | ⟨ready, rfl⟩⟩ := pollOne_cases stepped
  · simp [undelivered, outside, ready, Operation.inHand, Position.inHand]
  · simp [undelivered, outside, ready, Operation.inHand, Position.inHand]
  · simp [undelivered, outside, Position.inHand]

/-- **`on_datagram`** is called with the first datagram that is left. -/
theorem undelivered_onDatagram (taken : receiver.onDatagram = some (datagram, receiver')) :
    receiver.undelivered = datagram :: receiver'.undelivered := by
  obtain ⟨here, rfl⟩ := onDatagram_cases taken
  simp [undelivered, here, Position.inHand]

theorem undelivered_postReceive (sound : Sound receiver) (stepped : receiver.postReceive = some receiver') :
    receiver'.undelivered = receiver.undelivered := by
  obtain ⟨here, rfl⟩ := postReceive_cases stepped
  have none : receiver.operation = .none := sound (by rw [inHandler, here])
  simp [undelivered, here, none, Operation.inHand, Position.inHand]

theorem undelivered_pollReturns (returned : receiver.pollReturns = some (worked, receiver')) :
    receiver'.undelivered = receiver.undelivered := by
  obtain ⟨here, rfl⟩ := pollReturns_cases returned
  simp [undelivered, here, Position.inHand]

theorem ended_iff : receiver.ended = true ↔
    receiver.inHandler = false ∧ (receiver.operation = .none ∨ receiver.operation = .failed) := by
  unfold ended
  cases receiver.inHandler <;> cases receiver.operation <;> simp

/-- **A receive loop that has ended** hands nothing over and does not start again. -/
theorem ended_moved (ended : receiver.ended = true) (moved : Moved receiver receiver') : receiver'.ended = true := by
  obtain ⟨outside, gone⟩ := ended_iff.1 ended
  rw [ended_iff]
  cases moved with
  | arrive datagram => exact ⟨outside, gone⟩
  | complete stepped =>
    obtain ⟨here, -⟩ := complete_cases stepped
    rcases gone with gone | gone <;> cases gone.symm.trans here
  | fail stepped =>
    obtain ⟨here, -⟩ := fail_cases stepped
    rcases gone with gone | gone <;> cases gone.symm.trans here
  | stop =>
    obtain ⟨here, -⟩ | ⟨-, same⟩ := stop_cases receiver
    · rcases gone with gone | gone <;> cases gone.symm.trans here
    · rw [same]
      exact ⟨outside, gone⟩
  | pollOne stepped =>
    obtain ⟨-, ⟨datagram, ready, rfl⟩ | ⟨ready, rfl⟩ | ⟨ready, rfl⟩⟩ := pollOne_cases stepped
    · rcases gone with gone | gone <;> cases gone.symm.trans ready
    · exact ⟨rfl, .inl rfl⟩
    · exact ⟨rfl, gone⟩
  | onDatagram taken =>
    obtain ⟨here, -⟩ := onDatagram_cases taken
    rw [inHandler, here] at outside
    cases outside
  | postReceive stepped =>
    obtain ⟨here, -⟩ := postReceive_cases stepped
    rw [inHandler, here] at outside
    cases outside
  | pollReturns returned =>
    obtain ⟨-, rfl⟩ := pollReturns_cases returned
    exact ⟨rfl, gone⟩

end Steps

end AsioUdpReceiver

end DemoExchange.Lab
