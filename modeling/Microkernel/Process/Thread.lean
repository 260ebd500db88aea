import Microkernel.Lifecycle
import Microkernel.Process.GuestCall
import Microkernel.Service.Options
import Microkernel.Sync

/-!
# Threads

A thread runs a body: guest code, which takes one call at a time, or the loop of a server. What a thread does between two moments at
which it can go on is recorded as its `Activity`.
-/

namespace Microkernel

/-- What a thread runs. -/
inductive ThreadBody
  /-- Guest code. -/
  | guest
  /-- The loop of a server. -/
  | server (id : RecordId)
  deriving DecidableEq, Repr, Inhabited

/-- What a thread does once its wait is over. -/
inductive WaitPurpose
  /-- Answers with the index of the object found signaled. -/
  | index
  /-- Answers that the time is over. -/
  | sleep
  /-- Answers with the outcome of a request; for an exchange, with the message buffer. -/
  | reply (request : RecordId) (isExchange : Bool)
  /-- Serves the port, which comes first, or one of these sessions. -/
  | serve (window : List SessionEntry)
  deriving DecidableEq, Repr, Inhabited

/-- A wait in progress. -/
structure Wait where
  objects : List Waitable
  /-- Whether the wait ends by itself after some time. -/
  isTimed : Bool
  purpose : WaitPurpose
  deriving DecidableEq, Repr, Inhabited

/-- Where a thread stands in its body. -/
inductive Activity
  /-- Not started yet, or ended. -/
  | none
  /-- Started, about to run. -/
  | starting
  /-- Guest code between two calls. -/
  | idle
  /-- Guest code held at the checkpoint of a call while its process is paused. -/
  | held (call : GuestCall)
  /-- A server at the checkpoint with which a pass of its loop begins. -/
  | looping
  | waiting (wait : Wait)
  deriving Repr, Inhabited

/-- A thread. -/
structure Thread where
  threadId : Nat
  process : RecordId
  priority : Nat
  type : ThreadType
  /-- The address of the message buffer in the owner's thread-local page. -/
  messageAddress : Nat
  body : ThreadBody
  state : ThreadState := .created
  activity : Activity := .none
  terminationRequested : Bool := false
  /-- Who waits for the thread to exit. -/
  waiters : WaitList := {}
  /-- The answer to the last guest call, until it is collected. -/
  answer : Option (Except KernelError CallValue) := Option.none
  deriving Inhabited

/-- Whether the thread is between start and exit. -/
def Thread.isRunning (t : Thread) : Bool := t.state.isAlive

end Microkernel
