import Microkernel.Sync
import Microkernel.Machine.Sessions

/-!
# Waits

A wait on several objects ends with the first of them that is signaled. Whoever waits stands on the wait list of every object before
it looks at them, and its parker keeps a wake-up that comes in between.
-/

namespace Microkernel.Machine

/-- The wait list of an object. -/
def waitersOf (s : Machine) : Waitable → WaitList
  | .event id => (s.event id).waiters
  | .process id => (s.process id).waiters
  | .thread id => (s.thread id).waiters
  | .serverPort id => (s.port (s.serverPort id)).waiters
  | .serverSession id => (s.session (s.serverSession id)).waiters
  | .request id => (s.request id).waiters

/-- Changes the wait list of an object. -/
def setWaiters (object : Waitable) (l : WaitList) : Update Unit := do
  let s ← get
  match object with
  | .event id => setEvent id { s.event id with waiters := l }
  | .process id => setProcess id { s.process id with waiters := l }
  | .thread id => setThread id { s.thread id with waiters := l }
  | .serverPort id => setPort (s.serverPort id) { s.port (s.serverPort id) with waiters := l }
  | .serverSession id => setSession (s.serverSession id) { s.session (s.serverSession id) with waiters := l }
  | .request id => setRequest id { s.request id with waiters := l }

/-- Whether a wait on an object would end now. -/
def isSignaled (s : Machine) : Waitable → Bool
  | .event id => (s.event id).signaled
  | .process id => (s.process id).state = .terminated
  | .thread id => (s.thread id).state = .exited
  | .serverPort id => !(s.port (s.serverPort id)).incoming.isEmpty
  | .serverSession id => (s.session (s.serverSession id)).isSignaled
  | .request id => (s.request id).result.isSome

/-- Ends a wait on an object if it is signaled; an automatic event is cleared by that. -/
def tryAcquire (object : Waitable) : Update Bool := do
  match object with
  | .event id =>
    let (acquired, event) := ((← get).event id).tryAcquire
    setEvent id event
    return acquired
  | object => return (← get).isSignaled object

/-- Looks at objects in order and acquires the first that is signaled; answers with its index. -/
def pollFrom (index : Nat) : List Waitable → Update (Option Nat)
  | [] => return none
  | object :: rest => do if ← tryAcquire object then return some index else pollFrom (index + 1) rest

/-- Acquires the first signaled object of a list. -/
def poll (objects : List Waitable) : Update (Option Nat) := pollFrom 0 objects

/-- Puts a parker on the wait list of every object. -/
def registerAll (parker : ParkerId) (objects : List Waitable) : Update Unit := do
  for object in objects do setWaiters object (((← get).waitersOf object).register parker)

/-- Takes a parker off the wait list of every object. -/
def unregisterAll (parker : ParkerId) (objects : List Waitable) : Update Unit := do
  for object in objects do setWaiters object (((← get).waitersOf object).unregister parker)

/-- The part of a wait before it blocks: its result if it is over at once. Otherwise the parker stands on all wait lists. -/
def beginWait (parker : ParkerId) (cancelled : Bool) (objects : List Waitable) (timeout : Timeout) : Action (Option Nat) := do
  if maxWaitObjects < objects.length then throw .maximumExceeded
  if cancelled then throw .terminationRequested
  match ← poll objects with
  | some index => return some index
  | none =>
    if timeout = .immediate then throw .timedOut
    registerAll parker objects
    match ← poll objects with
    | some index =>
      unregisterAll parker objects
      return some index
    | none => return none

/-- What a blocked wait does when it is woken: nothing unless it is over. -/
def resumeWait (parker : ParkerId) (cancelled : Bool) (objects : List Waitable) : Action (Option Nat) := do
  modify fun s => { s with wakeUps := s.wakeUps.take parker }
  if cancelled then
    unregisterAll parker objects
    throw .terminationRequested
  match ← poll objects with
  | some index =>
    unregisterAll parker objects
    return some index
  | none => return none

/-- What a blocked wait does when its time is over: it looks a last time. -/
def expireWait (parker : ParkerId) (objects : List Waitable) : Action Nat := do
  let found ← poll objects
  unregisterAll parker objects
  match found with
  | some index => return index
  | none => throw .timedOut

/-- A whole wait during which nobody else acts, so that it ends at once or when its time is over. -/
def waitAlone (parker : ParkerId) (cancelled : Bool) (objects : List Waitable) (timeout : Timeout) : Action Nat := do
  match ← beginWait parker cancelled objects timeout with
  | some index => return index
  | none => expireWait parker objects

end Microkernel.Machine
