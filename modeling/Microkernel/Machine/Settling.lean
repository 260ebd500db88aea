import Microkernel.Machine.GuestThreads
import Microkernel.Machine.Servers

/-!
# Settling

A machine settles by letting its threads run, the oldest first, until each of them is blocked or between two calls. Only waits that
end by themselves are left open; `expireThread` ends one of those.
-/

namespace Microkernel.Machine

/-- Whether a thread can go on. -/
def canRun (s : Machine) (id : RecordId) (t : Thread) : Bool :=
  match t.activity with
  | .none => false
  | .starting => true
  | .idle => t.terminationRequested
  | .held _ => t.terminationRequested || !(s.process t.process).paused
  | .looping => t.terminationRequested || !(s.process t.process).paused
  | .waiting wait =>
    s.wakeUps.has id ||
      match t.body with
      | .server server => wait.isTimed && s.hasWork server
      | .guest => false

/-- The oldest thread that can go on. -/
def nextRunnable? (s : Machine) : Option RecordId :=
  (s.threads.toList.find? fun (id, t) => s.canRun id t).map (·.1)

/-- What a thread does once it has left its wait: a guest thread ends its call, a server serves what it found. -/
def leaveWaitWith (id : RecordId) (purpose : WaitPurpose) (result : Except KernelError Nat) : Update Unit := do
  match purpose, ((← get).thread id).body with
  | .serve window, .server server =>
    moveThread id .endWait
    match result with
    | .ok index =>
      setActivity id .looping
      serveIndex server window index
    | .error .timedOut => setActivity id .looping
    | .error .terminationRequested =>
      closeSessions server
      exitThread id .returned
    | .error e =>
      closeSessions server
      exitThread id (.failed e)
  | purpose, _ => endGuestWait id purpose result

/-- Ends a wait whose time is over. -/
def expireThread (id : RecordId) : Update Unit := do
  if let .waiting wait := ((← get).thread id).activity then
    leaveWaitWith id wait.purpose (← (expireWait id wait.objects).run)

/-- Lets a thread run to the next point at which it can block. -/
def runThread (id : RecordId) : Update Unit := do
  let s ← get
  let t := s.thread id
  match t.activity with
  | .none => return
  | .starting =>
    moveThread id .run
    match t.body with
    | .guest => setActivity id .idle
    | .server _ => setActivity id .looping
  | .idle => exitThread id .returned
  | .held call => passCheckpoint id call
  | .looping =>
    match t.body with
    | .server server => servePass id server
    | .guest => setActivity id .idle
  | .waiting wait =>
    if s.wakeUps.has id then
      match ← (resumeWait id t.terminationRequested wait.objects).run with
      | .ok none => return
      | .ok (some index) => leaveWaitWith id wait.purpose (.ok index)
      | .error e => leaveWaitWith id wait.purpose (.error e)
    else expireThread id

/-- Lets threads run, at most a given number of times. -/
def settleFor : Nat → Update Unit
  | 0 => return
  | fuel + 1 => do
    match (← get).nextRunnable? with
    | some id =>
      runThread id
      settleFor fuel
    | none => return

/-- More runs than any settling takes. -/
def settleLimit : Nat := 1000000

/-- Lets threads run until none can. -/
def settle : Update Unit := settleFor settleLimit

end Microkernel.Machine
