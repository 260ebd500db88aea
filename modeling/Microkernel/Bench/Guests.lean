import Microkernel.Bench.Basic

/-!
# Guests on a bench

Starting apps, handing calls to their threads and collecting the answers.
-/

namespace Microkernel.Bench

open Machine

/-- Starts an app; one that had the name ends, as its thread gets no further calls. -/
def startApp (name : String) (onMain : Bool) (creation : ProcessCreation) (words : List UInt32) (priority : Nat) :
    Operation RecordId := do
  let process ← perform (startProcess (← kernelOn onMain) creation words priority .guest)
  let threads ← look fun m => (m.process process).threads
  if let some old := (← get).apps[name]? then update (submitCall old.thread .finish)
  setApp name { process, thread := threads.headD 0 }
  return process

/-- What became of a call. -/
inductive CallOutcome
  | answer (value : CallValue)
  /-- The call waits, or its process is paused. -/
  | pending
  /-- The thread's entry is over; this is the state of the process. -/
  | ended (state : ProcessState)

/-- Whether a call ends the entry of its thread. -/
def isEnding : GuestCall → Bool
  | .finish | .fail _ | .panic => true
  | _ => false

/-- Takes the answer of a thread's last call, if it has come. -/
def takeAnswer (thread : RecordId) : Operation (Option (Except KernelError CallValue)) := do
  let t ← look fun m => m.thread thread
  update (setThread thread { t with answer := none })
  return t.answer

/-- The outcome of a call that has been answered. -/
def outcomeOf (answer : Except KernelError CallValue) : Operation CallOutcome := do
  match answer with
  | .ok value => return .answer value
  | .error e => throw (.kernel e)

/-- Lets the time of a wait pass. -/
def passTime (thread : RecordId) : Operation Unit := do
  if let .waiting wait := (← look fun m => m.thread thread).activity then
    if wait.isTimed then
      update (expireThread thread)
      settle

/-- Hands a call to an app's thread. A call that waits without a limit of time is left pending; so is any that waits, or is held,
if the operator does not stay for it. -/
def call (name : String) (call : GuestCall) (stay : Bool) : Operation CallOutcome := do
  let a ← app name
  if a.pending then throw .busy
  if (← look fun m => m.thread a.thread).activity matches .none then throw .noThread
  update (submitCall a.thread call)
  settle
  if isEnding call then return .ended (← look fun m => (m.process a.process).state)
  if stay then passTime a.thread
  match ← takeAnswer a.thread with
  | some answer => outcomeOf answer
  | none =>
    setApp name { a with pending := true }
    if stay then throw .stuck else return .pending

/-- Collects the answer of a pending call. -/
def join (name : String) : Operation CallOutcome := do
  let a ← app name
  if !a.pending then throw .idle
  passTime a.thread
  match ← takeAnswer a.thread with
  | some answer =>
    setApp name { a with pending := false }
    outcomeOf answer
  | none => throw .stuck

/-- Asks an app's thread to exit and waits until it has. -/
def requestExit (name : String) : Operation (Bool × ProcessState) := do
  let a ← app name
  update (requestTermination a.thread)
  settle
  look fun m => ((m.thread a.thread).terminationRequested, (m.process a.process).state)

/-- The states of all apps. -/
def appStates (apps : List (String × App)) (m : Machine) : List (String × ProcessState) :=
  apps.map fun (name, a) => (name, (m.process a.process).state)

/-- Shuts a kernel down; answers with the states of the apps once the applications are gone. -/
def terminateAll (onMain : Bool) : Operation (List (String × ProcessState)) := do
  let apps := (← get).apps.toList
  perform (Machine.terminateAll (← kernelOn onMain) do return appStates apps (← get))

/-- Shuts a supervisor down; answers with the states of the apps once the applications are gone. -/
def shutDown : Operation (Option (List (String × ProcessState))) := do
  let apps := (← get).apps.toList
  supervise (Supervisor.shutDown do return appStates apps (← get))

end Microkernel.Bench
