/-!
# Lifecycles
-/

namespace Microkernel

/-!
## The life of a process

A process runs, begins to terminate and is terminated; no state is entered twice.
-/

/-- Where a process is in its life. -/
inductive ProcessState
  | created
  | running
  | terminating
  | terminated
  deriving DecidableEq, Repr, Inhabited

/-- What can happen to a process. -/
inductive ProcessEvent
  | start
  | beginTermination
  | finishTermination
  deriving DecidableEq, Repr, Inhabited

def ProcessState.name : ProcessState → String
  | created => "Created"
  | running => "Running"
  | terminating => "Terminating"
  | terminated => "Terminated"

def ProcessEvent.name : ProcessEvent → String
  | start => "Start"
  | beginTermination => "BeginTermination"
  | finishTermination => "FinishTermination"

namespace ProcessState

/-- The state after an event, if the event is possible. -/
def next? : ProcessState → ProcessEvent → Option ProcessState
  | created, .start => some running
  | created, .beginTermination => some terminating
  | running, .beginTermination => some terminating
  | terminating, .finishTermination => some terminated
  | _, _ => none

/-- Termination has begun or is complete. -/
def isTerminating : ProcessState → Bool
  | terminating => true
  | terminated => true
  | _ => false

/-- The wording for an event that the state does not allow. -/
def refusal (state : ProcessState) (event : ProcessEvent) : String :=
  s!"process cannot handle {event.name} in state {state.name}"

end ProcessState

/-!
## The life of a thread

A thread is created, started and run; while it runs it may wait any number of times, and it ends by exiting.
-/

/-- Where a thread is in its life. -/
inductive ThreadState
  | created
  | started
  | running
  /-- Blocked in a wait. -/
  | waiting
  | exiting
  | exited
  deriving DecidableEq, Repr, Inhabited

/-- What can happen to a thread. -/
inductive ThreadEvent
  | start
  | run
  | beginWait
  | endWait
  | exit
  | finish
  deriving DecidableEq, Repr, Inhabited

def ThreadState.name : ThreadState → String
  | created => "Created"
  | started => "Started"
  | running => "Running"
  | waiting => "Waiting"
  | exiting => "Exiting"
  | exited => "Exited"

def ThreadEvent.name : ThreadEvent → String
  | start => "Start"
  | run => "Run"
  | beginWait => "BeginWait"
  | endWait => "EndWait"
  | exit => "Exit"
  | finish => "Finish"

namespace ThreadState

/-- The state after an event, if the event is possible. -/
def next? : ThreadState → ThreadEvent → Option ThreadState
  | created, .start => some started
  | started, .run => some running
  | running, .beginWait => some waiting
  | waiting, .endWait => some running
  | running, .exit => some exiting
  | exiting, .finish => some exited
  | _, _ => none

/-- Started and not yet exited. -/
def isAlive : ThreadState → Bool
  | started => true
  | running => true
  | waiting => true
  | exiting => true
  | _ => false

/-- The wording for an event that the state does not allow. -/
def refusal (state : ThreadState) (event : ThreadEvent) : String :=
  s!"thread cannot handle {event.name} in state {state.name}"

end ThreadState

/-- Whether a thread does the kernel's housekeeping or runs guest code. -/
inductive ThreadType
  | kernel
  | guest
  deriving DecidableEq, Repr, Inhabited

def ThreadType.name : ThreadType → String
  | kernel => "Kernel"
  | guest => "Guest"

end Microkernel
