import Microkernel.Machine.Termination
import Microkernel.Proofs.Machine.Keeps
import Microkernel.Proofs.Machine.Tables

/-!
# Ending a process step by step

A process is ended by whoever calls to terminate it, by its own threads that call to, and by the last of its threads to exit. Each takes
its steps one at a time and looks at the threads one after the other, and others take theirs in between (`Teardown`). Steps in a row are
the programs (`finishTermination_of_steps`, `exitThread_of_steps`, `terminateProcess_of_steps`).
-/

namespace Microkernel.Machine

/-! ## Programs in pieces -/

/-- Lets a process begin to terminate; answers whether it could. -/
def beginEnding (id : RecordId) : Update Bool := do
  if ← moveProcess id .beginTermination then
    let p := (← get).process id
    log .info s!"Terminating process {p.name} ({p.pidText})"
    return true
  return false

/-- Closes bindings one after the other. -/
def closeBindings (bindings : List (Handle × KernelObject)) : Update Unit := do
  for (_, object) in bindings do handleClosed object

/-- Releases what a terminating process holds, all at once; answers whether there was something to release. -/
def release (id : RecordId) : Update Bool := do
  let p := (← get).process id
  match p.state.next? .finishTermination with
  | some state =>
    let (bindings, handles) := p.handles.drain
    setProcess id { p with handles, space := {} }
    closeBindings bindings
    setProcess id { (← get).process id with state }
    return true
  | none => return false

/-- Tells that a process has terminated. -/
def tellTerminated (id : RecordId) : Update Unit := do
  let p := (← get).process id
  wake p.waiters
  log .info s!"Process {p.name} ({p.pidText}) terminated"
  let _ ← audit p.kernel (.processTerminated p.pid)

/-- What becomes of a thread when its body is over, before it exits. -/
def endBody (id : RecordId) (ending : ThreadEnd) : Update Unit := do
  let t := (← get).thread id
  let name := ((← get).process t.process).name
  match ending with
  | .returned => pure ()
  | .failed .terminationRequested => pure ()
  | .failed e => log .warn s!"{name}: thread {t.threadId} exited with error: {e.message}"
  | .panicked => log .error s!"{name}: thread {t.threadId} panicked"
  setActivity id .none

/-! ## Stages -/

/-- How far somebody is who finishes a termination. -/
inductive FinishStage
  | releasing
  /-- The process is terminated, and nobody has been told. -/
  | telling
  | finished
  deriving DecidableEq

/-- How far a call to terminate a process has come. -/
inductive CallStage
  | called
  /-- These threads are still to be asked to exit. -/
  | requesting (rest : List RecordId)
  /-- These are still to be waited for. -/
  | joining (rest : List RecordId)
  | checking
  | finishing (stage : FinishStage)
  deriving DecidableEq

/-- How far a thread of the process is. -/
inductive ThreadStage
  /-- In its body, or about to enter it. -/
  | entered
  /-- In a call that terminates its own process. -/
  | calling (stage : CallStage)
  /-- Its body is over. -/
  | ended
  | exiting
  /-- It has exited, and these threads are still to be looked at. -/
  | looking (rest : List RecordId)
  /-- It found that all threads have exited. -/
  | deciding
  | beginning
  | finishing (stage : FinishStage)
  deriving DecidableEq

/-- Somebody outside who has called to terminate the process, or one of its threads. -/
inductive Party
  | outside (stage : CallStage)
  | thread (id : RecordId) (stage : ThreadStage)
  deriving DecidableEq

section

variable (id : RecordId) (s : Machine)

def FinishStage.advance : FinishStage → FinishStage × Machine
  | releasing =>
    let (released, t) := release id s
    (if released then telling else finished, t)
  | telling => (finished, (tellTerminated id s).2)
  | finished => (finished, s)

/-- The next step of a call; it waits in front of a thread that has not exited. -/
def CallStage.advance (caller : Option RecordId) : CallStage → CallStage × Machine
  | called =>
    let (begun, t) := beginEnding id s
    (if begun then requesting (s.process id).threads else finishing .finished, t)
  | requesting (thread :: rest) => (requesting rest, (requestTermination thread s).2)
  | requesting [] => (joining ((s.process id).threads.filter (some · ≠ caller)), (setPaused id false s).2)
  | joining (thread :: rest) => (if (s.thread thread).state = .exited then joining rest else joining (thread :: rest), s)
  | joining [] => (checking, s)
  | checking =>
    let callerAlive := caller.any fun thread => (s.process id).threads.contains thread && (s.thread thread).state ≠ .exited
    (finishing (if callerAlive then .finished else .releasing), s)
  | finishing stage =>
    let (stage, t) := stage.advance id s
    (finishing stage, t)

/-- The next step of a thread by itself. What happens in its body is up to the body. -/
def ThreadStage.advance (thread : RecordId) : ThreadStage → ThreadStage × Machine
  | entered => (entered, s)
  | calling (.finishing .finished) => (entered, s)
  | calling stage =>
    let (stage, t) := stage.advance id s (some thread)
    (calling stage, t)
  | ended => (exiting, (moveThread thread .exit s).2)
  | exiting => (looking (s.process id).threads, (moveThread thread .finish s).2)
  | looking (other :: rest) => (if (s.thread other).state = .exited then looking rest else finishing .finished, s)
  | looking [] => (deciding, s)
  | deciding => (if (s.process id).state = .running then beginning else finishing .releasing, s)
  | beginning => (finishing .releasing, (moveProcess id .beginTermination s).2)
  | finishing stage =>
    let (stage, t) := stage.advance id s
    (finishing stage, t)

def Party.advance : Party → Party × Machine
  | outside stage =>
    let (stage, t) := stage.advance id s none
    (outside stage, t)
  | thread th stage =>
    let (stage, t) := stage.advance id s th
    (thread th stage, t)

end

/-! ## Interleavings -/

/-- What others may change while a process is ended: anything but how far the process and its threads are, and the audit log. -/
structure Undisturbed (id : RecordId) (s t : Machine) : Prop where
  state : (t.process id).state = (s.process id).state
  threads : (t.process id).threads = (s.process id).threads
  kernel : (t.process id).kernel = (s.process id).kernel
  pid : (t.process id).pid = (s.process id).pid
  threadState : ∀ thread ∈ (s.process id).threads, (t.thread thread).state = (s.thread thread).state
  audit : (t.kernel (s.process id).kernel).audit = (s.kernel (s.process id).kernel).audit

/-- What is done in the bodies of threads and elsewhere while a process is ended. -/
structure Work (id : RecordId) where
  run : Machine → Machine
  undisturbed : ∀ s, Undisturbed id s (run s)

/-- A machine, and those who have a part in ending one of its processes. -/
structure Teardown (id : RecordId) where
  machine : Machine
  parties : List Party

namespace Teardown

variable {id : RecordId}

/-- What happens next. -/
inductive Step (id : RecordId)
  /-- Somebody outside calls to terminate the process. -/
  | terminate
  | advance (i : Nat)
  /-- A thread enters its body, begins to wait in it, or goes on. -/
  | move (i : Nat) (event : ThreadEvent)
  /-- The body of a thread calls to terminate the process. -/
  | exitProcess (i : Nat)
  /-- The body of a thread is over. -/
  | leave (i : Nat) (ending : ThreadEnd)
  | work (w : Work id)

/-- What can happen to a thread that stays in its body. -/
def isInner : ThreadEvent → Bool
  | .run | .beginWait | .endWait => true
  | .start | .exit | .finish => false

def step (c : Teardown id) : Step id → Teardown id
  | .terminate => { c with parties := c.parties ++ [.outside .called] }
  | .advance i =>
    match c.parties[i]? with
    | some party =>
      let (party, machine) := party.advance id c.machine
      { machine, parties := c.parties.set i party }
    | none => c
  | .move i event =>
    match c.parties[i]? with
    | some (.thread th .entered) => if isInner event then { c with machine := (moveThread th event c.machine).2 } else c
    | _ => c
  | .exitProcess i =>
    match c.parties[i]? with
    | some (.thread th .entered) =>
      if (c.machine.thread th).state = .running then { c with parties := c.parties.set i (.thread th (.calling .called)) } else c
    | _ => c
  | .leave i ending =>
    match c.parties[i]? with
    | some (.thread th .entered) =>
      if (c.machine.thread th).state = .running then
        { machine := (endBody th ending c.machine).2, parties := c.parties.set i (.thread th .ended) }
      else c
    | _ => c
  | .work w => { c with machine := w.run c.machine }

/-- A machine before anybody ends the process. -/
def start (id : RecordId) (s : Machine) : Teardown id where
  machine := s
  parties := (s.process id).threads.map (.thread · .entered)

/-- The process is being ended, or has been, by steps in an order. -/
def after (id : RecordId) (s : Machine) (steps : List (Step id)) : Teardown id := steps.foldl step (start id s)

def state (c : Teardown id) : ProcessState := (c.machine.process id).state

/-- Nobody has a step to take. -/
def AtRest (c : Teardown id) : Prop :=
  ∀ party ∈ c.parties, party = .outside (.finishing .finished) ∨ ∃ th, party = .thread th (.finishing .finished)

end Teardown

end Microkernel.Machine
