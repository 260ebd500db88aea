import Microkernel.Machine.Handles
import Microkernel.Machine.Waits

/-!
# Ending threads and processes

A process is ended by asking its threads to stop. Each leaves whatever it is blocked in and exits; the last one to exit releases the
handles and the mappings of the process, once.
-/

namespace Microkernel.Machine

/-! ## States -/

/-- Moves a thread on; its waiters are woken when it has exited. -/
def moveThread (id : RecordId) (event : ThreadEvent) : Update Unit := do
  let t := (← get).thread id
  match t.state.next? event with
  | some state =>
    setThread id { t with state }
    if state = .exited then wake t.waiters
  | none => log .warn s!"thread {t.threadId}: {t.state.refusal event}"

/-- Moves a process on; answers whether it could. -/
def moveProcess (id : RecordId) (event : ProcessEvent) : Update Bool := do
  let p := (← get).process id
  match p.state.next? event with
  | some state =>
    setProcess id { p with state }
    return true
  | none => return false

/-- Changes what a thread does. -/
def setActivity (id : RecordId) (activity : Activity) : Update Unit := do
  setThread id { (← get).thread id with activity }

/-- Hands out the answer to a guest call. -/
def answerCall (id : RecordId) (answer : Except KernelError CallValue) : Update Unit := do
  setThread id { (← get).thread id with answer := some answer }

/-- Pauses or resumes the threads of a process at their checkpoints. -/
def setPaused (id : RecordId) (paused : Bool) : Update Unit := do
  setProcess id { (← get).process id with paused }

/-- Asks a thread to exit, and ends any wait it is blocked in. -/
def requestTermination (id : RecordId) : Update Unit := do
  setThread id { (← get).thread id with terminationRequested := true }
  wakeOne id

/-! ## Ends -/

/-- Releases what a terminating process holds and completes its termination, unless that was done before. -/
def finishTermination (id : RecordId) : Update Unit := do
  let p := (← get).process id
  match p.state.next? .finishTermination with
  | some state =>
    let (bindings, handles) := p.handles.drain
    setProcess id { p with handles, space := {} }
    for (_, object) in bindings do handleClosed object
    setProcess id { (← get).process id with state }
    wake ((← get).process id).waiters
    log .info s!"Process {p.name} ({p.pidText}) terminated"
    let _ ← audit p.kernel (.processTerminated p.pid)
  | none => return

/-- What a process does when one of its threads has exited: once all have, it terminates. -/
def threadExited (process : RecordId) : Update Unit := do
  let s ← get
  if (s.process process).threads.all fun t => (s.thread t).state = .exited then
    if (s.process process).state = .running then
      let _ ← moveProcess process .beginTermination
    finishTermination process

/-- How the body of a thread ends. -/
inductive ThreadEnd
  /-- It returns, or returns because it was asked to. -/
  | returned
  | failed (e : KernelError)
  | panicked

/-- Ends a thread whose body is over. -/
def exitThread (id : RecordId) (ending : ThreadEnd) : Update Unit := do
  let t := (← get).thread id
  let name := ((← get).process t.process).name
  match ending with
  | .returned => pure ()
  | .failed .terminationRequested => pure ()
  | .failed e => log .warn s!"{name}: thread {t.threadId} exited with error: {e.message}"
  | .panicked => log .error s!"{name}: thread {t.threadId} panicked"
  setActivity id .none
  moveThread id .exit
  moveThread id .finish
  threadExited t.process

/-- Closes every session of a server. -/
def closeSessions (server : RecordId) : Update Unit := do
  let x := (← get).server server
  setServer server { x with sessions := [] }
  for entry in x.sessions do closeServerSession entry.session

/-- Takes a thread out of the wait it is blocked in. -/
def leaveWait (id : RecordId) (wait : Wait) : Update Unit := do
  modify fun s => { s with wakeUps := s.wakeUps.take id }
  unregisterAll id wait.objects
  moveThread id .endWait

/-- Ends a thread that was asked to, wherever it stands. -/
def stopThread (id : RecordId) : Update Unit := do
  let t := (← get).thread id
  match t.activity with
  | .none => return
  | .starting => moveThread id .run
  | .idle => pure ()
  | .held _ => answerCall id (.error .terminationRequested)
  | .looping => pure ()
  | .waiting wait =>
    leaveWait id wait
    match wait.purpose with
    | .serve _ => pure ()
    | .reply request _ =>
      completeRequest request (.error .terminationRequested)
      answerCall id (.error .terminationRequested)
    | _ => answerCall id (.error .terminationRequested)
  if let .server server := t.body then closeSessions server
  exitThread id .returned

/-- Terminates a process, for one of its own threads or for somebody outside. All threads are asked to exit and, the caller apart,
waited for; a process that is already terminating is left alone. -/
def terminateProcess (id : RecordId) (caller : Option RecordId) : Update Unit := do
  if ← moveProcess id .beginTermination then
    let p := (← get).process id
    log .info s!"Terminating process {p.name} ({p.pidText})"
    for thread in p.threads do requestTermination thread
    setPaused id false
    for thread in p.threads do
      if some thread ≠ caller then stopThread thread
    let s ← get
    let callerAlive := caller.any fun thread => p.threads.contains thread && (s.thread thread).state ≠ .exited
    if !callerAlive then finishTermination id

end Microkernel.Machine
