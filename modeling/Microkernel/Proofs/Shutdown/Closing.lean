import Microkernel.Proofs.Shutdown.Making
import Microkernel.Proofs.Machine.ProcessIds

/-!
# Shutting a kernel down while processes are started

Start calls and the shutdown of a kernel are carried out step by step, in any order. A call looks at the shutdown once, before its
first step. So a process may join the set after the set was cleared, and a thread may be started after its process was terminated;
besides, a process may have lost its place in the set. Nothing else gets past a shutdown (`closed_iff`).
-/

namespace Microkernel.Machine

/-! ## Steps -/

/-- A process becomes a member of the process set. -/
def StartCall.enlist (x : StartCall) (kernel id : RecordId) : Update Unit := do
  let k := (← get).kernel kernel
  let p := (← get).process id
  if p.isApplication && k.paused then setPaused id true
  setKernel kernel { k with processes := k.processes.insert p.pid id }
  let program := "0x" ++ Text.hexPadded 16 x.creation.programId.toNat
  log .info s!"Created process {x.creation.name} (pid {p.pidText}, program {program}, version {x.creation.version})"
  let _ ← audit kernel (.processCreated p.pid x.creation.name x.creation.flags.isApplication)

/-- How far a start call has come. -/
inductive StartStage
  /-- The kernel was not shut down when it looked. -/
  | admitted (capabilities : Capabilities)
  | made (p : Pair)
  /-- The terminated processes have left the set. -/
  | reaped (p : Pair)
  /-- The process is in the set. -/
  | enlisted (p : Pair)
  /-- The thread is started, or the call has failed. -/
  | returned (p : Option Pair)

namespace StartStage

/-- The process and the thread, once they are made. -/
def pair? : StartStage → Option Pair
  | admitted _ => none
  | made p | reaped p | enlisted p => some p
  | returned p => p

/-- The process and the thread, once the process has joined the set. -/
def enlisted? : StartStage → Option Pair
  | enlisted p => some p
  | returned p => p
  | _ => none

def isReturned : StartStage → Bool
  | returned _ => true
  | _ => false

end StartStage

/-- A start call under way. -/
structure Start where
  call : StartCall
  stage : StartStage
  /-- Its thread was started after its process was terminated. -/
  startedLate : Bool := false
  /-- Its thread has entered its entry after its process was terminated. -/
  enteredLate : Bool := false

/-- How far the shutdown has come. -/
inductive Shutdown
  | ahead
  | resumed
  /-- No more calls are admitted. -/
  | begun
  /-- A process is made that does the rest. -/
  | hosted (host : Pair)
  /-- The set is locked, and these are left to terminate. -/
  | terminating (host : Pair) (rest : List RecordId)
  | cleared (host : Pair)
  | done
  deriving DecidableEq

/-- The process that does the work, and its thread. -/
def Shutdown.host? : Shutdown → Option Pair
  | hosted p | terminating p _ | cleared p => some p
  | _ => none

def Shutdown.holdsSet : Shutdown → Bool
  | terminating _ _ => true
  | _ => false

/-- A machine, and the calls that are under way on one of its kernels. -/
structure Closing where
  kernel : RecordId
  machine : Machine
  starts : List Start := []
  shutdown : Shutdown := .ahead
  /-- The processes that have joined the set since it was cleared last. -/
  unswept : List RecordId := []
  /-- The processes whose place in the set another one has taken. -/
  displaced : List RecordId := []

/-- The processes of a kernel in the order in which a shutdown terminates them. -/
def closingOrder (s : Machine) (kernel : RecordId) : List RecordId :=
  let newestFirst := (s.processesOf kernel).mergeSort fun a b => (s.process b).creationOrder ≤ (s.process a).creationOrder
  newestFirst.filter (fun id => (s.process id).isApplication) ++ newestFirst.filter fun id => !(s.process id).isApplication

/-- Ends the process that has done the work of a shutdown. -/
def dismiss (host : Pair) : Update Unit := do
  exitThread host.thread .returned
  terminateProcess host.process none
  log .info "All processes terminated"

namespace Closing

/-- The process set of the kernel. -/
def set (c : Closing) : Std.TreeMap Nat RecordId := (c.machine.kernel c.kernel).processes

/-- A start call takes its next step. Nobody but the shutdown goes to the set while the shutdown holds it. -/
def advance (c : Closing) (i : Nat) (x : Start) : Closing :=
  match x.stage with
  | .admitted capabilities =>
    match (x.call.make c.kernel capabilities).run c.machine with
    | (.ok p, machine) => { c with machine, starts := c.starts.set i { x with stage := .made p } }
    | (.error _, machine) => { c with machine, starts := c.starts.set i { x with stage := .returned none } }
  | .made p =>
    if c.shutdown.holdsSet then c
    else { c with machine := (reapTerminated c.kernel c.machine).2, starts := c.starts.set i { x with stage := .reaped p } }
  | .reaped p =>
    if c.shutdown.holdsSet then c
    else { c with
      machine := (x.call.enlist c.kernel p.process c.machine).2
      starts := c.starts.set i { x with stage := .enlisted p }
      unswept := p.process :: c.unswept
      displaced := c.set[(c.machine.process p.process).pid]?.toList ++ c.displaced }
  | .enlisted p => { c with
      machine := (startThread p.thread c.machine).2
      starts := c.starts.set i { x with
        stage := .returned (some p)
        startedLate := (c.machine.process p.process).state = .terminated } }
  | .returned _ => c

/-- The shutdown takes its next step. -/
def close (c : Closing) : Closing :=
  match c.shutdown with
  | .ahead => { c with machine := (resume c.kernel c.machine).2, shutdown := .resumed }
  | .resumed => { c with machine := c.machine.closing c.kernel, shutdown := .begun }
  | .begun =>
    match (makeHost c.kernel).run c.machine with
    | (.ok host, machine) => { c with machine, shutdown := .hosted host }
    | (.error _, machine) => { c with machine, shutdown := .done }
  | .hosted host => { c with shutdown := .terminating host (c.machine.closingOrder c.kernel) }
  | .terminating host (id :: rest) => { c with
      machine := (terminateProcess id none c.machine).2
      shutdown := .terminating host rest }
  | .terminating host [] => { c with
      machine := c.machine.withKernel c.kernel { c.machine.kernel c.kernel with processes := {} }
      shutdown := .cleared host
      unswept := [] }
  | .cleared host => { c with machine := (dismiss host c.machine).2, shutdown := .done }
  | .done => c

/-- The thread of a start call runs to the next point at which it can block. -/
def turn (c : Closing) (i : Nat) (x : Start) : Closing :=
  match x.stage.pair? with
  | some p => { c with
      machine := (runThread p.thread c.machine).2
      starts := c.starts.set i { x with
        enteredLate := x.enteredLate ||
          ((c.machine.thread p.thread).state = .started && (c.machine.process p.process).state = .terminated) } }
  | none => c

/-- Whose turn it is. -/
inductive Step
  /-- Guest code is to be started: the kernel looks whether it takes the call. -/
  | call (x : StartCall)
  | advance (i : Nat)
  | turn (i : Nat)
  | close

def step (c : Closing) : Step → Closing
  | .call x =>
    let x := { x with body := .guest }
    match x.admitted? (c.machine.kernel c.kernel) with
    | some capabilities => { c with starts := c.starts ++ [{ call := x, stage := .admitted capabilities }] }
    | none => { c with
        machine := ((x.start c.kernel).run c.machine).2
        starts := c.starts ++ [{ call := x, stage := .returned none }] }
  | .advance i => (c.starts[i]?).elim c (c.advance i)
  | .turn i => (c.starts[i]?).elim c (c.turn i)
  | .close => c.close

/-- Start calls and a shutdown on a new kernel, in an order. -/
def after (x : Setup) (steps : List Step) : Closing := steps.foldl step { kernel := x.kernel, machine := x.machine }

/-- The processes that were made for start calls. -/
def made (c : Closing) : List Pair := c.starts.filterMap (·.stage.pair?)

/-- All calls have returned, and no thread is on its way to its entry. -/
structure Settled (c : Closing) : Prop where
  starts : ∀ x ∈ c.starts, x.stage.isReturned = true
  threads : ∀ p ∈ c.made, (c.machine.thread p.thread).state ≠ .started
  shutdown : c.shutdown = .done

/-- Nothing has got past the shutdown: the set is empty, all processes that were made are terminated, and no thread has entered its
entry after its process was terminated. -/
structure Closed (c : Closing) : Prop where
  set : c.set.isEmpty = true
  processes : ∀ p ∈ c.made, (c.machine.process p.process).state = .terminated
  threads : ∀ x ∈ c.starts, x.enteredLate = false

end Closing

/-! ## Steps in a row -/

/-- Joining the set is enlisting the process and starting its thread. -/
theorem StartCall.join_run (x : StartCall) (kernel id thread : RecordId) (s : Machine) :
    x.join kernel id thread s = startThread thread (x.enlist kernel id s).2 := by
  unfold join enlist
  rw [Update.run_look, Update.run_look, Update.run_look, Update.run_look]
  dsimp only
  split <;> rfl

/-- The steps of an admitted call that nobody comes between are the call. -/
theorem StartCall.start_of_steps {x : StartCall} {kernel : RecordId} {capabilities : Capabilities} {s : Machine}
    (h : x.admitted? (s.kernel kernel) = some capabilities) : ((x.start kernel).run s).2 =
      match (x.make kernel capabilities).run s with
      | (.ok p, t) => (startThread p.thread (x.enlist kernel p.process (reapTerminated kernel t).2).2).2
      | (.error _, t) => t := by
  rw [start_of_admitted h, make, Action.run_lift_bind, Action.run_bind]
  rcases (x.makeThread kernel (x.create kernel capabilities s).1).run (x.create kernel capabilities s).2 with ⟨e | thread, t⟩
  · rfl
  · dsimp only
    rw [enter, Update.run_bind, Update.run_bind, join_run]
    rfl

/-- The processes of the set are terminated one after the other, and then the set is cleared. -/
theorem terminateProcesses_of_steps (kernel : RecordId) (s : Machine) : (terminateProcesses kernel (pure ()) s).2 =
    let t := (s.closingOrder kernel).foldl (fun t id => (terminateProcess id none t).2) s
    t.withKernel kernel { t.kernel kernel with processes := {} } := by
  rw [terminateProcesses, Update.run_look, closingOrder, List.foldl_append]
  dsimp only
  rw [Update.run_bind, Update.run_forIn, Update.run_bind, Update.run_bind, Update.run_forIn]
  rfl

/-- The steps of a shutdown that nobody comes between are the shutdown. -/
theorem terminateAll_of_steps (kernel : RecordId) (s : Machine) : ((terminateAll kernel (pure ())).run s).2 =
    match (makeHost kernel).run ((resume kernel s).2.closing kernel) with
    | (.ok host, t) => (dismiss host (terminateProcesses kernel (pure ()) t).2).2
    | (.error _, t) => t := by
  have hrest (host : RecordId) (thread : RecordId) (t : Machine) : (ExceptT.run (do
      let seen ← (terminateProcesses kernel (pure ()) : Update Unit)
      exitThread thread .returned
      terminateProcess host none
      log .info "All processes terminated"
      return seen : Action Unit) t).2 = (dismiss ⟨host, thread⟩ (terminateProcesses kernel (pure ()) t).2).2 := by
    rw [Action.run_lift_bind, Action.run_lift_bind, Action.run_lift_bind, Action.run_lift_bind, Action.run_pure, dismiss,
      Update.run_bind, Update.run_bind]
  unfold terminateAll makeHost
  rw [Action.run_lift_bind, Action.run_look, Action.run_lift_bind]
  have hclosing : (setKernel kernel { (resume kernel s).2.kernel kernel with shuttingDown := true } (resume kernel s).2).2 =
      (resume kernel s).2.closing kernel := rfl
  rw [hclosing]
  generalize (resume kernel s).2.closing kernel = t
  rw [Action.run_lift_bind, Action.run_lift_bind, Action.run_lift_bind, Action.run_bind]
  rw [Action.run_lift_bind, Action.run_lift_bind, Action.run_lift_bind, Action.run_bind]
  rcases ExceptT.run (createThread _ _ 0 .kernel .guest) _ with ⟨e | thread, u⟩
  · rfl
  · dsimp only
    rw [Action.run_lift_bind, Action.run_lift_bind, hrest, Action.run_lift_bind, Action.run_lift_bind, Action.run_pure]

end Microkernel.Machine
