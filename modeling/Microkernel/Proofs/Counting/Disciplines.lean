import Mathlib.Algebra.BigOperators.Group.Finset.Basic
import Microkernel.Machine.Termination
import Microkernel.Proofs.Machine.Frames
import Microkernel.Proofs.Machine.Handles

/-!
# Closing the last binding

A kernel has to know which close of a handle removes the last binding to an object, to tear a session or port end down at that close
and at no other. It counts the bindings beside each object (`counting`); it could as well look through the handle tables of all
processes (`looking`). What binds and closes handles is written down here once for both (`Discipline`). With counts it is the program
that runs (`Discipline.terminateProcess_counting` and its neighbours). What a kernel does beside binding and closing handles neither
reads nor changes a count (`Blind`).
-/

namespace Microkernel.Machine

variable {α β : Type}

/-- How many bindings to an object there are, over all handle tables. -/
def bindingsTo (s : Machine) (id : RecordId) : Nat :=
  ∑ process ∈ s.processes.keys.toFinset, (s.table process).objects.countP (·.id = id)

/-- What the end of the last binding does to an object. -/
def tearDown (object : KernelObject) : Update Unit :=
  match object with
  | .clientSession id => closeClientSession id
  | .serverSession id => closeServerSession id
  | .serverPort id => closePort id
  | _ => return

/-- What is done where a binding begins and where one is gone. -/
structure Discipline where
  opened (object : KernelObject) : Update Unit
  /-- A binding to the object is gone. The bindings to the rest have left their table too and are closed next. -/
  closed (object : KernelObject) (rest : List KernelObject) : Update Unit

/-- Every object counts its bindings. -/
def counting : Discipline where
  opened := handleOpened
  closed object _ := handleClosed object

/-- Nothing is counted: the binding was the last one if no table has another and none is still to be closed. -/
def looking : Discipline where
  opened _ := return
  closed object rest := do
    if (← get).bindingsTo object.id + rest.countP (·.id = object.id) = 0 then tearDown object

namespace Discipline

variable (d : Discipline)

/-! ## Binding and closing -/

/-- Binds an object to a fresh handle of a process. -/
def generateHandle (process : RecordId) (object : KernelObject) : Action Handle := do
  let p := (← get).process process
  match p.handles.generate object with
  | .ok (handle, handles) =>
    setProcess process { p with handles }
    d.opened object
    return handle
  | .error e =>
    if let .outOfHandles capacity := e then
      log .warn s!"{p.name} ({p.pidText}): handle table exhausted at {capacity} entries"
    throw (.ofHandleError e)

/-- Removes a handle of a process. -/
def closeHandle (process : RecordId) (handle : Handle) : Action Unit := do
  let p := (← get).process process
  match p.handles.close handle with
  | .ok (object, handles) =>
    setProcess process { p with handles }
    d.closed object []
  | .error e => throw (.ofHandleError e)

/-- Closes bindings that have left their table together. -/
def closeAll : List KernelObject → Update Unit
  | [] => return
  | object :: rest => do
    d.closed object rest
    closeAll rest

/-! ## Terminating -/

/-- Releases what a terminating process holds and completes its termination. -/
def finishTermination (id : RecordId) : Update Unit := do
  let p := (← get).process id
  match p.state.next? .finishTermination with
  | some state =>
    let (bindings, handles) := p.handles.drain
    setProcess id { p with handles, space := {} }
    d.closeAll (bindings.map (·.2))
    setProcess id { (← get).process id with state }
    wake ((← get).process id).waiters
    log .info s!"Process {p.name} ({p.pidText}) terminated"
    let _ ← audit p.kernel (.processTerminated p.pid)
  | none => return

/-- What a process does when one of its threads has exited. -/
def threadExited (process : RecordId) : Update Unit := do
  let s ← get
  if (s.process process).threads.all fun t => (s.thread t).state = .exited then
    if (s.process process).state = .running then
      let _ ← moveProcess process .beginTermination
    d.finishTermination process

/-- Ends a thread whose body is over. -/
def exitThread (id : RecordId) (ending : ThreadEnd) : Update Unit := do
  let t := (← get).thread id
  let name := ((← get).process t.process).name
  match ending with
  | .returned => pure ()
  | .failed .terminationRequested => pure ()
  | .failed e => log .warn s!"{name}: thread {t.threadId} exited with error: {e.message}"
  | .panicked => log .error s!"{name}: thread {t.threadId} panicked"
  setActivity id .none
  moveThread id .exit
  moveThread id .finish
  d.threadExited t.process

/-- Ends a thread that was asked to, wherever it stands. -/
def stopThread (id : RecordId) : Update Unit := do
  let t := (← get).thread id
  match t.activity with
  | .none => return
  | .starting => moveThread id .run
  | .idle => pure ()
  | .held _ => answerCall id (.error .terminationRequested)
  | .looping => pure ()
  | .waiting wait =>
    leaveWait id wait
    match wait.purpose with
    | .serve _ => pure ()
    | .reply request _ =>
      completeRequest request (.error .terminationRequested)
      answerCall id (.error .terminationRequested)
    | _ => answerCall id (.error .terminationRequested)
  if let .server server := t.body then closeSessions server
  d.exitThread id .returned

/-- Terminates a process, for one of its own threads or for somebody outside. -/
def terminateProcess (id : RecordId) (caller : Option RecordId) : Update Unit := do
  if ← moveProcess id .beginTermination then
    let p := (← get).process id
    log .info s!"Terminating process {p.name} ({p.pidText})"
    for thread in p.threads do requestTermination thread
    setPaused id false
    for thread in p.threads do
      if some thread ≠ caller then d.stopThread thread
    let s ← get
    let callerAlive := caller.any fun thread => p.threads.contains thread && (s.thread thread).state ≠ .exited
    if !callerAlive then d.finishTermination id

/-! ### What they do -/

section

variable {d} {s : Machine} {process : RecordId} {object : KernelObject} {handle : Handle} {handles : HandleTable KernelObject}
  {e : HandleError}

/-- Binding an object puts it into the table, and then its binding has begun. -/
theorem generateHandle_of_ok (h : (s.table process).generate object = .ok (handle, handles)) :
    (d.generateHandle process object).run s = (.ok handle, (d.opened object (s.withHandles process handles)).2) := by
  unfold table at h
  rw [generateHandle, Action.run_look]
  simp only [h]
  rfl

/-- A binding that is closed is taken out of the table, and none is still to be closed. -/
theorem closeHandle_of_ok (h : (s.table process).close handle = .ok (object, handles)) :
    (d.closeHandle process handle).run s = (.ok (), (d.closed object [] (s.withHandles process handles)).2) := by
  unfold table at h
  rw [closeHandle, Action.run_look]
  simp only [h]
  rfl

/-- A handle that is not in the table changes nothing. -/
theorem closeHandle_of_error (h : (s.table process).close handle = .error e) :
    (d.closeHandle process handle).run s = (.error (.ofHandleError e), s) := by
  unfold table at h
  rw [closeHandle, Action.run_look]
  simp only [h]
  rfl

end

/-! ## What runs -/

/-- With counts, binding an object is what the program does. -/
theorem generateHandle_counting : counting.generateHandle = Machine.generateHandle := rfl

/-- With counts, closing a handle is what the program does. -/
theorem closeHandle_counting : counting.closeHandle = Machine.closeHandle := rfl

/-- With counts, closing bindings together is closing one after the other. -/
theorem closeAll_counting (bindings : List (Handle × KernelObject)) :
    counting.closeAll (bindings.map (·.2)) = (do for (_, object) in bindings do handleClosed object : Update Unit) := by
  induction bindings with
  | nil => rfl
  | cons binding rest ih =>
    rw [List.forIn_cons]
    exact congrArg (handleClosed binding.2 >>= fun _ => ·) ih

/-- With counts, finishing a termination is what the program does. -/
theorem finishTermination_counting : counting.finishTermination = Machine.finishTermination := by
  funext id
  simp only [finishTermination, closeAll_counting]
  rfl

/-- With counts, the end of a thread is what the program does. -/
theorem exitThread_counting : counting.exitThread = Machine.exitThread := by
  unfold exitThread threadExited
  rw [finishTermination_counting]
  rfl

/-- With counts, the termination of a process is what the program does. -/
theorem terminateProcess_counting : counting.terminateProcess = Machine.terminateProcess := by
  unfold terminateProcess stopThread
  rw [exitThread_counting, finishTermination_counting]
  rfl

end Discipline

/-! ## Programs that know nothing of counts -/

/-- The machine with other handle counts. -/
def withCounts (s : Machine) (counts : Std.TreeMap RecordId Nat) : Machine := { s with handleCounts := counts }

/-- With other counts the program does and answers the same, and it leaves the counts as they are. -/
def Blind (p : Update α) : Prop := ∀ s counts, p (s.withCounts counts) = ((p s).1, (p s).2.withCounts counts)

namespace Blind

/-- An answer alone is blind to counts. -/
theorem pure (a : α) : Blind (pure a) := fun _ _ => rfl

/-- Blind programs one behind the other are blind. -/
theorem bind {p : Update α} {f : α → Update β} (hp : Blind p) (hf : ∀ a, Blind (f a)) : Blind (p >>= f) := by
  intro s counts
  rw [Update.run_bind, hp, hf, Update.run_bind]

/-- A change is blind if it is the same with other counts. -/
theorem modify {f : Machine → Machine} (h : ∀ s counts, f (s.withCounts counts) = (f s).withCounts counts) :
    Blind (modify f) := fun s counts => Prod.ext rfl (h s counts)

/-- A look at the machine is blind if nothing behind it depends on the counts. -/
theorem look {f : Machine → Update β} (hsame : ∀ s counts, f (s.withCounts counts) = f s) (hf : ∀ s, Blind (f s)) :
    Blind (get >>= f) := by
  intro s counts
  rw [Update.run_look, Update.run_look, hsame, hf]

/-- A loop of blind programs is blind. -/
theorem forIn {l : List α} {f : α → PUnit → Update (ForInStep PUnit)} (hf : ∀ a u, Blind (f a u)) :
    Blind (forIn l PUnit.unit f) := by
  induction l with
  | nil => exact pure _
  | cons a rest ih =>
    rw [List.forIn_cons]
    refine (hf a _).bind fun step => ?_
    cases step with
    | done u => exact pure u
    | yield u => exact ih

/-- The counts stay as they are. -/
theorem counts {p : Update α} (hp : Blind p) (s : Machine) : (p s).2.handleCounts = s.handleCounts := by
  have h : p s = ((p s).1, (p s).2.withCounts s.handleCounts) := hp s s.handleCounts
  exact congrArg (fun x => x.2.handleCounts) h

end Blind

/-! ### One record -/

/-- Counts do not stand in processes. -/
theorem setProcess_blind (id : RecordId) (p : Process) : Blind (setProcess id p) := .modify fun _ _ => rfl

/-- Counts do not stand in threads. -/
theorem setThread_blind (id : RecordId) (t : Thread) : Blind (setThread id t) := .modify fun _ _ => rfl

/-- Counts do not stand in kernels. -/
theorem setKernel_blind (id : RecordId) (k : Kernel) : Blind (setKernel id k) := .modify fun _ _ => rfl

/-- Counts do not stand in events. -/
theorem setEvent_blind (id : RecordId) (e : Event) : Blind (setEvent id e) := .modify fun _ _ => rfl

/-- Counts do not stand in ports. -/
theorem setPort_blind (id : RecordId) (p : Port) : Blind (setPort id p) := .modify fun _ _ => rfl

/-- Counts do not stand in sessions. -/
theorem setSession_blind (id : RecordId) (x : Session) : Blind (setSession id x) := .modify fun _ _ => rfl

/-- Counts do not stand in requests. -/
theorem setRequest_blind (id : RecordId) (r : SessionRequest) : Blind (setRequest id r) := .modify fun _ _ => rfl

/-- Counts do not stand in servers. -/
theorem setServer_blind (id : RecordId) (x : Server) : Blind (setServer id x) := .modify fun _ _ => rfl

/-- Counts do not stand in the journal. -/
theorem log_blind (level : Level) (text : String) : Blind (log level text) := .modify fun _ _ => rfl

/-- Wakers do not look at counts. -/
theorem wake_blind (l : WaitList) : Blind (wake l) := .modify fun _ _ => rfl

theorem wakeOne_blind (parker : ParkerId) : Blind (wakeOne parker) := .modify fun _ _ => rfl

/-- An audit does not look at counts. -/
theorem audit_blind (kernel : RecordId) (event : KernelEvent) : Blind (audit kernel event) :=
  .look (fun _ _ => rfl) fun _ => (setKernel_blind _ _).bind fun _ => .pure _

/-! ### Sessions and ports -/

/-- Whoever completes a request does not look at counts. -/
theorem completeRequest_blind (id : RecordId) (result : Except KernelError Unit) : Blind (completeRequest id result) := by
  refine .look (fun _ _ => rfl) fun s => ?_
  dsimp only
  split
  · exact (setRequest_blind _ _).bind fun _ => wake_blind _
  · exact .pure _

/-- The end of a client side does not look at counts; its handle was counted before. -/
theorem closeClientSession_blind (client : RecordId) : Blind (closeClientSession client) := by
  refine .look (fun _ _ => rfl) fun s => .look (fun _ _ => rfl) fun s' => ?_
  split
  · exact (setSession_blind _ _).bind fun _ => wake_blind _
  · exact .pure _

/-- The end of a server side, and of the requests that fail with it, does not look at counts. -/
theorem closeServerSession_blind (server : RecordId) : Blind (closeServerSession server) := by
  refine .look (fun _ _ => rfl) fun s => .look (fun _ _ => rfl) fun s' => ?_
  split
  · refine (setSession_blind _ _).bind fun _ => ?_
    refine Blind.bind (.forIn fun request _ => (completeRequest_blind _ _).bind fun _ => .pure _) fun _ => ?_
    split
    · exact .look (fun _ _ => rfl) fun _ => (setPort_blind _ _).bind fun _ => wake_blind _
    · exact wake_blind _
  · exact .pure _

/-- The end of a port, and of what waits at it, does not look at counts. -/
theorem closePort_blind (serverPort : RecordId) : Blind (closePort serverPort) := by
  refine .look (fun _ _ => rfl) fun s => .look (fun _ _ => rfl) fun s' => ?_
  split
  · refine (setPort_blind _ _).bind fun _ => ?_
    refine Blind.bind (.forIn fun server _ => (closeServerSession_blind _).bind fun _ => .pure _) fun _ => ?_
    exact .look (fun _ _ => rfl) fun _ => wake_blind _
  · exact .pure _

/-- A server that closes its sessions does not look at counts. -/
theorem closeSessions_blind (server : RecordId) : Blind (closeSessions server) :=
  .look (fun _ _ => rfl) fun _ => (setServer_blind _ _).bind fun _ =>
    .forIn fun _ _ => (closeServerSession_blind _).bind fun _ => .pure _

/-- What a last binding takes down with it has no counts of its own. -/
theorem tearDown_blind (object : KernelObject) : Blind (tearDown object) := by
  cases object with
  | clientSession id => exact closeClientSession_blind id
  | serverSession id => exact closeServerSession_blind id
  | serverPort id => exact closePort_blind id
  | _ => exact .pure _

/-! ### Threads and processes -/

/-- How far threads are does not depend on counts. -/
theorem moveThread_blind (id : RecordId) (event : ThreadEvent) : Blind (moveThread id event) := by
  refine .look (fun _ _ => rfl) fun s => ?_
  dsimp only
  split
  · refine (setThread_blind _ _).bind fun _ => ?_
    split
    · exact wake_blind _
    · exact .pure _
  · exact log_blind _ _

/-- How far processes are does not depend on counts. -/
theorem moveProcess_blind (id : RecordId) (event : ProcessEvent) : Blind (moveProcess id event) := by
  refine .look (fun _ _ => rfl) fun s => ?_
  dsimp only
  split
  · exact (setProcess_blind _ _).bind fun _ => .pure _
  · exact .pure _

theorem setActivity_blind (id : RecordId) (activity : Activity) : Blind (setActivity id activity) :=
  .look (fun _ _ => rfl) fun _ => setThread_blind _ _

/-- Answers of calls do not depend on counts. -/
theorem answerCall_blind (id : RecordId) (answer : Except KernelError CallValue) : Blind (answerCall id answer) :=
  .look (fun _ _ => rfl) fun _ => setThread_blind _ _

theorem setPaused_blind (id : RecordId) (paused : Bool) : Blind (setPaused id paused) :=
  .look (fun _ _ => rfl) fun _ => setProcess_blind _ _

theorem requestTermination_blind (id : RecordId) : Blind (requestTermination id) :=
  .look (fun _ _ => rfl) fun _ => (setThread_blind _ _).bind fun _ => wakeOne_blind _

/-- Objects keep their wait lists apart from their counts. -/
theorem setWaiters_blind (object : Waitable) (l : WaitList) : Blind (setWaiters object l) := by
  cases object with
  | process id => exact .look (fun _ _ => rfl) fun _ => setProcess_blind _ _
  | event id => exact .look (fun _ _ => rfl) fun _ => setEvent_blind _ _
  | thread id => exact .look (fun _ _ => rfl) fun _ => setThread_blind _ _
  | serverPort id => exact .look (fun _ _ => rfl) fun _ => setPort_blind _ _
  | serverSession id => exact .look (fun _ _ => rfl) fun _ => setSession_blind _ _
  | request id => exact .look (fun _ _ => rfl) fun _ => setRequest_blind _ _

/-- With other counts the same threads wait for an object. -/
theorem waitersOf_withCounts (s : Machine) (counts : Std.TreeMap RecordId Nat) (object : Waitable) :
    (s.withCounts counts).waitersOf object = s.waitersOf object := by
  cases object <;> rfl

/-- Leaving wait lists is blind. -/
theorem unregisterAll_blind (parker : ParkerId) (objects : List Waitable) : Blind (unregisterAll parker objects) :=
  .forIn fun object _ => .look (fun s counts => by rw [waitersOf_withCounts]) fun _ => (setWaiters_blind _ _).bind fun _ => .pure _

/-- Leaving a wait is blind. -/
theorem leaveWait_blind (id : RecordId) (wait : Wait) : Blind (leaveWait id wait) :=
  Blind.bind (.modify fun _ _ => rfl) fun _ => (unregisterAll_blind _ _).bind fun _ => moveThread_blind _ _

/-! ### Tables -/

/-- A process has the handle table that it had. -/
def SameHandles (_ : RecordId) (p q : Process) : Prop := q.handles = p.handles

instance (id : RecordId) : IsPreorder Process (SameHandles id) where
  refl _ := rfl
  trans _ _ _ h h' := Eq.trans h' h

instance : Mild SameHandles where
  waited _ _ _ := rfl
  paused _ _ _ := rfl
  moved _ _ _ _ _ _ := rfl

/-- What a last binding takes down is in no handle table. -/
theorem tearDown_frame (object : KernelObject) : Keeps (Frame SameHandles) (tearDown object) := by
  cases object with
  | clientSession id => exact closeClientSession_frame id
  | serverSession id => exact closeServerSession_frame id
  | serverPort id => exact closePort_frame id
  | _ => exact .pure _

end Microkernel.Machine
