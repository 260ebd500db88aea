import Microkernel.Proofs.Machine.Starting
import Microkernel.Supervisor.Basic

/-!
# What a supervisor can rely on while processes come and go

Most of what a machine does changes neither the standing of a kernel, its process set, named ports, pause and shutdown, nor a registry,
nor anything of a server but its list of sessions. A relation between machines that allows all of that (`Placid`) is kept by whatever
makes, moves and ends threads and processes.
-/

namespace Microkernel

/-- The kernels differ in nothing but memory, counters and the audit log. -/
structure Kernel.SameStanding (k k' : Kernel) : Prop where
  config : k'.config = k.config
  clock : k'.clock = k.clock
  processes : k'.processes = k.processes
  namedPorts : k'.namedPorts = k.namedPorts
  paused : k'.paused = k.paused
  shuttingDown : k'.shuttingDown = k.shuttingDown

/-- The relation allows whatever leaves kernels, servers and registries alone, and the bookkeeping of kernels. -/
class Placid (R : Machine → Machine → Prop) : Prop extends IsPreorder Machine R where
  aside : ∀ s t, s.nextId ≤ t.nextId → t.kernels = s.kernels → t.servers = s.servers → t.registries = s.registries → R s t
  kernel : ∀ (s : Machine) id k, (s.kernel id).SameStanding k → R s (Machine.setKernel id k s).2

/-- The relation allows other sessions for a server as well. -/
class Serving (R : Machine → Machine → Prop) : Prop extends Placid R where
  sessions : ∀ (s : Machine) id sessions, R s (Machine.setServer id { s.server id with sessions } s).2

variable {α β : Type} {R : Machine → Machine → Prop} [Placid R]

namespace Keeps

/-- What leaves all owners alone and gives no number back is kept. -/
theorem of_owners {p : Update α} (howners : Keeps SameOwners p) (hframe : Keeps (Frame Unchanged) p) : Keeps R p := fun s =>
  Placid.aside _ _ (hframe s).nextId (howners s).kernels (howners s).servers (howners s).registries

end Keeps

namespace Machine

/-! ## One record -/

theorem freshId_placid : Keeps R freshId := fun _ => Placid.aside _ _ (Nat.le_succ _) rfl rfl rfl

theorem log_placid (level : Level) (text : String) : Keeps R (log level text) :=
  fun _ => Placid.aside _ _ (Nat.le_refl _) rfl rfl rfl

theorem wake_placid (l : WaitList) : Keeps R (wake l) :=
  fun _ => Placid.aside _ _ (Nat.le_refl _) rfl rfl rfl

theorem setThread_placid (id : RecordId) (t : Thread) : Keeps R (setThread id t) :=
  fun _ => Placid.aside _ _ (Nat.le_refl _) rfl rfl rfl

theorem setProcess_placid (id : RecordId) (p : Process) : Keeps R (setProcess id p) :=
  fun _ => Placid.aside _ _ (Nat.le_refl _) rfl rfl rfl

theorem setEvent_placid (id : RecordId) (e : Event) : Keeps R (setEvent id e) :=
  fun _ => Placid.aside _ _ (Nat.le_refl _) rfl rfl rfl

theorem setPort_placid (id : RecordId) (p : Port) : Keeps R (setPort id p) :=
  fun _ => Placid.aside _ _ (Nat.le_refl _) rfl rfl rfl

theorem setSession_placid (id : RecordId) (x : Session) : Keeps R (setSession id x) :=
  fun _ => Placid.aside _ _ (Nat.le_refl _) rfl rfl rfl

theorem setRequest_placid (id : RecordId) (r : SessionRequest) : Keeps R (setRequest id r) :=
  fun _ => Placid.aside _ _ (Nat.le_refl _) rfl rfl rfl

theorem audit_placid (kernel : RecordId) (event : KernelEvent) : Keeps R (audit kernel event) :=
  fun s => Placid.kernel s kernel ((s.kernel kernel).record event).2 (by constructor <;> rfl)

theorem takeThreadId_placid (kernel : RecordId) : Keeps R (takeThreadId kernel) :=
  fun s => Placid.kernel s kernel { s.kernel kernel with nextThreadId := (s.kernel kernel).nextThreadId + 1 } (by constructor <;> rfl)

/-! ## Sessions and waits -/

theorem completeRequest_placid (id : RecordId) (result : Except KernelError Unit) : Keeps R (completeRequest id result) :=
  .of_owners (completeRequest_keeps id result) (completeRequest_frame id result)

theorem closePort_placid (port : RecordId) : Keeps R (closePort port) := .of_owners (closePort_keeps port) (closePort_frame port)

theorem newPort_placid (name : String) (maxSessions : Nat) : Keeps R (newPort name maxSessions) :=
  fun s => Placid.aside _ _ (Nat.le_add_right s.nextId 3) rfl rfl rfl

/-- A closed handle is placid, whatever it named. -/
theorem handleClosed_placid (object : KernelObject) : Keeps R (handleClosed object) :=
  .of_owners (handleClosed_keeps object) (handleClosed_frame object)

theorem setWaiters_placid (object : Waitable) (l : WaitList) : Keeps R (setWaiters object l) := by
  refine Keeps.get.bind fun s => ?_
  cases object with
  | process id => exact setProcess_placid _ _
  | event id => exact setEvent_placid _ _
  | thread id => exact setThread_placid _ _
  | serverPort id => exact setPort_placid _ _
  | serverSession id => exact setSession_placid _ _
  | request id => exact setRequest_placid _ _

theorem registerAll_placid (parker : ParkerId) (objects : List Waitable) : Keeps R (registerAll parker objects) :=
  .forIn fun _ _ => Keeps.get.bind fun _ => (setWaiters_placid _ _).bind fun _ => .pure _

theorem unregisterAll_placid (parker : ParkerId) (objects : List Waitable) : Keeps R (unregisterAll parker objects) :=
  .forIn fun _ _ => Keeps.get.bind fun _ => (setWaiters_placid _ _).bind fun _ => .pure _

theorem tryAcquire_placid (object : Waitable) : Keeps R (tryAcquire object) := by
  cases object with
  | event id => exact Keeps.get.bind fun _ => (setEvent_placid _ _).bind fun _ => .pure _
  | _ => exact Keeps.get.bind fun _ => .pure _

theorem pollFrom_placid (objects : List Waitable) (index : Nat) : Keeps R (pollFrom index objects) := by
  induction objects generalizing index with
  | nil => exact .pure _
  | cons object rest ih =>
    refine (tryAcquire_placid object).bind fun acquired => ?_
    split
    · exact .pure _
    · exact ih _

/-- The second look at the objects, from their wait lists. -/
theorem lookAgain_placid (parker : ParkerId) (objects : List Waitable) : Keeps R (do
    registerAll parker objects
    match ← poll objects with
    | some index =>
      unregisterAll parker objects
      return some index
    | none => return none : Action (Option Nat)).run := by
  refine .run_bind (.run_lift (registerAll_placid _ _)) fun _ => .run_bind (.run_lift (pollFrom_placid _ _)) fun found => ?_
  split
  · exact .run_bind (.run_lift (unregisterAll_placid _ _)) fun _ => .run_pure _
  · exact .run_pure _

/-- The first look, and the second one if there is time for it. -/
theorem look_placid (parker : ParkerId) (objects : List Waitable) (timeout : Timeout) : Keeps R (do
    match ← poll objects with
    | some index => return some index
    | none =>
      if timeout = .immediate then throw .timedOut
      registerAll parker objects
      match ← poll objects with
      | some index =>
        unregisterAll parker objects
        return some index
      | none => return none : Action (Option Nat)).run := by
  refine .run_bind (.run_lift (pollFrom_placid _ _)) fun found => ?_
  split
  · exact .run_pure _
  · split
    · exact .run_throw_bind _ _
    · exact lookAgain_placid parker objects

/-- A wait that begins is placid. -/
theorem beginWait_placid (parker : ParkerId) (cancelled : Bool) (objects : List Waitable) (timeout : Timeout) :
    Keeps R (beginWait parker cancelled objects timeout).run := by
  unfold beginWait
  dsimp only
  split
  · exact .run_throw_bind _ _
  · split
    · exact .run_throw_bind _ _
    · exact look_placid parker objects timeout

/-- A whole wait of one caller is placid. -/
theorem waitAlone_placid (parker : ParkerId) (cancelled : Bool) (objects : List Waitable) (timeout : Timeout) :
    Keeps R (waitAlone parker cancelled objects timeout).run := by
  refine .run_bind (beginWait_placid _ _ _ _) fun found => ?_
  split
  · exact .run_pure _
  · refine .run_bind (.run_lift (pollFrom_placid _ _)) fun found => .run_bind (.run_lift (unregisterAll_placid _ _)) fun _ => ?_
    split
    · exact .run_pure _
    · exact .run_throw _

/-! ## Memory -/

theorem withRegion_placid (s : Machine) (kernel : RecordId) (region : Region) (host : Host) : R s (s.withRegion kernel region host) :=
  Placid.kernel s kernel { (s.kernel kernel).setRegion region with host } (by constructor <;> rfl)

/-- Allocating pages is placid. -/
theorem allocatePages_placid (kernel : RecordId) (kind : RegionKind) (pages : Nat) : Keeps R (allocatePages kernel kind pages).run := by
  intro s
  rw [allocatePages_run]
  split
  · exact IsTrans.trans _ _ _ (withRegion_placid s _ _ _) (Placid.aside _ _ (Nat.le_succ _) rfl rfl rfl)
  · exact withRegion_placid s _ _ _

theorem freeAllocation_placid (id : AllocationId) : Keeps R (freeAllocation id) := by
  intro s
  rw [freeAllocation_run]
  split
  · exact IsTrans.trans _ _ _ (withRegion_placid s _ _ _) (Placid.aside _ _ (Nat.le_refl _) rfl rfl rfl)
  · exact refl s

/-- Taking pages for a process is placid. -/
theorem allocateFor_placid (process : RecordId) (pages : Nat) : Keeps R (allocateFor process pages).run :=
  .run_bind (.run_lift .get) fun _ => allocatePages_placid _ _ _

/-- Giving an allocation back on failure is placid, if what might fail is. -/
theorem givingBack_placid {program : Action α} (allocation : AllocationId) (h : Keeps R program.run) :
    Keeps R (givingBack allocation program).run :=
  .run_tryCatch h fun e => .run_bind (.run_lift (freeAllocation_placid _)) fun _ => .run_throw e

/-- Mapping an allocation is placid. -/
theorem mapOwned_placid (process : RecordId) (address : Nat) (allocation : AllocationId) (pages : PageList) (permission : Permission)
    (state : MemoryState) : Keeps R (mapOwned process address allocation pages permission state).run :=
  .run_bind (.run_lift .get) fun _ => .run_bind (.run_except _) fun _ => .run_lift (Keeps.get.bind fun _ => setProcess_placid _ _)

/-- Mapping code is placid. -/
theorem mapCode_placid (process : RecordId) (address pages : Nat) : Keeps R (mapCode process address pages).run := by
  unfold mapCode
  split
  · exact .run_bind (allocateFor_placid _ _) fun _ => givingBack_placid _ (mapOwned_placid _ _ _ _ _ _)
  · exact .run_pure _

/-- Allocating thread-local memory is placid. -/
theorem allocateThreadLocal_placid (process : RecordId) : Keeps R (allocateThreadLocal process).run := by
  refine .run_bind (allocateFor_placid _ _) fun _ => givingBack_placid _ (.run_bind (.run_lift .get) fun _ => ?_)
  exact .run_bind (.run_except _) fun _ => .run_bind (mapOwned_placid _ _ _ _ _ _) fun _ => .run_pure _

/-- New shared memory is placid. -/
theorem newSharedMemory_placid (kernel : RecordId) (kind : RegionKind) (size : Nat) (owner user : Permission) :
    Keeps R (newSharedMemory kernel kind size owner user).run := by
  have hwhole : Keeps R (wholePages size).run := by
    unfold wholePages
    split
    · exact .run_pure _
    · exact .run_throw _
  refine .run_bind hwhole fun _ => .run_bind (allocatePages_placid _ _ _) fun _ => .run_bind (.run_lift freshId_placid) fun _ => ?_
  exact .run_bind (.run_lift (fun _ => Placid.aside _ _ (Nat.le_refl _) rfl rfl rfl)) fun _ => .run_pure _

/-- New transfer memory is placid. -/
theorem newTransferMemory_placid (kernel : RecordId) (pages : PageList) (backing : List AllocationId) (permission : Permission) :
    Keeps R (newTransferMemory kernel pages backing permission) :=
  freshId_placid.bind fun _ => Keeps.bind (fun _ => Placid.aside _ _ (Nat.le_refl _) rfl rfl rfl) fun _ => .pure _

/-- Allocating the shared layout is placid. -/
theorem allocateLayout_placid (kernel : RecordId) (sizes : SharedLayout.Sizes) :
    Keeps R (SharedLayout.allocate kernel sizes).run := by
  refine .run_bind (.run_mapM fun _ => .run_bind (newSharedMemory_placid _ _ _ _ _) fun _ => .run_pure _) fun _ => ?_
  refine .run_bind (allocatePages_placid _ _ _) fun _ => .run_bind (.run_lift (newTransferMemory_placid _ _ _ _)) fun _ => ?_
  exact .run_pure _

/-! ## Threads -/

theorem moveThread_placid (id : RecordId) (event : ThreadEvent) : Keeps R (moveThread id event) := by
  refine Keeps.get.bind fun s => ?_
  dsimp only
  split
  · refine (setThread_placid _ _).bind fun _ => ?_
    split
    · exact wake_placid _
    · exact .pure _
  · exact log_placid _ _

theorem setActivity_placid (id : RecordId) (activity : Activity) : Keeps R (setActivity id activity) :=
  Keeps.get.bind fun _ => setThread_placid _ _

theorem startThread_placid (id : RecordId) : Keeps R (startThread id) :=
  (moveThread_placid _ _).bind fun _ => setActivity_placid _ _

theorem answerCall_placid (id : RecordId) (answer : Except KernelError CallValue) : Keeps R (answerCall id answer) :=
  Keeps.get.bind fun _ => setThread_placid _ _

/-- Asking a thread to exit is placid. -/
theorem requestTermination_placid (id : RecordId) : Keeps R (requestTermination id) :=
  Keeps.get.bind fun _ => (setThread_placid _ _).bind fun _ _ => Placid.aside _ _ (Nat.le_refl _) rfl rfl rfl

/-- Leaving a wait is placid. -/
theorem leaveWait_placid (id : RecordId) (wait : Wait) : Keeps R (leaveWait id wait) :=
  Keeps.bind (fun _ => Placid.aside _ _ (Nat.le_refl _) rfl rfl rfl) fun _ =>
    (unregisterAll_placid _ _).bind fun _ => moveThread_placid _ _

/-- Creating a thread is placid. -/
theorem createThread_placid (process : RecordId) (threadId priority : Nat) (type : ThreadType) (body : ThreadBody) :
    Keeps R (createThread process threadId priority type body).run := by
  refine .run_bind (.run_lift .get) fun s => ?_
  dsimp only
  split
  · exact .run_throw_bind _ _
  · split
    · exact .run_throw_bind _ _
    · refine .run_bind (allocateThreadLocal_placid _) fun _ => .run_bind (.run_lift freshId_placid) fun id => ?_
      refine .run_bind (.run_lift (setThread_placid _ _)) fun _ => .run_bind (.run_lift .get) fun _ => ?_
      exact .run_bind (.run_lift (setProcess_placid _ _)) fun _ => .run_pure _

/-! ## Processes -/

theorem moveProcess_placid (id : RecordId) (event : ProcessEvent) : Keeps R (moveProcess id event) := by
  refine Keeps.get.bind fun s => ?_
  dsimp only
  split
  · exact (setProcess_placid _ _).bind fun _ => .pure _
  · exact .pure _

theorem setPaused_placid (id : RecordId) (paused : Bool) : Keeps R (setPaused id paused) :=
  Keeps.get.bind fun _ => setProcess_placid _ _

/-- A kernel that gives out a pid and a creation order keeps its standing. -/
theorem sameStanding_takePid (k : Kernel) (isApplication : Bool) (n : Nat) :
    k.SameStanding { (k.takePid isApplication).2 with nextCreationOrder := n } := by
  unfold Kernel.takePid
  split <;> (constructor <;> rfl)

/-- Creating a process is placid: it joins the set later. -/
theorem createProcess_placid (kernel : RecordId) (name : String) (programId : Nat) (flags : ProcessFlags)
    (capabilities : Capabilities) : Keeps R (createProcess kernel name programId flags capabilities) := by
  intro s
  rw [createProcess, Update.run_look]
  dsimp only
  rw [Update.run_bind]
  have hrest (p : RecordId → Process) : Keeps R (do
      let id ← freshId
      setProcess id (p id)
      return id) := freshId_placid.bind fun _ => (setProcess_placid _ _).bind fun _ => .pure _
  exact IsTrans.trans _ _ _ (Placid.kernel s kernel _ (sameStanding_takePid _ _ _)) (hrest _ _)

/-- Dropping a process is placid. -/
theorem discardProcess_placid (id : RecordId) : Keeps R (discardProcess id) := by
  refine Keeps.get.bind fun s => .bind (.forIn fun mapping _ => ?_) fun _ _ => Placid.aside _ _ (Nat.le_refl _) rfl rfl rfl
  exact .bind (.forIn fun _ _ => (freeAllocation_placid _).bind fun _ => .pure _) fun _ => .pure _

/-- Making the first thread of a process is placid. -/
theorem StartCall.makeThread_placid (x : StartCall) (kernel id : RecordId) : Keeps R (x.makeThread kernel id).run := by
  refine .run_tryCatch (.run_bind (mapCode_placid _ _ _) fun _ => ?_) fun e => ?_
  · exact .run_bind (.run_lift (takeThreadId_placid _)) fun _ => createThread_placid _ _ _ _ _
  · exact .run_bind (.run_lift (discardProcess_placid _)) fun _ => .run_throw e

/-! ## Ends -/

/-- Finishing a termination is placid. -/
theorem finishTermination_placid (id : RecordId) : Keeps R (finishTermination id) := by
  refine Keeps.get.bind fun s => ?_
  dsimp only
  split
  · refine (setProcess_placid _ _).bind fun _ => .bind (.forIn fun _ _ => (handleClosed_placid _).bind fun _ => .pure _) fun _ => ?_
    refine Keeps.get.bind fun _ => (setProcess_placid _ _).bind fun _ => Keeps.get.bind fun _ => (wake_placid _).bind fun _ => ?_
    exact (log_placid _ _).bind fun _ => (audit_placid _ _).bind fun _ => .pure _
  · exact .pure _

/-- What a process does when one of its threads has exited is placid. -/
theorem threadExited_placid (process : RecordId) : Keeps R (threadExited process) := by
  refine Keeps.get.bind fun _ => ?_
  split
  · split
    · exact (moveProcess_placid _ _).bind fun _ => finishTermination_placid _
    · exact finishTermination_placid _
  · exact .pure _

/-- A thread that exits is placid. -/
theorem exitThread_placid (id : RecordId) (ending : ThreadEnd) : Keeps R (exitThread id ending) := by
  have hexit (process : RecordId) : Keeps R (do
      setActivity id .none
      moveThread id .exit
      moveThread id .finish
      threadExited process) :=
    (setActivity_placid _ _).bind fun _ => (moveThread_placid _ _).bind fun _ => (moveThread_placid _ _).bind fun _ =>
      threadExited_placid _
  refine Keeps.get.bind fun s => Keeps.get.bind fun s' => ?_
  split
  · exact hexit _
  · exact hexit _
  · exact (log_placid _ _).bind fun _ => hexit _
  · exact (log_placid _ _).bind fun _ => hexit _

section Serving

variable {R : Machine → Machine → Prop} [Serving R]

/-- Closing the sessions of a server changes no more of servers than their sessions. -/
theorem closeSessions_serving (server : RecordId) : Keeps R (closeSessions server) := by
  intro s
  rw [closeSessions, Update.run_look, Update.run_bind]
  have hclose : Keeps R (do for entry in (s.server server).sessions do closeServerSession entry.session) :=
    .forIn fun entry _ => (Keeps.of_owners (closeServerSession_keeps _) (closeServerSession_frame _)).bind fun _ => .pure _
  exact IsTrans.trans _ _ _ (Serving.sessions s server []) (hclose _)

/-- Stopping a thread changes no more of servers than their sessions. -/
theorem stopThread_serving (id : RecordId) : Keeps R (stopThread id) := by
  have hclose (t : Thread) := keeps_closeAndExit (closeSessions_serving (R := R)) (exitThread_placid id .returned) t
  refine Keeps.get.bind fun s => ?_
  dsimp only
  split
  · exact .pure _
  · exact (moveThread_placid _ _).bind fun _ => hclose _
  · exact hclose _
  · exact (answerCall_placid _ _).bind fun _ => hclose _
  · exact hclose _
  · refine (leaveWait_placid _ _).bind fun _ => ?_
    split
    · exact hclose _
    · exact (completeRequest_placid _ _).bind fun _ => (answerCall_placid _ _).bind fun _ => hclose _
    · exact (answerCall_placid _ _).bind fun _ => hclose _

/-- Terminating a process changes no more of servers than their sessions. -/
theorem terminateProcess_serving (id : RecordId) (caller : Option RecordId) : Keeps R (terminateProcess id caller) := by
  refine (moveProcess_placid id _).bind fun moved => ?_
  split
  · refine Keeps.get.bind fun _ => (log_placid _ _).bind fun _ => ?_
    refine Keeps.bind (.forIn fun _ _ => (requestTermination_placid _).bind fun _ => .pure _) fun _ => ?_
    refine (setPaused_placid _ _).bind fun _ => Keeps.bind (.forIn fun _ _ => ?_) fun _ => Keeps.get.bind fun _ => ?_
    · split
      · exact (stopThread_serving _).bind fun _ => .pure _
      · exact .pure _
    · dsimp only
      split
      · exact finishTermination_placid _
      · exact .pure _
  · exact .pure _

end Serving

end Machine

/-! ## Shutting down -/

/-- The relation allows what a shutdown does: a kernel takes no more processes and loses those that it has, servers are stopped, and
names are forgotten. -/
class Winding (R : Machine → Machine → Prop) : Prop extends Serving R where
  closing : ∀ (s : Machine) id, R s (Machine.setKernel id { s.kernel id with shuttingDown := true } s).2
  emptied : ∀ (s : Machine) id, R s (Machine.setKernel id { s.kernel id with processes := {} } s).2
  freed : ∀ (s : Machine) id name, R s (Machine.setKernel id { s.kernel id with namedPorts := (s.kernel id).namedPorts.erase name } s).2
  stopped : ∀ (s : Machine) id, R s (Machine.setServer id { s.server id with stopped := true } s).2
  cleared : ∀ (s : Machine) id, R s (Machine.setRegistry id { s.registry id with services := {} } s).2

section Winding

variable {R : Machine → Machine → Prop} [Winding R]

namespace Machine

/-- Stopping a server is part of a shutdown. -/
theorem stopServer_winding (id : RecordId) : Keeps R (stopServer id) := by
  intro s
  rw [stopServer, Update.run_look]
  split
  · rw [Update.run_bind]
    have hrest : Keeps R (do
        closePort (s.server id).port
        closeSessions id
        terminateProcess (s.server id).process none
        log .info s!"{(s.server id).name} successfully stopped.") :=
      (closePort_placid _).bind fun _ => (closeSessions_serving _).bind fun _ => (terminateProcess_serving _ _).bind fun _ =>
        log_placid _ _
    exact IsTrans.trans _ _ _ (Winding.stopped s id) (hrest _)
  · exact refl s

/-- A port that loses its name is part of a shutdown. -/
theorem unregisterNamedPort_winding (kernel : RecordId) (name : String) : Keeps R (unregisterNamedPort kernel name).run := by
  intro s
  rw [unregisterNamedPort, Action.run_look]
  dsimp only
  split
  · exact refl s
  · exact Winding.freed s kernel name

/-- Terminating all processes is part of a shutdown, if the hook is. -/
theorem terminateProcesses_winding (kernel : RecordId) {hook : Update α} (hhook : Keeps R hook) :
    Keeps R (terminateProcesses kernel hook) := by
  have hall (ids : List RecordId) : Keeps R (do for id in ids do terminateProcess id none) :=
    .forIn fun _ _ => (terminateProcess_serving _ _).bind fun _ => .pure _
  refine Keeps.get.bind fun s => (hall _).bind fun _ => hhook.bind fun _ => (hall _).bind fun _ => ?_
  exact Keeps.look fun t => Winding.emptied t kernel

/-- Whether or not the shutdown of a kernel is carried out, it keeps the relation once the kernel is resumed. -/
theorem terminateAll_winding (kernel : RecordId) {hook : Update α} (hhook : Keeps R hook) (s : Machine) :
    R (resume kernel s).2 ((terminateAll kernel hook).run s).2 := by
  have hwork (host : RecordId) : Keeps R (do
      let _ ← moveProcess host .start
      let thread ← createThread host (← takeThreadId kernel) 0 .kernel .guest
      startThread thread
      moveThread thread .run
      let seen ← (terminateProcesses kernel hook : Update α)
      exitThread thread .returned
      terminateProcess host none
      log .info "All processes terminated"
      return seen : Action α).run := by
    refine .run_bind (.run_lift (moveProcess_placid _ _)) fun _ => .run_bind (.run_lift (takeThreadId_placid _)) fun _ => ?_
    refine .run_bind (createThread_placid _ _ _ _ _) fun _ => .run_bind (.run_lift (startThread_placid _)) fun _ => ?_
    refine .run_bind (.run_lift (moveThread_placid _ _)) fun _ =>
      .run_bind (.run_lift (terminateProcesses_winding kernel hhook)) fun _ => ?_
    refine .run_bind (.run_lift (exitThread_placid _ _)) fun _ => .run_bind (.run_lift (terminateProcess_serving _ _)) fun _ => ?_
    exact .run_bind (.run_lift (log_placid _ _)) fun _ => .run_pure _
  unfold terminateAll
  rw [Action.run_lift_bind, Action.run_look, Action.run_lift_bind, Action.run_lift_bind]
  exact IsTrans.trans _ _ _ (Winding.closing (resume kernel s).2 kernel)
    (IsTrans.trans _ _ _ (createProcess_placid kernel "KernelTermination" 0 .service {} _) (hwork _ _))

end Machine

open Machine

/-- Stopping servers one after the other is part of a shutdown. -/
theorem Machine.stopServers_winding (servers : List RecordId) : Keeps R (do for server in servers do stopServer server) :=
  .forIn fun _ _ => (stopServer_winding _).bind fun _ => .pure _

/-- Stopping a set is part of a shutdown. -/
theorem ServerSet.stop_winding (set : ServerSet) : Keeps R set.stop := by
  have hrest : Keeps R (do
      clearRegistry set.registry
      return { set with table := {}, manager := none, servers := [] }) :=
    Keeps.bind (Keeps.look fun s => Winding.cleared s set.registry) fun _ => .pure _
  refine (stopServers_winding _).bind fun _ => ?_
  split
  · refine (unregisterNamedPort_winding _ _).bind fun outcome => ?_
    split
    · exact (log_placid _ _).bind fun _ => hrest
    · exact hrest
  · exact hrest

/-- What is called while a kernel is shut down. -/
theorem Supervisor.stopping_winding (set : ServerSet) {hook : Update α} (hhook : Keeps R hook) : Keeps R (do
    let seen ← hook
    for server in set.stopOrder do stopServer server
    return seen) :=
  hhook.bind fun _ => (stopServers_winding set.stopOrder).bind fun _ => .pure _

/-- Shutting a set down is part of a shutdown once its kernel was resumed. -/
theorem Supervisor.shutDownSet_winding (set : ServerSet) {hook : Update α} (hhook : Keeps R hook) (s : Machine) :
    R (resume set.kernel s).2 (Supervisor.shutDownSet set hook s).2 := by
  have hterminate := terminateAll_winding (R := R) set.kernel (stopping_winding set hhook) s
  rw [shutDownSet, Update.run_bind]
  refine IsTrans.trans _ _ _ hterminate ?_
  rcases (terminateAll set.kernel _).run s with ⟨e | seen, t⟩
  · exact (log_placid (R := R) _ _).bind (fun _ => .pure _) t
  · exact (set.stop_winding (R := R)).bind (fun _ => .pure _) t

end Winding

/-! ## Starting services -/

/-- The kernels differ in nothing but process set, named ports, memory, counters and the audit log. -/
structure Kernel.SameBearing (k k' : Kernel) : Prop where
  config : k'.config = k.config
  clock : k'.clock = k.clock
  paused : k'.paused = k.paused
  shuttingDown : k'.shuttingDown = k.shuttingDown

/-- The relation allows other processes and named ports for a kernel. -/
class Peopled (R : Machine → Machine → Prop) : Prop extends Placid R where
  standing : ∀ (s : Machine) id k, (s.kernel id).SameBearing k → R s (Machine.setKernel id k s).2

/-- The relation allows what starting services does: processes, ports and names are added, and there are new servers. -/
class Busy (R : Machine → Machine → Prop) : Prop extends Peopled R where
  registries : ∀ (s : Machine) id r, R s (Machine.setRegistry id r s).2
  server : ∀ (s t : Machine) id x, R s t → s.nextId ≤ id → R s (Machine.setServer id x t).2

section Peopled

variable {R : Machine → Machine → Prop} [Peopled R]

namespace Machine

/-- A thread that enters its process adds no more than a member of the process set. -/
theorem StartCall.enter_peopled (x : StartCall) (kernel id thread : RecordId) : Keeps R (x.enter kernel id thread) := by
  have htell (text : String) (event : KernelEvent) : Keeps R (do
      log .info text
      let _ ← audit kernel event
      startThread thread) :=
    (log_placid _ _).bind fun _ => (audit_placid _ _).bind fun _ => startThread_placid _
  have hjoin (s t : Machine) (h : (t.kernel kernel).SameBearing (s.kernel kernel)) (processes : Std.TreeMap Nat RecordId)
      (text : String) (event : KernelEvent) : R t ((do
        setKernel kernel { s.kernel kernel with processes }
        log .info text
        let _ ← audit kernel event
        startThread thread : Update Unit) t).2 := by
    rw [Update.run_bind]
    exact IsTrans.trans _ _ _ (Peopled.standing t kernel { s.kernel kernel with processes } ⟨h.1, h.2, h.3, h.4⟩) (htell text event _)
  refine (moveProcess_placid _ _).bind fun _ => Keeps.bind ?_ fun _ => ?_
  · exact fun s =>
      Peopled.standing s kernel { s.kernel kernel with processes := s.live (s.kernel kernel).processes } (by constructor <;> rfl)
  · intro s
    rw [join, Update.run_look, Update.run_look]
    dsimp only
    split
    · exact IsTrans.trans _ _ _ (setPaused_placid id true s) (hjoin s (setPaused id true s).2 (by constructor <;> rfl) _ _ _)
    · exact hjoin s s (by constructor <;> rfl) _ _ _

/-- Starting a process adds no more than a member of the process set. -/
theorem StartCall.start_peopled (x : StartCall) (kernel : RecordId) : Keeps R (x.start kernel).run := by
  intro s
  cases hadmitted : x.admitted? (s.kernel kernel) with
  | none =>
    obtain ⟨e, journal, hrun⟩ := start_of_refused hadmitted
    rw [hrun]
    exact Placid.aside _ _ (Nat.le_refl _) rfl rfl rfl
  | some capabilities =>
    have hcreate : R s (x.create kernel capabilities s).2 := createProcess_placid _ _ _ _ _ s
    have hmake := x.makeThread_placid (R := R) kernel (x.create kernel capabilities s).1 (x.create kernel capabilities s).2
    rw [start_of_admitted hadmitted]
    rcases hrun : (x.makeThread kernel (x.create kernel capabilities s).1).run (x.create kernel capabilities s).2 with
      ⟨e | thread, t⟩ <;> rw [hrun] at hmake
    · exact IsTrans.trans _ _ _ hcreate hmake
    · exact IsTrans.trans _ _ _ (IsTrans.trans _ _ _ hcreate hmake) (x.enter_peopled kernel _ thread t)

end Machine

end Peopled

section Busy

variable {R : Machine → Machine → Prop} [Busy R]

namespace Machine

/-- Starting a server is part of starting services. -/
theorem startServer_busy (kernel : RecordId) (name : String) (port : RecordId) (blueprint : Blueprint) (options : ServerOptions) :
    Keeps R (startServer kernel name port blueprint options).run := by
  intro s
  have hid : R s (freshId s).2 := freshId_placid s
  unfold startServer
  rw [Action.run_lift_bind, Action.run_look]
  dsimp only
  split
  · next words _ =>
    have hstart : R (freshId s).2
        ((startProcess kernel serviceHost words options.priority.toNat (.server (freshId s).1)).run (freshId s).2).2 :=
      StartCall.start_peopled ⟨serviceHost, words, options.priority.toNat, .server s.nextId⟩ kernel (freshId s).2
    rw [pure_bind, Action.run_bind]
    rcases hrun : (startProcess kernel serviceHost words options.priority.toNat (.server (freshId s).1)).run (freshId s).2 with
      ⟨e | process, t⟩ <;> rw [hrun] at hstart
    · exact IsTrans.trans _ _ _ hid hstart
    · dsimp only
      rw [Action.run_lift_bind]
      refine IsTrans.trans _ _ _ (Busy.server s t s.nextId { kernel, name, port, process, blueprint, options }
        (IsTrans.trans _ _ _ hid hstart) (Nat.le_refl _)) ?_
      exact Keeps.run_bind (.run_lift .get) (fun _ => .run_bind (.run_lift (log_placid _ _)) fun _ => .run_pure _) _
  · exact hid

/-- Naming a port is part of starting services. -/
theorem registerNamedPort_busy (kernel : RecordId) (name : String) (maxSessions : Nat) :
    Keeps R (registerNamedPort kernel name maxSessions).run := by
  refine .run_bind (.run_lift .get) fun s => ?_
  split
  · exact .run_throw_bind _ _
  · refine .run_bind (.run_lift (newPort_placid _ _)) fun ends t => ?_
    rw [Action.run_look, Action.run_lift_bind]
    have htell : Keeps R (do
        let _ ← audit kernel (.namedPortRegistered name)
        return ends.1 : Action RecordId).run := .run_bind (.run_lift (audit_placid _ _)) fun _ => .run_pure _
    let k := { t.kernel kernel with namedPorts := (t.kernel kernel).namedPorts.insert name ends.2 }
    exact IsTrans.trans _ _ _ (Peopled.standing t kernel k (by constructor <;> rfl)) (htell _)

/-- A port that loses its name again is part of starting services. -/
theorem unregisterNamedPort_busy (kernel : RecordId) (name : String) : Keeps R (unregisterNamedPort kernel name).run := by
  intro s
  rw [unregisterNamedPort, Action.run_look]
  dsimp only
  split
  · exact refl s
  · exact Peopled.standing s kernel
      { s.kernel kernel with namedPorts := (s.kernel kernel).namedPorts.erase name } (by constructor <;> rfl)

/-- Starting the manager is part of starting services. -/
theorem startManager_busy (kernel registry : RecordId) (ignoreMissing : Bool) :
    Keeps R (startManager kernel registry ignoreMissing).run := by
  refine .run_bind (registerNamedPort_busy _ _ _) fun port => .run_bind (.run_tryCatch (startServer_busy _ _ _ _ _) fun e => ?_)
    fun _ => ?_
  · exact .run_bind (unregisterNamedPort_busy _ _) fun _ => .run_throw e
  · refine .run_bind (.run_lift .get) fun s => .run_bind (.run_lift ?_) fun _ => .run_pure _
    exact .of_owners (signalEvent_keeps _)
      (Keeps.get.bind fun _ => (setEvent_frame _ _).bind fun _ => Keeps.get.bind fun _ => wake_frame _)

/-- A name is bound or freed, and that is told. -/
theorem relist_busy (registry : RecordId) (r : Registry) (text : String) (kernel : RecordId) (event : KernelEvent) (answer : α) :
    Keeps R (do
      setRegistry registry r
      log .info text
      let _ ← audit kernel event
      return answer) :=
  Keeps.bind (fun s => Busy.registries s registry r) fun _ => (log_placid _ _).bind fun _ => (audit_placid _ _).bind fun _ => .pure _

/-- Registering a service is part of starting services. -/
theorem registerService_busy (registry : RecordId) (name : ServiceName) (maxSessions : Nat) :
    Keeps R (registerService registry name maxSessions) := by
  refine (newPort_placid _ _).bind fun ends => Keeps.bind (Keeps.get.bind fun s => ?_) fun _ => .pure _
  split
  · exact relist_busy _ _ _ _ _ _
  · exact .pure _

/-- Freeing a name is part of starting services. -/
theorem unregisterService_busy (registry : RecordId) (name : ServiceName) : Keeps R (unregisterService registry name) := by
  refine Keeps.get.bind fun s => ?_
  split
  · exact relist_busy _ _ _ _ _ _
  · exact .pure _

/-- Starting an entry is part of starting services. -/
theorem startEntry_busy (kernel registry : RecordId) (entry : ServiceEntry) : Keeps R (startEntry kernel registry entry) := by
  refine (registerService_busy _ _ _).bind fun registered => ?_
  split
  · exact .pure _
  · refine (startServer_busy _ _ _ _ _).bind fun started => ?_
    split
    · exact .pure _
    · exact (unregisterService_busy _ _).bind fun _ => .pure _

/-- Waiting until a registry is ready is part of starting services. -/
theorem waitReady_busy (registry : RecordId) (timeout : Timeout) : Keeps R (waitReady registry timeout).run :=
  .run_bind (.run_lift freshId_placid) fun _ => .run_bind (.run_lift .get) fun _ =>
    .run_bind (waitAlone_placid _ _ _ _) fun _ => .run_pure _

end Machine

open Machine

namespace ServerSet

/-- Starting entries is part of starting services. -/
theorem startEntries_busy (set : ServerSet) (entries : List ServiceEntry) : Keeps R (set.startEntries entries) := by
  induction entries generalizing set with
  | nil => exact .pure _
  | cons entry rest ih =>
    refine (startEntry_busy _ _ _).bind fun started => ?_
    split
    · exact ih _
    · exact .pure _

/-- Starting a set is part of starting services. -/
theorem start_busy (set : ServerSet) (ignoreMissing : Bool) : Keeps R (set.start ignoreMissing) := by
  unfold start
  split
  · exact .pure _
  · refine (startManager_busy _ _ _).bind fun started => ?_
    split
    · exact .pure _
    · refine (waitReady_busy _ _).bind fun waited => ?_
      split
      · exact .pure _
      · refine (startEntries_busy _ _).bind fun outcome => ?_
        dsimp only
        split
        · exact (log_placid _ _).bind fun _ => .pure _
        · exact .pure _

end ServerSet

end Busy

end Microkernel
