import Microkernel.Machine.GuestThreads
import Microkernel.Proofs.Machine.Frames

/-!
# Gates

Which supervisor calls a thread may make is decided by its type, its process and what that process was granted: the gate of the
thread. No call that a guest thread makes changes a gate, its own or another, so a mask cannot be widened from inside.
-/

namespace Microkernel

/-- What decides which supervisor calls a thread may make. -/
structure Gate where
  type : ThreadType
  process : RecordId
  capabilities : Capabilities

/-- Whether the gate lets a supervisor call through. -/
def Gate.admits (g : Gate) (id : CallId) : Bool := g.type ≠ .guest || g.capabilities.allowsCall id.number

/-- The gate of a thread. -/
def Machine.gate (s : Machine) (thread : RecordId) : Gate where
  type := (s.thread thread).type
  process := (s.thread thread).process
  capabilities := (s.process (s.thread thread).process).capabilities

/-- Every thread has its type and its process, and every process what it was granted. -/
structure SameGates (s t : Machine) : Prop where
  type : ∀ id, (t.thread id).type = (s.thread id).type
  owner : ∀ id, (t.thread id).process = (s.thread id).process
  capabilities : ∀ id, (t.process id).capabilities = (s.process id).capabilities

instance : IsPreorder Machine SameGates where
  refl _ := by constructor <;> exact fun _ => rfl
  trans _ _ _ h h' := ⟨fun id => (h'.1 id).trans (h.1 id), fun id => (h'.2 id).trans (h.2 id), fun id => (h'.3 id).trans (h.3 id)⟩

namespace SameGates

variable {s t : Machine}

/-- Machines with the same gates have the same gate for each thread. -/
theorem gate (h : SameGates s t) (thread : RecordId) : t.gate thread = s.gate thread := by
  unfold Machine.gate
  rw [h.type, h.owner, h.capabilities]

/-- Gates depend on threads and processes only. -/
theorem of_eq (ht : t.threads = s.threads) (hp : t.processes = s.processes) : SameGates s t where
  type id := by rw [Machine.thread, Machine.thread, ht]
  owner id := by rw [Machine.thread, Machine.thread, ht]
  capabilities id := by rw [Machine.process, Machine.process, hp]

/-- Whoever leaves owners alone leaves gates alone. -/
theorem of_owners (h : SameOwners s t) : SameGates s t := .of_eq h.threads h.processes

/-- A thread that keeps its type and its process keeps its gate. -/
theorem setThread {id : RecordId} {x : Thread} (htype : x.type = (s.thread id).type) (howner : x.process = (s.thread id).process) :
    SameGates s (Machine.setThread id x s).2 := by
  have hthread (other : RecordId) : (Machine.setThread id x s).2.thread other = if other = id then x else s.thread other :=
    Records.getD_insert _ _ _ _ _
  constructor
  · intro other
    rw [hthread]
    split
    · next ho => rw [ho, htype]
    · rfl
  · intro other
    rw [hthread]
    split
    · next ho => rw [ho, howner]
    · rfl
  · exact fun _ => rfl

/-- A process that keeps what it was granted keeps the gates of its threads. -/
theorem setProcess {id : RecordId} {p : Process} (h : p.capabilities = (s.process id).capabilities) :
    SameGates s (Machine.setProcess id p s).2 where
  type _ := rfl
  owner _ := rfl
  capabilities other := by
    change (Machine.process { s with processes := s.processes.insert id p } other).capabilities = _
    rw [Machine.process_insert]
    split
    · next ho => rw [ho, h]
    · rfl

end SameGates

namespace Machine

variable {α : Type}

/-- What keeps everything that owns something keeps every gate. -/
theorem gates_of_owners {p : Update α} (h : Keeps SameOwners p) : Keeps SameGates p := h.mono fun _ _ => .of_owners

/-- A program that changes a process, but not what it was granted, and goes on. -/
theorem after_setProcess {s : Machine} {id : RecordId} {p : Process} {rest : Unit → Update α}
    (h : p.capabilities = (s.process id).capabilities) (hrest : Keeps SameGates (rest ())) :
    SameGates s ((setProcess id p >>= rest) s).2 := IsTrans.trans _ _ _ (SameGates.setProcess h) (hrest _)

/-- A program that can fail and changes a process, but not what it was granted, and goes on. -/
theorem run_after_setProcess {s : Machine} {id : RecordId} {p : Process} {rest : Unit → Action α}
    (h : p.capabilities = (s.process id).capabilities) (hrest : Keeps SameGates (rest ()).run) :
    SameGates s ((setProcess id p >>= rest : Action α).run s).2 := IsTrans.trans _ _ _ (SameGates.setProcess h) (hrest _)

/-- A program that changes a thread, but neither its type nor whose it is, and goes on. -/
theorem after_setThread {s : Machine} {id : RecordId} {t : Thread} {rest : Unit → Update α}
    (htype : t.type = (s.thread id).type) (howner : t.process = (s.thread id).process) (hrest : Keeps SameGates (rest ())) :
    SameGates s ((setThread id t >>= rest) s).2 := IsTrans.trans _ _ _ (SameGates.setThread htype howner) (hrest _)

/-! ## Telling, waking and waiting -/

theorem log_gates (level : Level) (text : String) : Keeps SameGates (log level text) := gates_of_owners (log_keeps _ _)

theorem wake_gates (l : WaitList) : Keeps SameGates (wake l) := gates_of_owners (wake_keeps _)

theorem wakeOne_gates (p : ParkerId) : Keeps SameGates (wakeOne p) := fun _ => .of_eq rfl rfl

/-- Kernels have no part in gates. -/
theorem setKernel_gates (id : RecordId) (k : Kernel) : Keeps SameGates (setKernel id k) := fun _ => .of_eq rfl rfl

theorem audit_gates (kernel : RecordId) (event : KernelEvent) : Keeps SameGates (audit kernel event) :=
  Keeps.get.bind fun _ => (setKernel_gates _ _).bind fun _ => .pure _

/-- Wait lists of threads and processes have no part in gates. -/
theorem setWaiters_gates (object : Waitable) (l : WaitList) : Keeps SameGates (setWaiters object l) := by
  refine Keeps.look fun s => ?_
  cases object with
  | process id => exact .setProcess rfl
  | thread id => exact .setThread rfl rfl
  | event id => exact .of_eq rfl rfl
  | serverPort id => exact .of_eq rfl rfl
  | serverSession id => exact .of_eq rfl rfl
  | request id => exact .of_eq rfl rfl

/-- Registering with objects changes wait lists alone. -/
theorem registerAll_gates (parker : ParkerId) (objects : List Waitable) : Keeps SameGates (registerAll parker objects) :=
  .forIn fun _ _ => Keeps.get.bind fun _ => (setWaiters_gates _ _).bind fun _ => .pure _

/-- Leaving wait lists changes no gate. -/
theorem unregisterAll_gates (parker : ParkerId) (objects : List Waitable) : Keeps SameGates (unregisterAll parker objects) :=
  .forIn fun _ _ => Keeps.get.bind fun _ => (setWaiters_gates _ _).bind fun _ => .pure _

/-- A look at an object may clear an event, and changes no gate. -/
theorem tryAcquire_gates (object : Waitable) : Keeps SameGates (tryAcquire object) := by
  cases object with
  | event id => exact Keeps.get.bind fun _ => (gates_of_owners (setEvent_keeps _ _)).bind fun _ => .pure _
  | _ => exact Keeps.get.bind fun _ => .pure _

/-- Looking at one object after the other changes no gate. -/
theorem pollFrom_gates (objects : List Waitable) (index : Nat) : Keeps SameGates (pollFrom index objects) := by
  induction objects generalizing index with
  | nil => exact .pure _
  | cons object rest ih =>
    refine (tryAcquire_gates _).bind fun acquired => ?_
    split
    · exact .pure _
    · exact ih _

theorem poll_gates (objects : List Waitable) : Keeps SameGates (poll objects) := pollFrom_gates _ _

/-- A wait that begins, or ends at once, changes no gate. -/
theorem beginWait_gates (parker : ParkerId) (cancelled : Bool) (objects : List Waitable) (timeout : Timeout) :
    Keeps SameGates (beginWait parker cancelled objects timeout).run := by
  unfold beginWait
  dsimp only
  split
  · exact .run_throw_bind _ _
  · split
    · exact .run_throw_bind _ _
    · refine .run_bind (.run_lift (poll_gates _)) fun found => ?_
      split
      · exact .run_pure _
      · split
        · exact .run_throw_bind _ _
        · refine .run_bind (.run_lift (registerAll_gates _ _)) fun _ => .run_bind (.run_lift (poll_gates _)) fun found => ?_
          split
          · exact .run_bind (.run_lift (unregisterAll_gates _ _)) fun _ => .run_pure _
          · exact .run_pure _

/-! ## Memory -/

/-- Pages that are taken change no gate. -/
theorem allocatePages_gates (kernel : RecordId) (kind : RegionKind) (pages : Nat) :
    Keeps SameGates (allocatePages kernel kind pages).run := by
  refine .run_bind (.run_lift .get) fun _ => .run_bind (.run_lift (setKernel_gates _ _)) fun _ => .run_bind (.run_except _) fun _ => ?_
  refine .run_bind (.run_lift (gates_of_owners freshId_keeps)) fun _ =>
    .run_bind (.run_lift (.modify fun _ => .of_eq rfl rfl)) fun _ => ?_
  exact .run_pure _

/-- Pages that are freed change no gate. -/
theorem freeAllocation_gates (id : AllocationId) : Keeps SameGates (freeAllocation id) := by
  refine Keeps.get.bind fun _ => ?_
  split
  · exact Keeps.get.bind fun _ => (setKernel_gates _ _).bind fun _ => .modify fun _ => .of_eq rfl rfl
  · exact .pure _

/-- What is mapped into a process has nothing to do with what it may call. -/
theorem setSpace_gates (process : RecordId) (space : AddressSpace) : Keeps SameGates (setSpace process space) :=
  Keeps.look fun _ => .setProcess rfl

theorem wholePages_gates (size : Nat) : Keeps SameGates (wholePages size).run := by
  unfold wholePages
  split
  · exact .run_pure _
  · exact .run_throw _

/-- Owned pages are mapped without a change to a gate. -/
theorem mapOwned_gates (process : RecordId) (address : Nat) (allocation : AllocationId) (pages : PageList) (permission : Permission)
    (state : MemoryState) : Keeps SameGates (mapOwned process address allocation pages permission state).run :=
  .run_bind (.run_lift .get) fun _ => .run_bind (.run_except _) fun _ => .run_lift (setSpace_gates _ _)

/-- A guest that allocates heap memory cannot widen its mask. -/
theorem allocateHeap_gates (process : RecordId) (size : Nat) (permission : Permission) :
    Keeps SameGates (allocateHeap process size permission).run := by
  unfold allocateHeap
  split
  · exact .run_throw_bind _ _
  · refine .run_bind (wholePages_gates _) fun _ => .run_bind (.run_bind (.run_lift .get) fun _ => allocatePages_gates _ _ _) fun _ => ?_
    refine .run_tryCatch (.run_bind (.run_lift .get) fun _ => .run_bind (.run_except _) fun _ => ?_) fun _ => ?_
    · exact .run_bind (mapOwned_gates _ _ _ _ _ _) fun _ => .run_pure _
    · exact .run_bind (.run_lift (freeAllocation_gates _)) fun _ => .run_throw _

/-- Mapping an object changes no gate. -/
theorem mapObject_gates (process : RecordId) (address size : Nat) (mapping : Mapping) :
    Keeps SameGates (mapObject process address size mapping).run := by
  have hlast (address : Nat) (space : AddressSpace) : Keeps SameGates (ExceptT.run (do
      let space ← space.map { mapping with address }
      setSpace process space
      return address : Action Nat)) :=
    .run_bind (.run_except _) fun _ => .run_bind (.run_lift (setSpace_gates _ _)) fun _ => .run_pure _
  refine .run_bind (.run_lift .get) fun s => ?_
  dsimp only
  split
  · exact .run_throw_bind _ _
  · split
    · exact .run_bind (.run_except _) fun _ => hlast _ _
    · exact hlast _ _

/-- Unmapping an object changes no gate. -/
theorem unmapObject_gates (process : RecordId) (address size : Nat) (object : RecordId) :
    Keeps SameGates (unmapObject process address size object).run :=
  .run_bind (.run_lift .get) fun _ => .run_bind (.run_except _) fun _ => .run_lift (setSpace_gates _ _)

/-- Permissions of mappings are no permissions to call. -/
theorem setMappingPermission_gates (process : RecordId) (address : Nat) (permission : Permission) :
    Keeps SameGates (setMappingPermission process address permission).run :=
  .run_bind (.run_lift .get) fun _ => .run_bind (.run_except _) fun _ => .run_lift (setSpace_gates _ _)

/-- Reading memory changes no gate. -/
theorem readMemory_gates (process : RecordId) (address length : Nat) : Keeps SameGates (readMemory process address length).run :=
  .run_bind (.run_lift .get) fun _ => .run_bind (.run_except _) fun _ => .run_bind (.run_lift .get) fun _ => .run_except _

/-- Writing memory changes none: what was granted does not lie in it. -/
theorem writeMemory_gates (process : RecordId) (address : Nat) (bytes : Wire.Bytes) :
    Keeps SameGates (writeMemory process address bytes).run := by
  refine .run_bind (.run_lift .get) fun _ => .run_bind (.run_except _) fun _ => .run_bind (.run_lift .get) fun _ => ?_
  exact .run_bind (.run_lift (Keeps.get.bind fun _ => setKernel_gates _ _)) fun _ => .run_except _

/-- Memory objects have no part in gates. -/
theorem setTransferMemory_gates (id : RecordId) (m : TransferMemory) : Keeps SameGates (setTransferMemory id m) :=
  fun _ => .of_eq rfl rfl

/-- Lending heap memory changes no gate. -/
theorem lendHeap_gates (process : RecordId) (address size : Nat) (permission : Permission) :
    Keeps SameGates (lendHeap process address size permission).run := by
  unfold lendHeap
  split
  · exact .run_throw_bind _ _
  · refine .run_bind (.run_lift .get) fun _ => .run_bind (.run_except _) fun _ => .run_lift ?_
    exact (gates_of_owners freshId_keeps).bind fun _ => (setTransferMemory_gates _ _).bind fun _ => .pure _

/-- Mapping shared memory changes no gate. -/
theorem mapShared_gates (id process : RecordId) (address size : Nat) (asked : Permission) :
    Keeps SameGates (mapShared id process address size asked).run := by
  refine .run_bind (.run_lift .get) fun s => ?_
  dsimp only
  split
  · exact .run_throw_bind _ _
  · split
    · exact .run_throw_bind _ _
    · exact mapObject_gates _ _ _ _

/-- Mapping transfer memory changes no gate. -/
theorem mapTransfer_gates (id process : RecordId) (address size : Nat) (asked : Permission) :
    Keeps SameGates (mapTransfer id process address size asked).run := by
  refine .run_bind (.run_lift .get) fun s => ?_
  dsimp only
  split
  · exact .run_throw_bind _ _
  · split
    · exact .run_throw_bind _ _
    · refine .run_bind (mapObject_gates _ _ _ _) fun _ => .run_bind (.run_lift (setTransferMemory_gates _ _)) fun _ => .run_pure _

/-- Unmapping transfer memory changes no gate. -/
theorem unmapTransfer_gates (id process : RecordId) (address size : Nat) :
    Keeps SameGates (unmapTransfer id process address size).run :=
  .run_bind (unmapObject_gates _ _ _ _) fun _ => .run_bind (.run_lift .get) fun _ => .run_lift (setTransferMemory_gates _ _)

/-- Another permission for transfer memory changes no gate. -/
theorem protectTransfer_gates (id : RecordId) (permission : Permission) :
    Keeps SameGates (protectTransfer id permission).run := by
  unfold protectTransfer
  split
  · exact .run_throw_bind _ _
  · refine .run_bind (.run_lift .get) fun _ => .run_bind (.run_lift (setTransferMemory_gates _ _)) fun _ => ?_
    refine .run_bind (.run_forIn fun _ _ => ?_) fun _ => .run_pure _
    exact .run_bind (.run_lift (.forget (setMappingPermission_gates _ _ _))) fun _ => .run_pure _

/-! ## Handles -/

/-- A handle gives no right to call. -/
theorem generateHandle_gates (process : RecordId) (object : KernelObject) : Keeps SameGates (generateHandle process object).run := by
  intro s
  rw [generateHandle, Action.run_look]
  dsimp only
  split
  · exact run_after_setProcess rfl (.run_bind (.run_lift (gates_of_owners (handleOpened_keeps _))) fun _ => .run_pure _)
  · split
    · exact log_gates _ _ s
    · exact refl s

/-- Closing a handle takes no right to call away, whatever it tears down. -/
theorem closeHandle_gates (process : RecordId) (handle : Handle) : Keeps SameGates (closeHandle process handle).run := by
  intro s
  rw [closeHandle, Action.run_look]
  dsimp only
  split
  · exact run_after_setProcess rfl (.run_lift (gates_of_owners (handleClosed_keeps _)))
  · exact refl s

/-- Looking a handle up changes no gate. -/
theorem resolveFor_gates (thread : RecordId) (handle : Handle) : Keeps SameGates (resolveFor thread handle).run := by
  refine .run_bind (.run_lift .get) fun _ => ?_
  dsimp only
  split
  · exact .run_pure _
  · split
    · exact .run_pure _
    · refine .run_bind (.run_lift .get) fun _ => ?_
      split
      · exact .run_pure _
      · exact .run_throw _

theorem resolveAs_gates (thread : RecordId) (handle : Handle) (cast : KernelObject → Option α) :
    Keeps SameGates (resolveAs thread handle cast).run := by
  refine .run_bind (resolveFor_gates _ _) fun _ => ?_
  split
  · exact .run_pure _
  · exact .run_throw _

/-- A session that is bound to a process changes no gate. -/
theorem bindClientSession_gates (process session : RecordId) : Keeps SameGates (bindClientSession process session).run :=
  .run_tryCatch (generateHandle_gates _ _) fun _ =>
    .run_bind (.run_lift (gates_of_owners (closeClientSession_keeps _))) fun _ => .run_throw _

/-- Looking up what to wait for changes no gate. -/
theorem waitablesFor_gates (thread : RecordId) (handles : List Handle) : Keeps SameGates (waitablesFor thread handles).run := by
  refine .run_bind (.run_mapM fun _ => resolveFor_gates _ _) fun _ => .run_mapM fun (_, _) => ?_
  dsimp only
  split
  · exact .run_pure _
  · exact .run_throw _

theorem pidOf_gates (thread : RecordId) (handle : Handle) : Keeps SameGates (pidOf thread handle).run := by
  refine .run_bind (resolveFor_gates _ _) fun _ => .run_bind (.run_lift .get) fun _ => ?_
  split
  · exact .run_pure _
  · dsimp only
    split
    · exact .run_pure _
    · exact .run_throw _
  · exact .run_throw _

/-! ## Messages -/

/-- The message buffer of a thread is memory. -/
theorem writeMessageBuffer_gates (thread : RecordId) (bytes : Wire.Bytes) :
    Keeps SameGates (writeMessageBuffer thread bytes).run := by
  unfold writeMessageBuffer
  split
  · exact .run_throw_bind _ _
  · exact .run_bind (.run_lift .get) fun _ => writeMemory_gates _ _ _

theorem readMessageBuffer_gates (thread : RecordId) : Keeps SameGates (readMessageBuffer thread).run :=
  .run_bind (.run_lift .get) fun _ => readMemory_gates _ _ _

/-- A request that is sent changes no gate. -/
theorem sendRequest_gates (client request : RecordId) : Keeps SameGates (sendRequest client request).run := by
  refine .run_bind (.run_lift .get) fun _ => .run_bind (.run_lift .get) fun _ => .run_bind (.run_except _) fun _ => ?_
  exact .run_bind (.run_lift (gates_of_owners (setSession_keeps _ _))) fun _ => .run_lift (wake_gates _)

/-- A request that is queued for a thread changes no gate. -/
theorem queueRequest_gates (thread : RecordId) (handle : Handle) (isExchange : Bool) :
    Keeps SameGates (queueRequest thread handle isExchange).run := by
  have hnew (client : RecordId) (address : Nat) : Keeps SameGates (newRequest client address) :=
    (gates_of_owners freshId_keeps).bind fun _ => (gates_of_owners (setRequest_keeps _ _)).bind fun _ => .pure _
  refine .run_bind (resolveAs_gates _ _ _) fun _ => .run_bind (.run_lift .get) fun _ => .run_bind (.run_lift (hnew _ _)) fun _ => ?_
  exact .run_bind (sendRequest_gates _ _) fun _ => .run_pure _

/-- Connecting to a port by its name changes no gate. -/
theorem connectNamedPort_gates (kernel : RecordId) (name : String) : Keeps SameGates (connectNamedPort kernel name).run := by
  refine .run_bind (.run_lift .get) fun _ => ?_
  split
  · exact gates_of_owners (connectPort_keeps _)
  · exact .run_throw _

/-! ## Ends -/

/-- A thread that moves on keeps its type and its process. -/
theorem moveThread_gates (id : RecordId) (event : ThreadEvent) : Keeps SameGates (moveThread id event) := by
  refine Keeps.look fun s => ?_
  cases (s.thread id).state.next? event with
  | some state =>
    refine after_setThread rfl rfl ?_
    split
    · exact wake_gates _
    · exact .pure _
  | none => exact log_gates _ _ s

/-- Whatever a thread is doing, it keeps its type and its process. -/
theorem setActivity_gates (id : RecordId) (activity : Activity) : Keeps SameGates (setActivity id activity) :=
  Keeps.look fun _ => .setThread rfl rfl

/-- An answer does not say what may be called next. -/
theorem answerCall_gates (id : RecordId) (answer : Except KernelError CallValue) : Keeps SameGates (answerCall id answer) :=
  Keeps.look fun _ => .setThread rfl rfl

/-- A request to exit closes no gate. -/
theorem requestTermination_gates (id : RecordId) : Keeps SameGates (requestTermination id) := by
  exact Keeps.look fun s => after_setThread rfl rfl (wakeOne_gates _)

/-- A process that moves on keeps what it was granted. -/
theorem moveProcess_gates (id : RecordId) (event : ProcessEvent) : Keeps SameGates (moveProcess id event) := by
  refine Keeps.look fun s => ?_
  cases (s.process id).state.next? event with
  | some state => exact .setProcess rfl
  | none => exact refl s

/-- A process that is paused keeps what it was granted. -/
theorem setPaused_gates (id : RecordId) (paused : Bool) : Keeps SameGates (setPaused id paused) :=
  Keeps.look fun _ => .setProcess rfl

/-- A process that has terminated still has what it was granted. -/
theorem finishTermination_gates (id : RecordId) : Keeps SameGates (finishTermination id) := by
  have hlast (text : String) (kernel : RecordId) (event : KernelEvent) : Keeps SameGates (do
      wake ((← get).process id).waiters
      log .info text
      let _ ← audit kernel event) :=
    Keeps.get.bind fun _ => (wake_gates _).bind fun _ => (log_gates _ _).bind fun _ => (audit_gates _ _).bind fun _ => .pure _
  intro s
  rw [finishTermination, Update.run_look]
  dsimp only
  cases (s.process id).state.next? .finishTermination with
  | some state =>
    refine after_setProcess rfl (Keeps.bind (.forIn fun _ _ => ?_) fun _ => ?_)
    · exact (gates_of_owners (handleClosed_keeps _)).bind fun _ => .pure _
    · intro s
      rw [Update.run_look]
      exact after_setProcess rfl (hlast _ _ _)
  | none => exact refl s

/-- The exit of a thread changes no gate. -/
theorem threadExited_gates (process : RecordId) : Keeps SameGates (threadExited process) := by
  refine Keeps.get.bind fun _ => ?_
  split
  · split
    · exact (moveProcess_gates _ _).bind fun _ => finishTermination_gates _
    · exact finishTermination_gates _
  · exact .pure _

theorem exitThread_gates (id : RecordId) (ending : ThreadEnd) : Keeps SameGates (exitThread id ending) := by
  have hexit (process : RecordId) : Keeps SameGates (do
      setActivity id .none
      moveThread id .exit
      moveThread id .finish
      threadExited process) :=
    (setActivity_gates _ _).bind fun _ => (moveThread_gates _ _).bind fun _ => (moveThread_gates _ _).bind fun _ =>
      threadExited_gates _
  refine Keeps.get.bind fun s => Keeps.get.bind fun s' => ?_
  split
  · exact hexit _
  · exact hexit _
  · exact (log_gates _ _).bind fun _ => hexit _
  · exact (log_gates _ _).bind fun _ => hexit _

/-- A server that closes its sessions changes no gate. -/
theorem closeSessions_gates (server : RecordId) : Keeps SameGates (closeSessions server) := by
  refine Keeps.get.bind fun s => Keeps.bind (fun _ => .of_eq rfl rfl) fun _ => ?_
  exact .forIn fun _ _ => (gates_of_owners (closeServerSession_keeps _)).bind fun _ => .pure _

/-- A wait that is left changes no gate. -/
theorem leaveWait_gates (id : RecordId) (wait : Wait) : Keeps SameGates (leaveWait id wait) :=
  Keeps.bind (Keeps.modify fun _ => .of_eq rfl rfl) fun _ => (unregisterAll_gates _ _).bind fun _ => moveThread_gates _ _

/-- A request that is completed changes no gate. -/
theorem completeRequest_gates (id : RecordId) (result : Except KernelError Unit) : Keeps SameGates (completeRequest id result) :=
  gates_of_owners (completeRequest_keeps _ _)

/-- A thread that is ended keeps its gate. -/
theorem stopThread_gates (id : RecordId) : Keeps SameGates (stopThread id) := by
  have hclose (t : Thread) := keeps_closeAndExit closeSessions_gates (exitThread_gates id .returned) t
  refine Keeps.get.bind fun s => ?_
  dsimp only
  split
  · exact .pure _
  · exact (moveThread_gates _ _).bind fun _ => hclose _
  · exact hclose _
  · exact (answerCall_gates _ _).bind fun _ => hclose _
  · exact hclose _
  · refine (leaveWait_gates _ _).bind fun _ => ?_
    split
    · exact hclose _
    · exact (completeRequest_gates _ _).bind fun _ => (answerCall_gates _ _).bind fun _ => hclose _
    · exact (answerCall_gates _ _).bind fun _ => hclose _

/-- The threads of a process that is terminated keep their gates. -/
theorem terminateProcess_gates (id : RecordId) (caller : Option RecordId) : Keeps SameGates (terminateProcess id caller) := by
  refine (moveProcess_gates id _).bind fun moved => ?_
  split
  · refine Keeps.get.bind fun _ => (log_gates _ _).bind fun _ => ?_
    refine Keeps.bind (.forIn fun _ _ => (requestTermination_gates _).bind fun _ => .pure _) fun _ => ?_
    refine (setPaused_gates _ _).bind fun _ => Keeps.bind (.forIn fun _ _ => ?_) fun _ => Keeps.get.bind fun _ => ?_
    · split
      · exact (stopThread_gates _).bind fun _ => .pure _
      · exact .pure _
    · dsimp only
      split
      · exact finishTermination_gates _
      · exact .pure _
  · exact .pure _

/-! ## Calls -/

/-- No call of a guest changes a gate, whatever it comes to. -/
theorem runCall_gates (thread : RecordId) (call : GuestCall) : Keeps SameGates (runCall thread call).run := by
  have hdone (program : Action Unit) (h : Keeps SameGates program.run) : Keeps SameGates (ExceptT.run (do
      program
      return .answer .unit : Action CallStep)) := .run_bind h fun _ => .run_pure _
  have hnumber (program : Action Nat) (h : Keeps SameGates program.run) :
      Keeps SameGates (ExceptT.run (do return .answer (.number (← program)) : Action CallStep)) := .run_bind h fun _ => .run_pure _
  have hhandle (program : Action Handle) (h : Keeps SameGates program.run) :
      Keeps SameGates (ExceptT.run ((program >>= fun h => pure h.raw.toNat) >>= fun n => pure (CallStep.answer (.number n)))) :=
    hnumber _ (.run_bind h fun _ => .run_pure _)
  refine .run_bind (.run_lift .get) fun s => ?_
  cases call with
  | checkpoint => exact .run_pure _
  | resolve h => exact .run_bind (resolveFor_gates _ _) fun _ => .run_pure _
  | generateHandle object => exact hhandle _ (generateHandle_gates _ _)
  | bindSession session => exact hhandle _ (bindClientSession_gates _ _)
  | createEvent mode =>
    exact hhandle _ (.run_bind (.run_lift (gates_of_owners (newEvent_keeps _))) fun _ => generateHandle_gates _ _)
  | signalEvent h =>
    exact hdone _ (.run_bind (resolveAs_gates _ _ _) fun _ => .run_lift (gates_of_owners (signalEvent_keeps _)))
  | clearEvent h =>
    exact hdone _ (.run_bind (resolveAs_gates _ _ _) fun _ => .run_lift (Keeps.get.bind fun _ => gates_of_owners (setEvent_keeps _ _)))
  | resetSignal h =>
    refine hdone _ (.run_bind (resolveAs_gates _ _ _) fun _ => .run_bind (.run_lift .get) fun _ => ?_)
    exact .run_bind (.run_except _) fun _ => .run_lift (gates_of_owners (setEvent_keeps _ _))
  | wait handles nanos =>
    dsimp only
    split
    · exact .run_throw_bind _ _
    · exact .run_bind (waitablesFor_gates _ _) fun _ => .run_pure _
  | sleep nanos =>
    dsimp only
    split
    · exact .run_pure _
    · exact .run_pure _
  | closeHandle h =>
    dsimp only
    split
    · exact .run_throw_bind _ _
    · exact hdone _ (closeHandle_gates _ _)
  | allocate size permission => exact hnumber _ (allocateHeap_gates _ _ _)
  | readMemory address length => exact .run_bind (readMemory_gates _ _ _) fun _ => .run_pure _
  | writeMemory address bytes => exact hdone _ (writeMemory_gates _ _ _)
  | createTransfer address size permission =>
    exact hhandle _ (.run_bind (lendHeap_gates _ _ _ _) fun _ => generateHandle_gates _ _)
  | mapShared h address size permission =>
    exact hnumber _ (.run_bind (resolveAs_gates _ _ _) fun _ => mapShared_gates _ _ _ _ _)
  | unmapShared h address size => exact hdone _ (.run_bind (resolveAs_gates _ _ _) fun _ => unmapObject_gates _ _ _ _)
  | mapTransfer h address size permission =>
    exact hnumber _ (.run_bind (resolveAs_gates _ _ _) fun _ => mapTransfer_gates _ _ _ _ _)
  | unmapTransfer h address size => exact hdone _ (.run_bind (resolveAs_gates _ _ _) fun _ => unmapTransfer_gates _ _ _ _)
  | protectTransfer h permission => exact hdone _ (.run_bind (resolveAs_gates _ _ _) fun _ => protectTransfer_gates _ _)
  | connect name =>
    refine .run_bind (.run_lift .get) fun _ => hhandle _ (.run_bind (connectNamedPort_gates _ _) fun _ => bindClientSession_gates _ _)
  | sendRequest h => exact queueRequest_gates _ _ _
  | exchange h _ => exact queueRequest_gates _ _ _
  | writeMessage bytes => exact hdone _ (writeMessageBuffer_gates _ _)
  | readMessage => exact .run_bind (readMessageBuffer_gates _) fun _ => .run_pure _
  | messageAddress => exact .run_bind (.run_lift .get) fun _ => .run_pure _
  | systemTick => exact .run_bind (.run_lift .get) fun _ => .run_pure _
  | processId h => exact hnumber _ (pidOf_gates _ _)
  | writeDebug text =>
    refine .run_bind (.run_lift .get) fun _ => .run_bind (.run_lift (log_gates _ _)) fun _ => .run_bind (.run_lift .get) fun _ => ?_
    exact .run_bind (.run_lift (setKernel_gates _ _)) fun _ => .run_pure _
  | exitProcess => exact .run_bind (.run_lift (terminateProcess_gates _ _)) fun _ => .run_throw _
  | finish => exact .run_pure _
  | fail e => exact .run_pure _
  | panic => exact .run_pure _

/-- The answer to a call changes no gate. -/
theorem finishCall_gates (thread : RecordId) (answer : Except KernelError CallValue) : Keeps SameGates (finishCall thread answer) := by
  refine (answerCall_gates _ _).bind fun _ => ?_
  split
  · exact exitThread_gates _ _
  · exact setActivity_gates _ _

/-- What a call does behind its wait changes no gate. -/
theorem afterWait_gates (thread : RecordId) (purpose : WaitPurpose) (result : Except KernelError Nat) :
    Keeps SameGates (afterWait thread purpose result).run := by
  cases purpose with
  | index => exact .run_bind (.run_except _) fun _ => .run_pure _
  | sleep =>
    unfold afterWait
    dsimp only
    split
    · exact .run_pure _
    · exact .run_pure _
    · exact .run_throw _
  | reply request isExchange =>
    unfold afterWait
    dsimp only
    split
    · refine .run_bind (.run_lift .get) fun _ => .run_bind (.run_except _) fun _ => ?_
      split
      · exact .run_bind (readMessageBuffer_gates _) fun _ => .run_pure _
      · exact .run_pure _
    · exact .run_bind (.run_lift (completeRequest_gates _ _)) fun _ => .run_throw _
  | serve window => exact .run_pure _

theorem endGuestWait_gates (thread : RecordId) (purpose : WaitPurpose) (result : Except KernelError Nat) :
    Keeps SameGates (endGuestWait thread purpose result) :=
  (moveThread_gates _ _).bind fun _ => (afterWait_gates _ _ _).bind fun _ => finishCall_gates _ _

/-- A call that goes on changes no gate. -/
theorem proceed_gates (thread : RecordId) (call : GuestCall) : Keeps SameGates (proceed thread call) := by
  refine (runCall_gates _ _).bind fun result => ?_
  split
  · exact finishCall_gates _ _
  · exact finishCall_gates _ _
  · exact (answerCall_gates _ _).bind fun _ => exitThread_gates _ _
  · refine (moveThread_gates _ _).bind fun _ => Keeps.get.bind fun _ => (beginWait_gates _ _ _ _).bind fun found => ?_
    split
    · exact setActivity_gates _ _
    · exact endGuestWait_gates _ _ _
    · exact endGuestWait_gates _ _ _

/-- A call that passes its checkpoint changes no gate. -/
theorem passCheckpoint_gates (thread : RecordId) (call : GuestCall) : Keeps SameGates (passCheckpoint thread call) := by
  refine Keeps.get.bind fun s => ?_
  dsimp only
  split
  · exact finishCall_gates _ _
  · split
    · exact setActivity_gates _ _
    · exact proceed_gates _ _

/-- No call that a guest makes changes a gate from beginning to end. -/
theorem enterCall_gates (thread : RecordId) (call : GuestCall) : Keeps SameGates (enterCall thread call) := by
  unfold enterCall
  split
  · refine Keeps.get.bind fun s => ?_
    split
    · exact passCheckpoint_gates _ _
    · exact (log_gates _ _).bind fun _ => finishCall_gates _ _
  · split
    · exact passCheckpoint_gates _ _
    · exact proceed_gates _ _

/-- Whatever a guest thread calls, no thread may call more or less than before. -/
theorem submitCall_gates (thread : RecordId) (call : GuestCall) : Keeps SameGates (submitCall thread call) := by
  unfold submitCall
  split
  · refine (writeMessageBuffer_gates _ _).bind fun result => ?_
    split
    · exact enterCall_gates _ _
    · exact finishCall_gates _ _
  · exact enterCall_gates _ _

end Machine

end Microkernel
