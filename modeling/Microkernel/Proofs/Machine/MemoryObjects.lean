import Microkernel.Proofs.Machine.Upkeep

/-!
# What leaves memory objects alone

Whatever starts and ends processes and threads, hands out handles or takes pages keeps the memory objects as they are, and makes no
process but those it is for (`SameObjects`).
-/

namespace Microkernel

/-- The memory objects are the same, and no process has been made but known ones. -/
structure SameObjects (known : RecordId → Prop) (s t : Machine) : Prop where
  sharedMemories : t.sharedMemories = s.sharedMemories
  transferMemories : t.transferMemories = s.transferMemories
  process : ∀ id, t.processes.contains id = true → s.processes.contains id = true ∨ known id

variable {α β : Type} {known : RecordId → Prop} {s t : Machine} {id : RecordId}

instance : IsPreorder Machine (SameObjects known) where
  refl _ := ⟨rfl, rfl, fun _ h => .inl h⟩
  trans _ _ _ h h' := by
    refine ⟨h'.sharedMemories.trans h.sharedMemories, h'.transferMemories.trans h.transferMemories, fun id hid => ?_⟩
    rcases h'.process id hid with hid | hknown
    · exact h.process id hid
    · exact .inr hknown

namespace SameObjects

/-- Whoever leaves memory objects and processes as they are leaves memory objects alone. -/
theorem of_eq (hs : t.sharedMemories = s.sharedMemories) (ht : t.transferMemories = s.transferMemories)
    (hp : t.processes = s.processes) : SameObjects known s t := ⟨hs, ht, fun _ hid => .inl (hp ▸ hid)⟩

/-- Of a known process everything may become another. -/
theorem setProcess (hid : known id) (p : Process) : SameObjects known s (Machine.setProcess id p s).2 := by
  refine ⟨rfl, rfl, fun other ho => ?_⟩
  rcases (Records.contains_insert _ _ _ _).1 ho with rfl | ho
  · exact .inr hid
  · exact .inl ho

end SameObjects

/-- Machines with the same owners have the same memory objects. -/
theorem SameOwners.sameObjects (h : SameOwners s t) : SameObjects known s t :=
  .of_eq h.sharedMemories h.transferMemories h.processes

/-- Whoever leaves owners alone leaves memory objects alone. -/
theorem Keeps.sameObjects {p : Update α} (h : Keeps SameOwners p) : Keeps (SameObjects known) p :=
  h.mono fun _ _ h => h.sameObjects

namespace Machine

/-! ## Telling, waking and threads -/

theorem log_objects (level : Level) (text : String) : Keeps (SameObjects known) (log level text) := (log_keeps level text).sameObjects

theorem wake_objects (l : WaitList) : Keeps (SameObjects known) (wake l) := (wake_keeps l).sameObjects

/-- Kernels have no part in memory objects. -/
theorem setKernel_objects (id : RecordId) (k : Kernel) : Keeps (SameObjects known) (setKernel id k) := fun _ => .of_eq rfl rfl rfl

/-- Threads have no part in memory objects. -/
theorem setThread_objects (id : RecordId) (t : Thread) : Keeps (SameObjects known) (setThread id t) := fun _ => .of_eq rfl rfl rfl

theorem audit_objects (kernel : RecordId) (event : KernelEvent) : Keeps (SameObjects known) (audit kernel event) :=
  fun _ => .of_eq rfl rfl rfl

theorem takeThreadId_objects (kernel : RecordId) : Keeps (SameObjects known) (takeThreadId kernel) := fun _ => .of_eq rfl rfl rfl

/-- Processes that leave their process set leave no memory object. -/
theorem reapTerminated_objects (kernel : RecordId) : Keeps (SameObjects known) (reapTerminated kernel) := fun _ => .of_eq rfl rfl rfl

/-- A thread that moves on leaves memory objects alone. -/
theorem moveThread_objects (id : RecordId) (event : ThreadEvent) : Keeps (SameObjects known) (moveThread id event) := by
  refine Keeps.get.bind fun s => ?_
  dsimp only
  split
  · refine (setThread_objects _ _).bind fun _ => ?_
    split
    · exact wake_objects _
    · exact .pure _
  · exact log_objects _ _

theorem setActivity_objects (id : RecordId) (activity : Activity) : Keeps (SameObjects known) (setActivity id activity) :=
  Keeps.get.bind fun _ => setThread_objects _ _

/-- An answer leaves memory objects alone. -/
theorem answerCall_objects (id : RecordId) (answer : Except KernelError CallValue) :
    Keeps (SameObjects known) (answerCall id answer) :=
  Keeps.get.bind fun _ => setThread_objects _ _

theorem requestTermination_objects (id : RecordId) : Keeps (SameObjects known) (requestTermination id) :=
  Keeps.get.bind fun _ => (setThread_objects _ _).bind fun _ _ => .of_eq rfl rfl rfl

theorem startThread_objects (id : RecordId) : Keeps (SameObjects known) (startThread id) :=
  (moveThread_objects _ _).bind fun _ => setActivity_objects _ _

/-! ## Processes and handles -/

/-- A known process that moves on leaves memory objects alone. -/
theorem moveProcess_objects (hid : known id) (event : ProcessEvent) : Keeps (SameObjects known) (moveProcess id event) := by
  refine Keeps.get.bind fun s => ?_
  dsimp only
  split
  · exact Keeps.bind (fun _ => .setProcess hid _) fun _ => .pure _
  · exact .pure _

/-- A known process that is paused leaves memory objects alone. -/
theorem setPaused_objects (hid : known id) (paused : Bool) : Keeps (SameObjects known) (setPaused id paused) :=
  Keeps.get.bind fun _ _ => .setProcess hid _

/-- A handle of a known process names a memory object and changes none. -/
theorem generateHandle_objects (hid : known id) (object : KernelObject) : Keeps (SameObjects known) (generateHandle id object).run := by
  refine .run_bind (.run_lift .get) fun s => ?_
  dsimp only
  split
  · refine .run_bind (.run_lift fun _ => .setProcess hid _) fun _ => ?_
    exact .run_bind (.run_lift (handleOpened_keeps _).sameObjects) fun _ => .run_pure _
  · split
    · exact .run_bind (.run_lift (log_objects _ _)) fun _ => .run_throw _
    · exact .run_throw _

/-- A handle that is closed leaves its memory object as it is. -/
theorem closeHandle_objects (hid : known id) (handle : Handle) : Keeps (SameObjects known) (closeHandle id handle).run := by
  refine .run_bind (.run_lift .get) fun s => ?_
  dsimp only
  split
  · exact .run_bind (.run_lift fun _ => .setProcess hid _) fun _ => .run_lift (handleClosed_keeps _).sameObjects
  · exact .run_throw _

/-! ## Pages -/

/-- Pages that are taken become nobody's memory object by that. -/
theorem allocatePages_objects (kernel : RecordId) (kind : RegionKind) (pages : Nat) :
    Keeps (SameObjects known) (allocatePages kernel kind pages).run := by
  intro s
  rw [allocatePages_run]
  split <;> exact .of_eq rfl rfl rfl

/-- Pages that are freed were no memory object's. -/
theorem freeAllocation_objects (id : AllocationId) : Keeps (SameObjects known) (freeAllocation id) := by
  intro s
  rw [freeAllocation_run]
  split
  · exact .of_eq rfl rfl rfl
  · exact refl s

/-- Pages are taken for a process and mapped, or given back. -/
theorem claim_objects (id : RecordId) (n : Nat) {program : AllocationId → PageList → Action β}
    (h : ∀ allocation pages, Keeps (SameObjects known) (program allocation pages).run) : Keeps (SameObjects known) (do
      let (allocation, pages) ← allocateFor id n
      givingBack allocation (program allocation pages) : Action β).run :=
  .run_bind (.run_bind (.run_lift .get) fun _ => allocatePages_objects _ _ _) fun _ => .run_tryCatch (h _ _) fun e =>
    .run_bind (.run_lift (freeAllocation_objects _)) fun _ => .run_throw e

/-- Owned pages are mapped into a known process, and into no object. -/
theorem mapOwned_objects (hid : known id) (address : Nat) (allocation : AllocationId) (pages : PageList) (permission : Permission)
    (state : MemoryState) : Keeps (SameObjects known) (mapOwned id address allocation pages permission state).run :=
  .run_bind (.run_lift .get) fun _ => .run_bind (.run_except _) fun _ => .run_lift (Keeps.get.bind fun _ _ => .setProcess hid _)

/-- Pages are mapped at an address that was found, or go back. -/
theorem mapFound_objects (hid : known id) (allocation : AllocationId) (pages : PageList) (permission : Permission)
    (state : MemoryState) (find : AddressSpace → Except KernelError Nat) : Keeps (SameObjects known) (do
      let address ← find ((← get).process id).space
      mapOwned id address allocation pages permission state
      return address : Action Nat).run :=
  .run_bind (.run_lift .get) fun _ => .run_bind (.run_except _) fun _ =>
    .run_bind (mapOwned_objects hid _ _ _ _ _) fun _ => .run_pure _

/-- Heap memory is no memory object until it is lent. -/
theorem allocateHeap_objects (hid : known id) (size : Nat) (permission : Permission) :
    Keeps (SameObjects known) (allocateHeap id size permission).run := by
  unfold allocateHeap
  split
  · exact .run_throw_bind _ _
  · refine .run_bind (wholePages_keeps size) fun size => ?_
    exact claim_objects id _ fun allocation pages => mapFound_objects hid allocation pages permission .normal fun space =>
      space.findFree heapBase heapSize size

/-- Code that is mapped is no memory object. -/
theorem mapCode_objects (hid : known id) (address pages : Nat) : Keeps (SameObjects known) (mapCode id address pages).run := by
  unfold mapCode
  split
  · exact claim_objects id pages fun allocation pages => mapOwned_objects hid address allocation pages .readExecute .code
  · exact .run_pure _

/-- The page of a thread is no memory object. -/
theorem createThread_objects (hid : known id) (threadId priority : Nat) (type : ThreadType) (body : ThreadBody) :
    Keeps (SameObjects known) (createThread id threadId priority type body).run := by
  refine .run_bind (.run_lift .get) fun s => ?_
  dsimp only
  split
  · exact .run_throw_bind _ _
  · split
    · exact .run_throw_bind _ _
    · have hlocal : Keeps (SameObjects known) (allocateThreadLocal id).run :=
        claim_objects id 1 fun allocation pages => mapFound_objects hid allocation pages .readWrite .threadLocal fun space =>
          space.findFree threadLocalBase threadLocalSize pageSize
      refine .run_bind hlocal fun _ => ?_
      refine .run_bind (.run_lift freshId_keeps.sameObjects) fun _ => .run_bind (.run_lift (setThread_objects _ _)) fun _ => ?_
      exact .run_bind (.run_lift .get) fun _ => .run_bind (.run_lift fun _ => .setProcess hid _) fun _ => .run_pure _

/-! ## Starts -/

/-- A new process makes itself known and no memory object. -/
theorem createProcess_objects (kernel : RecordId) (name : String) (programId : Nat) (flags : ProcessFlags)
    (capabilities : Capabilities) (s : Machine) :
    SameObjects (· = s.nextId) s (createProcess kernel name programId flags capabilities s).2 :=
  ⟨rfl, rfl, fun _ ho => ((Records.contains_insert _ _ _ _).1 ho).symm⟩

/-- A process that is dropped leaves the memory objects. -/
theorem discardProcess_objects (id : RecordId) : Keeps (SameObjects known) (discardProcess id) := by
  refine Keeps.get.bind fun s => Keeps.bind (.forIn fun mapping _ => ?_) fun _ s => ?_
  · refine Keeps.bind (.forIn fun allocation _ => ?_) fun _ => .pure _
    exact (freeAllocation_objects _).bind fun _ => .pure _
  · exact ⟨rfl, rfl, fun other ho => .inl ((Records.contains_erase _ _ _).1 ho).2⟩

/-! ## Ends -/

/-- Wait lists of processes are changed only where processes are. -/
theorem setWaiters_objects (object : Waitable) (l : WaitList) : Keeps (SameObjects fun _ => True) (setWaiters object l) := by
  refine Keeps.look fun s => ?_
  cases object with
  | process id => exact .setProcess trivial _
  | event | thread | serverPort | serverSession | request => exact .of_eq rfl rfl rfl

/-- A known process that has terminated leaves the memory objects. -/
theorem finishTermination_objects (hid : known id) : Keeps (SameObjects known) (finishTermination id) := by
  refine Keeps.get.bind fun s => ?_
  dsimp only
  split
  · refine Keeps.bind (fun _ => .setProcess hid _) fun _ => ?_
    refine Keeps.bind (.forIn fun _ _ => (handleClosed_keeps _).sameObjects.bind fun _ => .pure _) fun _ => ?_
    refine Keeps.get.bind fun _ => Keeps.bind (fun _ => .setProcess hid _) fun _ => Keeps.get.bind fun _ => ?_
    exact (wake_objects _).bind fun _ => (log_objects _ _).bind fun _ => (audit_objects _ _).bind fun _ => .pure _
  · exact .pure _

/-- The last thread of a process may end it, and no memory object. -/
theorem threadExited_objects (process : RecordId) : Keeps (SameObjects fun _ => True) (threadExited process) := by
  refine Keeps.get.bind fun _ => ?_
  split
  · split
    · exact (moveProcess_objects trivial _).bind fun _ => finishTermination_objects trivial
    · exact finishTermination_objects trivial
  · exact .pure _

theorem exitThread_objects (id : RecordId) (ending : ThreadEnd) : Keeps (SameObjects fun _ => True) (exitThread id ending) := by
  have hexit (process : RecordId) : Keeps (SameObjects fun _ => True) (do
      setActivity id .none
      moveThread id .exit
      moveThread id .finish
      threadExited process) :=
    (setActivity_objects _ _).bind fun _ => (moveThread_objects _ _).bind fun _ => (moveThread_objects _ _).bind fun _ =>
      threadExited_objects _
  refine Keeps.get.bind fun s => Keeps.get.bind fun s' => ?_
  split
  · exact hexit _
  · exact hexit _
  · exact (log_objects _ _).bind fun _ => hexit _
  · exact (log_objects _ _).bind fun _ => hexit _

/-- Sessions that are closed leave the memory objects. -/
theorem closeSessions_objects (server : RecordId) : Keeps (SameObjects known) (closeSessions server) := by
  refine Keeps.get.bind fun s => Keeps.bind (fun _ => .of_eq rfl rfl rfl) fun _ => ?_
  exact .forIn fun entry _ => (closeServerSession_keeps _).sameObjects.bind fun _ => .pure _

/-- A wait that is left leaves them. -/
theorem leaveWait_objects (id : RecordId) (wait : Wait) : Keeps (SameObjects fun _ => True) (leaveWait id wait) := by
  refine Keeps.bind (Keeps.modify fun _ => .of_eq rfl rfl rfl) fun _ => Keeps.bind ?_ fun _ => moveThread_objects _ _
  exact .forIn fun _ _ => Keeps.get.bind fun _ => (setWaiters_objects _ _).bind fun _ => .pure _

/-- A thread that is ended leaves them. -/
theorem stopThread_objects (id : RecordId) : Keeps (SameObjects fun _ => True) (stopThread id) := by
  have hclose (t : Thread) := keeps_closeAndExit (S := SameObjects fun _ => True) closeSessions_objects
    (exitThread_objects id .returned) t
  refine Keeps.get.bind fun s => ?_
  dsimp only
  split
  · exact .pure _
  · exact (moveThread_objects _ _).bind fun _ => hclose _
  · exact hclose _
  · exact (answerCall_objects _ _).bind fun _ => hclose _
  · exact hclose _
  · refine (leaveWait_objects _ _).bind fun _ => ?_
    split
    · exact hclose _
    · exact (completeRequest_keeps _ _).sameObjects.bind fun _ => (answerCall_objects _ _).bind fun _ => hclose _
    · exact (answerCall_objects _ _).bind fun _ => hclose _

/-- A process that is terminated leaves them, mapped or not. -/
theorem terminateProcess_objects (id : RecordId) (caller : Option RecordId) :
    Keeps (SameObjects fun _ => True) (terminateProcess id caller) := by
  refine (moveProcess_objects trivial _).bind fun moved => ?_
  split
  · refine Keeps.get.bind fun _ => (log_objects _ _).bind fun _ => ?_
    refine Keeps.bind (.forIn fun _ _ => (requestTermination_objects _).bind fun _ => .pure _) fun _ => ?_
    refine (setPaused_objects trivial false).bind fun _ => Keeps.bind (.forIn fun _ _ => ?_) fun _ => Keeps.get.bind fun _ => ?_
    · split
      · exact (stopThread_objects _).bind fun _ => .pure _
      · exact .pure _
    · dsimp only
      split
      · exact finishTermination_objects trivial
      · exact .pure _
  · exact .pure _

end Machine

end Microkernel
