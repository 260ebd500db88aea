import Microkernel.Proofs.Machine.Starting
import Microkernel.Proofs.Machine.Upkeep

/-!
# What pauses nothing

`Lasts` relates two machines if no kernel is paused in one and not in the other, no clock stands still in one and runs in the other,
no process set has a new member, and every process that there was is still the one that was created, paused as before, unless it has
begun to end and is not paused any more. Starting a process keeps this until the process joins the set; terminating keeps it
throughout.
-/

namespace Microkernel

/-- The kernel is paused if it was, its clock stands where it stood, its process set has no new member, and it gives no creation order
twice. -/
structure Kernel.Lasts (k k' : Kernel) : Prop where
  paused : k'.paused = k.paused
  clock : k'.clock = k.clock
  member : ∀ (pid : Nat) id, k'.processes[pid]? = some id → k.processes[pid]? = some id
  nextCreationOrder : k.nextCreationOrder ≤ k'.nextCreationOrder

instance : IsPreorder Kernel Kernel.Lasts where
  refl _ := ⟨rfl, rfl, fun _ _ h => h, Nat.le_refl _⟩
  trans _ _ _ h h' := ⟨h'.paused.trans h.paused, h'.clock.trans h.clock, fun pid id hm => h.member pid id (h'.member pid id hm),
    Nat.le_trans h.nextCreationOrder h'.nextCreationOrder⟩

/-- The process is the one that was created. It is paused as before, or has begun to end. -/
structure Process.Lasts (p q : Process) : Prop where
  pid : q.pid = p.pid
  isApplication : q.isApplication = p.isApplication
  creationOrder : q.creationOrder = p.creationOrder
  ending : p.state.isTerminating = true → q.state.isTerminating = true
  paused : q.paused = p.paused ∨ q.paused = false ∧ q.state.isTerminating = true

instance : IsPreorder Process Process.Lasts where
  refl _ := ⟨rfl, rfl, rfl, fun h => h, .inl rfl⟩
  trans p q r h h' := by
    refine ⟨h'.pid.trans h.pid, h'.isApplication.trans h.isApplication, h'.creationOrder.trans h.creationOrder,
      fun hp => h'.ending (h.ending hp), ?_⟩
    rcases h'.paused with hr | hr
    · rcases h.paused with hq | ⟨hq, hending⟩
      · exact .inl (hr.trans hq)
      · exact .inr ⟨hr.trans hq, h'.ending hending⟩
    · exact .inr hr

/-- Every kernel and every process that there was lasts. -/
structure Lasts (s t : Machine) : Prop where
  nextId : s.nextId ≤ t.nextId
  kernel : ∀ k, (s.kernel k).Lasts (t.kernel k)
  process : ∀ id, id < s.nextId → (s.process id).Lasts (t.process id)

instance : IsPreorder Machine Lasts where
  refl _ := ⟨Nat.le_refl _, fun _ => refl _, fun _ _ => refl _⟩
  trans _ _ _ h h' := ⟨Nat.le_trans h.nextId h'.nextId, fun k => IsTrans.trans _ _ _ (h.kernel k) (h'.kernel k),
    fun id hid => IsTrans.trans _ _ _ (h.process id hid) (h'.process id (Nat.lt_of_lt_of_le hid h.nextId))⟩

variable {α β : Type} {s t : Machine}

namespace Lasts

/-- Where kernels and processes stay, all of them last. -/
theorem of_eq (hn : s.nextId ≤ t.nextId) (hk : t.kernels = s.kernels) (hp : t.processes = s.processes) : Lasts s t where
  nextId := hn
  kernel k := by
    rw [Machine.kernel, Machine.kernel, hk]
    exact refl _
  process id _ := by
    rw [Machine.process, Machine.process, hp]
    exact refl _

/-- Setting a kernel lasts if the kernel does. -/
theorem setKernel {id : RecordId} {k : Kernel} (h : (s.kernel id).Lasts k) : Lasts s (Machine.setKernel id k s).2 where
  nextId := Nat.le_refl _
  kernel other := by
    change Kernel.Lasts _ (Machine.kernel { s with kernels := s.kernels.insert id k } other)
    rw [Machine.kernel_insert]
    split
    · next ho =>
      rw [ho]
      exact h
    · exact refl _
  process _ _ := refl _

/-- Setting a process lasts if the process does. -/
theorem setProcess {id : RecordId} {p : Process} (h : (s.process id).Lasts p) : Lasts s (Machine.setProcess id p s).2 where
  nextId := Nat.le_refl _
  kernel _ := refl _
  process other _ := by
    change Process.Lasts _ (Machine.process { s with processes := s.processes.insert id p } other)
    rw [Machine.process_insert]
    split
    · next ho =>
      rw [ho]
      exact h
    · exact refl _

end Lasts

namespace Machine

/-- What keeps everything that owns something, and gives no number back. -/
theorem lasts_of_owners {p : Update α} (h : Keeps SameOwners p) (hf : Keeps (Frame Unchanged) p) : Keeps Lasts p :=
  fun s => .of_eq (hf s).nextId (h s).kernels (h s).processes

/-! ## Telling and waking -/

theorem log_lasts (level : Level) (text : String) : Keeps Lasts (log level text) := fun _ => .of_eq (Nat.le_refl _) rfl rfl

theorem wake_lasts (l : WaitList) : Keeps Lasts (wake l) := fun _ => .of_eq (Nat.le_refl _) rfl rfl

theorem audit_lasts (kernel : RecordId) (event : KernelEvent) : Keeps Lasts (audit kernel event) :=
  fun s => .setKernel (k := ((s.kernel kernel).record event).2) ⟨rfl, rfl, fun _ _ h => h, Nat.le_refl _⟩

theorem setThread_lasts (id : RecordId) (x : Thread) : Keeps Lasts (setThread id x) := fun _ => .of_eq (Nat.le_refl _) rfl rfl

theorem moveThread_lasts (id : RecordId) (event : ThreadEvent) : Keeps Lasts (moveThread id event) := by
  refine Keeps.get.bind fun s => ?_
  dsimp only
  split
  · refine (setThread_lasts _ _).bind fun _ => ?_
    split
    · exact wake_lasts _
    · exact .pure _
  · exact log_lasts _ _

theorem setActivity_lasts (id : RecordId) (activity : Activity) : Keeps Lasts (setActivity id activity) :=
  Keeps.get.bind fun _ => setThread_lasts _ _

theorem startThread_lasts (id : RecordId) : Keeps Lasts (startThread id) :=
  (moveThread_lasts _ _).bind fun _ => setActivity_lasts _ _

theorem answerCall_lasts (id : RecordId) (answer : Except KernelError CallValue) : Keeps Lasts (answerCall id answer) :=
  Keeps.get.bind fun _ => setThread_lasts _ _

/-- Asking a thread to exit pauses nothing. -/
theorem requestTermination_lasts (id : RecordId) : Keeps Lasts (requestTermination id) :=
  Keeps.get.bind fun _ => (setThread_lasts _ _).bind fun _ => fun _ => .of_eq (Nat.le_refl _) rfl rfl

/-- Closing the sessions of a server pauses nothing. -/
theorem closeSessions_lasts (server : RecordId) : Keeps Lasts (closeSessions server) := by
  refine Keeps.get.bind fun s => Keeps.bind (fun _ => .of_eq (Nat.le_refl _) rfl rfl) fun _ => .forIn fun entry _ => ?_
  exact (lasts_of_owners (closeServerSession_keeps _) (closeServerSession_frame _)).bind fun _ => .pure _

theorem setWaiters_lasts (object : Waitable) (l : WaitList) : Keeps Lasts (setWaiters object l) := by
  refine Keeps.look fun s => ?_
  cases object with
  | process id => exact .setProcess ⟨rfl, rfl, rfl, fun h => h, .inl rfl⟩
  | _ => exact .of_eq (Nat.le_refl _) rfl rfl

/-- Leaving a wait pauses nothing. -/
theorem leaveWait_lasts (id : RecordId) (wait : Wait) : Keeps Lasts (leaveWait id wait) :=
  Keeps.bind (Keeps.modify fun _ => .of_eq (Nat.le_refl _) rfl rfl) fun _ =>
    Keeps.bind (.forIn fun _ _ => Keeps.get.bind fun _ => (setWaiters_lasts _ _).bind fun _ => .pure _) fun _ =>
      moveThread_lasts _ _

/-! ## Ends -/

/-- No event brings a process that has begun to end back. -/
theorem ProcessState.ending_of_next? {state next : ProcessState} {event : ProcessEvent} (h : state.next? event = some next)
    (hending : state.isTerminating = true) : next.isTerminating = true := by
  cases state <;> cases event <;> cases h <;> first | rfl | cases hending

/-- Moving a process pauses nothing: it is not paused any more once it has begun to end. -/
theorem moveProcess_lasts (id : RecordId) (event : ProcessEvent) : Keeps Lasts (moveProcess id event) := by
  refine Keeps.look fun s => ?_
  cases h : (s.process id).state.next? event with
  | some state => exact .setProcess ⟨rfl, rfl, rfl, ProcessState.ending_of_next? h, .inl rfl⟩
  | none => exact refl s

/-- A program that changes a process into one that it can become, and goes on. -/
theorem lasts_after_setProcess {id : RecordId} {p : Process} {rest : Unit → Update α} (h : (s.process id).Lasts p)
    (hrest : Keeps Lasts (rest ())) : Lasts s ((Machine.setProcess id p >>= rest) s).2 :=
  IsTrans.trans _ _ _ (.setProcess h) (hrest _)

/-- Finishing a termination pauses nothing. -/
theorem finishTermination_lasts (id : RecordId) : Keeps Lasts (finishTermination id) := by
  have hlast (text : String) (kernel : RecordId) (event : KernelEvent) : Keeps Lasts (do
      wake ((← get).process id).waiters
      log .info text
      let _ ← audit kernel event) :=
    Keeps.get.bind fun _ => (wake_lasts _).bind fun _ => (log_lasts _ _).bind fun _ => (audit_lasts _ _).bind fun _ => .pure _
  intro s
  rw [finishTermination, Update.run_look]
  dsimp only
  cases h : (s.process id).state.next? .finishTermination with
  | none => exact refl s
  | some state =>
    obtain ⟨-, rfl⟩ := ProcessState.of_finishTermination h
    refine lasts_after_setProcess ⟨rfl, rfl, rfl, fun h => h, .inl rfl⟩
      (Keeps.bind (.forIn fun _ _ => ?_) fun _ => Keeps.look fun t => ?_)
    · exact (lasts_of_owners (handleClosed_keeps _) (handleClosed_frame _)).bind fun _ => .pure _
    · exact lasts_after_setProcess ⟨rfl, rfl, rfl, fun _ => rfl, .inl rfl⟩ (hlast _ _ _)

/-- What a process does when one of its threads has exited pauses nothing. -/
theorem threadExited_lasts (process : RecordId) : Keeps Lasts (threadExited process) := by
  refine Keeps.get.bind fun _ => ?_
  split
  · split
    · exact (moveProcess_lasts _ _).bind fun _ => finishTermination_lasts _
    · exact finishTermination_lasts _
  · exact .pure _

/-- A thread that exits pauses nothing. -/
theorem exitThread_lasts (id : RecordId) (ending : ThreadEnd) : Keeps Lasts (exitThread id ending) := by
  have hexit (process : RecordId) : Keeps Lasts (do
      setActivity id .none
      moveThread id .exit
      moveThread id .finish
      threadExited process) :=
    (setActivity_lasts _ _).bind fun _ => (moveThread_lasts _ _).bind fun _ => (moveThread_lasts _ _).bind fun _ =>
      threadExited_lasts _
  refine Keeps.get.bind fun s => Keeps.get.bind fun s' => ?_
  split
  · exact hexit _
  · exact hexit _
  · exact (log_lasts _ _).bind fun _ => hexit _
  · exact (log_lasts _ _).bind fun _ => hexit _

/-- Stopping a thread pauses nothing. -/
theorem stopThread_lasts (id : RecordId) : Keeps Lasts (stopThread id) := by
  have hclose (t : Thread) := keeps_closeAndExit closeSessions_lasts (exitThread_lasts id .returned) t
  have hcomplete (request : RecordId) (result : Except KernelError Unit) : Keeps Lasts (completeRequest request result) :=
    lasts_of_owners (completeRequest_keeps _ _) (completeRequest_frame _ _)
  refine Keeps.get.bind fun s => ?_
  dsimp only
  split
  · exact .pure _
  · exact (moveThread_lasts _ _).bind fun _ => hclose _
  · exact hclose _
  · exact (answerCall_lasts _ _).bind fun _ => hclose _
  · exact hclose _
  · refine (leaveWait_lasts _ _).bind fun _ => ?_
    split
    · exact hclose _
    · exact (hcomplete _ _).bind fun _ => (answerCall_lasts _ _).bind fun _ => hclose _
    · exact (answerCall_lasts _ _).bind fun _ => hclose _

/-- A process that has begun to end may be unpaused, also after something that touches no process. -/
theorem lasts_unpause {id : RecordId} {p : Update α} {rest : Unit → Update β} (h : (s.process id).state.isTerminating = true)
    (hp : Keeps Lasts p) (hf : Keeps (Frame Unchanged) p) (hrest : Keeps Lasts (rest ())) :
    Lasts s ((p >>= fun _ => setPaused id false >>= rest) s).2 := by
  have hsame : (p s).2.process id = s.process id := (hf s).process id
  have hunpause : Lasts (p s).2 (setPaused id false (p s).2).2 := .setProcess ⟨rfl, rfl, rfl, fun h => h, .inr ⟨rfl, hsame ▸ h⟩⟩
  exact IsTrans.trans _ _ _ (hp s) (IsTrans.trans _ _ _ hunpause (hrest _))

/-- A process that is moved to its end has begun to end. -/
theorem ending_of_moved (id : RecordId) (s : Machine) (h : (moveProcess id .beginTermination s).1 = true) :
    ((moveProcess id .beginTermination s).2.process id).state.isTerminating = true := by
  rw [moveProcess, Update.run_look] at h ⊢
  cases hstate : (s.process id).state
  case created | running =>
    change (Machine.process { s with processes := s.processes.insert id _ } id).state.isTerminating = true
    rw [process_insert, if_pos rfl]
    rfl
  case terminating | terminated =>
    rw [hstate] at h
    cases h

/-- Terminating a process pauses nothing. -/
theorem terminateProcess_lasts (id : RecordId) (caller : Option RecordId) : Keeps Lasts (terminateProcess id caller) := by
  intro s
  rw [terminateProcess, Update.run_bind]
  have hmove := moveProcess_lasts id .beginTermination s
  have hending := ending_of_moved id s
  generalize moveProcess id .beginTermination s = moved at hmove hending ⊢
  split
  · next h =>
    rw [Update.run_look, Update.run_bind]
    refine IsTrans.trans _ _ _ (IsTrans.trans _ _ _ hmove (log_lasts _ _ _)) (lasts_unpause ?_ ?_ ?_ ?_)
    · exact hending h
    · exact .forIn fun _ _ => (requestTermination_lasts _).bind fun _ => .pure _
    · exact .forIn fun _ _ => (requestTermination_frame _).bind fun _ => .pure _
    · refine Keeps.bind (.forIn fun _ _ => ?_) fun _ => Keeps.get.bind fun _ => ?_
      · split
        · exact (stopThread_lasts _).bind fun _ => .pure _
        · exact .pure _
      · dsimp only
        split
        · exact finishTermination_lasts _
        · exact .pure _
  · exact hmove

/-! ## Memory -/

theorem withRegion_lasts (s : Machine) (kernel : RecordId) (region : Region) (host : Host) :
    Lasts s (s.withRegion kernel region host) :=
  .setKernel (k := { (s.kernel kernel).setRegion region with host }) ⟨rfl, rfl, fun _ _ h => h, Nat.le_refl _⟩

/-- Allocating pages pauses nothing. -/
theorem allocatePages_lasts (kernel : RecordId) (kind : RegionKind) (pages : Nat) :
    Keeps Lasts (allocatePages kernel kind pages).run := by
  intro s
  rw [allocatePages_run]
  split
  · exact IsTrans.trans _ _ _ (withRegion_lasts s _ _ _) (.of_eq (Nat.le_succ _) rfl rfl)
  · exact withRegion_lasts s _ _ _

theorem freeAllocation_lasts (id : AllocationId) : Keeps Lasts (freeAllocation id) := by
  intro s
  rw [freeAllocation_run]
  split
  · exact IsTrans.trans _ _ _ (withRegion_lasts s _ _ _) (.of_eq (Nat.le_refl _) rfl rfl)
  · exact refl s

/-- Mapping an allocation pauses nothing. -/
theorem mapOwned_lasts (process : RecordId) (address : Nat) (allocation : AllocationId) (pages : PageList)
    (permission : Permission) (state : MemoryState) :
    Keeps Lasts (mapOwned process address allocation pages permission state).run :=
  .run_bind (.run_lift .get) fun _ => .run_bind (.run_except _) fun _ =>
    .run_lift (Keeps.look fun _ => .setProcess ⟨rfl, rfl, rfl, fun h => h, .inl rfl⟩)

/-- Taking pages for a process pauses nothing. -/
theorem allocateFor_lasts (process : RecordId) (pages : Nat) : Keeps Lasts (allocateFor process pages).run :=
  .run_bind (.run_lift .get) fun _ => allocatePages_lasts _ _ _

/-- Giving an allocation back on failure pauses nothing, if what might fail does not. -/
theorem givingBack_lasts {program : Action α} (allocation : AllocationId) (h : Keeps Lasts program.run) :
    Keeps Lasts (givingBack allocation program).run :=
  .run_tryCatch h fun e => .run_bind (.run_lift (freeAllocation_lasts _)) fun _ => .run_throw e

/-- Mapping code pauses nothing. -/
theorem mapCode_lasts (process : RecordId) (address pages : Nat) : Keeps Lasts (mapCode process address pages).run := by
  unfold mapCode
  split
  · exact .run_bind (allocateFor_lasts _ _) fun _ => givingBack_lasts _ (mapOwned_lasts _ _ _ _ _ _)
  · exact .run_pure _

/-- Allocating thread-local memory pauses nothing. -/
theorem allocateThreadLocal_lasts (process : RecordId) : Keeps Lasts (allocateThreadLocal process).run := by
  refine .run_bind (allocateFor_lasts _ _) fun _ => givingBack_lasts _ (.run_bind (.run_lift .get) fun _ => ?_)
  exact .run_bind (.run_except _) fun _ => .run_bind (mapOwned_lasts _ _ _ _ _ _) fun _ => .run_pure _

/-! ## Making processes -/

theorem takeThreadId_lasts (kernel : RecordId) : Keeps Lasts (takeThreadId kernel) :=
  Keeps.look fun _ => .setKernel ⟨rfl, rfl, fun _ _ h => h, Nat.le_refl _⟩

/-- Creating a thread pauses nothing. -/
theorem createThread_lasts (process : RecordId) (threadId priority : Nat) (type : ThreadType) (body : ThreadBody) :
    Keeps Lasts (createThread process threadId priority type body).run := by
  refine .run_bind (.run_lift .get) fun s => ?_
  dsimp only
  split
  · exact .run_throw_bind _ _
  · split
    · exact .run_throw_bind _ _
    · refine .run_bind (allocateThreadLocal_lasts _) fun _ => ?_
      refine .run_bind (.run_lift fun _ => .of_eq (Nat.le_succ _) rfl rfl) fun id => ?_
      refine .run_bind (.run_lift (setThread_lasts _ _)) fun _ => Keeps.look fun s => ?_
      exact .setProcess ⟨rfl, rfl, rfl, fun h => h, .inl rfl⟩

/-- A kernel that gives out a process id lasts. -/
theorem takePid_lasts (k : Kernel) (isApplication : Bool) : k.Lasts (k.takePid isApplication).2 := by
  unfold Kernel.takePid
  split <;> exact ⟨rfl, rfl, fun _ _ h => h, Nat.le_refl _⟩

/-- Creating a process pauses nothing: the process joins the set later. -/
theorem createProcess_lasts (kernel : RecordId) (name : String) (programId : Nat) (flags : ProcessFlags)
    (capabilities : Capabilities) : Keeps Lasts (createProcess kernel name programId flags capabilities) := by
  intro s
  have hk := takePid_lasts (s.kernel kernel) flags.isApplication
  let k : Kernel := { ((s.kernel kernel).takePid flags.isApplication).2 with
    nextCreationOrder := ((s.kernel kernel).takePid flags.isApplication).2.nextCreationOrder + 1 }
  have hset : Lasts s (setKernel kernel k s).2 :=
    .setKernel (k := k) ⟨hk.paused, hk.clock, hk.member, Nat.le_succ_of_le hk.nextCreationOrder⟩
  constructor
  case nextId => exact Nat.le_succ _
  case kernel => exact hset.kernel
  case process =>
    intro id hid
    change (s.process id).Lasts (Machine.process { s with processes := s.processes.insert s.nextId _ } id)
    rw [process_insert, if_neg (Nat.ne_of_lt hid)]
    exact refl _

/-- A process that is new may be dropped. -/
theorem discardProcess_lasts {id : RecordId} (h : Lasts s t) (hid : s.nextId ≤ id) : Lasts s (discardProcess id t).2 := by
  have herase (u : Machine) (hu : Lasts s u) : Lasts s { u with processes := u.processes.erase id } := by
    refine ⟨hu.nextId, hu.kernel, fun other ho => ?_⟩
    have hother : Machine.process { u with processes := u.processes.erase id } other = u.process other := by
      change (u.processes.erase id).getD other default = _
      rw [Std.TreeMap.getD_erase, if_neg fun hc => ?_]
      · rfl
      · exact Nat.ne_of_lt (Nat.lt_of_lt_of_le ho hid) (Std.LawfulEqCmp.eq_of_compare hc).symm
    rw [hother]
    exact hu.process other ho
  rw [discardProcess, Update.run_look, Update.run_bind]
  refine herase _ (IsTrans.trans _ _ _ h (Keeps.forIn (fun mapping _ => ?_) t))
  exact Keeps.bind (.forIn fun _ _ => (freeAllocation_lasts _).bind fun _ => .pure _) fun _ => .pure _

/-- Reaping terminated processes adds no member to the set. -/
theorem reapTerminated_lasts (kernel : RecordId) : Keeps Lasts (reapTerminated kernel) := by
  refine fun s => .setKernel (k := { s.kernel kernel with processes := s.live (s.kernel kernel).processes })
    ⟨rfl, rfl, ?_, Nat.le_refl _⟩
  intro pid id hm
  exact (Option.filter_eq_some_iff.1 ((getElem?_live s _ pid).symm.trans hm)).1

/-- A process gets its thread, or is dropped. -/
theorem StartCall.makeThread_lasts (x : StartCall) (kernel : RecordId) {id : RecordId} (h : Lasts s t) (hid : s.nextId ≤ id) :
    (∀ thread u, (x.makeThread kernel id).run t = (.ok thread, u) → Lasts t u) ∧
      ∀ e u, (x.makeThread kernel id).run t = (.error e, u) → Lasts s u := by
  have hequip : Keeps Lasts (x.equip kernel id).run :=
    .run_bind (mapCode_lasts _ _ _) fun _ => .run_bind (.run_lift (takeThreadId_lasts _)) fun _ => createThread_lasts _ _ _ _ _
  have ht := hequip t
  rw [makeThread, Action.run_tryCatch]
  rcases hrun : (x.equip kernel id).run t with ⟨e | thread, v⟩ <;> rw [hrun] at ht
  · refine ⟨fun _ _ hu => (by cases hu), fun _ _ hu => ?_⟩
    exact (Prod.mk.inj hu).2 ▸ discardProcess_lasts (IsTrans.trans _ _ _ h ht) hid
  · refine ⟨fun _ _ hu => ?_, fun _ _ hu => by cases hu⟩
    exact (Prod.mk.inj hu).2 ▸ ht

/-! ## Shutdown -/

/-- Terminating all processes pauses nothing. -/
theorem terminateProcesses_lasts (kernel : RecordId) : Keeps Lasts (terminateProcesses kernel (pure ())) := by
  have hall (ids : List RecordId) : Keeps Lasts (do for id in ids do terminateProcess id none) :=
    .forIn fun _ _ => (terminateProcess_lasts _ _).bind fun _ => .pure _
  have hempty (k : Kernel) : k.Lasts { k with processes := {} } := by
    refine ⟨rfl, rfl, fun pid id hm => ?_, Nat.le_refl _⟩
    cases (Std.TreeMap.getElem?_emptyc (a := pid)).symm.trans hm
  refine Keeps.get.bind fun s => (hall _).bind fun _ => (Keeps.pure ()).bind fun _ => (hall _).bind fun _ => ?_
  exact Keeps.look fun t => .setKernel (hempty (t.kernel kernel))

/-- What the process does that is made for a shutdown pauses nothing. -/
theorem shutDownFrom_lasts (kernel host : RecordId) : Keeps Lasts (shutDownFrom kernel host).run := by
  refine .run_bind (.run_lift (moveProcess_lasts _ _)) fun _ => .run_bind (.run_lift (takeThreadId_lasts _)) fun _ => ?_
  refine .run_bind (createThread_lasts _ _ _ _ _) fun _ => .run_bind (.run_lift (startThread_lasts _)) fun _ => ?_
  refine .run_bind (.run_lift (moveThread_lasts _ _)) fun _ => .run_bind (.run_lift (terminateProcesses_lasts _)) fun _ => ?_
  refine .run_bind (.run_lift (exitThread_lasts _ _)) fun _ => .run_bind (.run_lift (terminateProcess_lasts _ _)) fun _ => ?_
  exact .run_bind (.run_lift (log_lasts _ _)) fun _ => .run_pure _

end Machine

end Microkernel
