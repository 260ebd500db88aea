import Microkernel.Proofs.Machine.Gates
import Microkernel.Proofs.Pausing.Lasting
import Microkernel.Proofs.Shutdown.Making
import Microkernel.Proofs.Teardown.Alone

/-!
# Seniority

A kernel gives every process that it creates a higher creation order than those before it. So no two members of a process set have
the same one, and threads are listed by the process that they belong to (`Ranked`), whatever is started and ended, in any order
(`ranked_after`).
-/

namespace Microkernel

/-! ## Crews -/

/-- Every thread that a process lists belongs to that process. -/
def Machine.Crewed (s : Machine) : Prop := ∀ id, ∀ th ∈ (s.process id).threads, th < s.nextId ∧ (s.thread th).process = id

/-- Every thread belongs to the process it belonged to, and no process lists a thread that it did not list. -/
structure SameCrews (s t : Machine) : Prop where
  nextId : s.nextId ≤ t.nextId
  owner : ∀ th, (t.thread th).process = (s.thread th).process
  threads : ∀ id, ∀ th ∈ (t.process id).threads, th ∈ (s.process id).threads

namespace SameCrews

variable {s t : Machine} {id : RecordId}

/-- A machine whose threads are listed by their processes stays one while crews do. -/
theorem crewed (h : SameCrews s t) (hs : s.Crewed) : t.Crewed := by
  intro id th hth
  obtain ⟨hold, howner⟩ := hs id th (h.threads id th hth)
  exact ⟨Nat.lt_of_lt_of_le hold h.nextId, (h.owner th).trans howner⟩

/-- Where threads and processes stay, crews do. -/
theorem of_eq (hn : s.nextId ≤ t.nextId) (ht : t.threads = s.threads) (hp : t.processes = s.processes) : SameCrews s t where
  nextId := hn
  owner th := by rw [Machine.thread, ht, Machine.thread]
  threads id th hth := by rwa [Machine.process, hp] at hth

/-- Where gates stay and processes list no more threads, crews do. -/
theorem of_gates (hg : SameGates s t) (hf : Frame Machine.SameThreads s t) : SameCrews s t :=
  ⟨hf.nextId, hg.owner, fun id _ hth => hf.process id ▸ hth⟩

/-- A change of the memory of a process leaves crews. -/
theorem of_still (h : Still (Spaced id) s t) : SameCrews s t where
  nextId := h.frame.nextId
  owner th := by rw [Machine.thread, h.threads, Machine.thread]
  threads other _ hth := (h.frame.process other).2.2.2 ▸ hth

end SameCrews

/-! ## What persists -/

/-- No counter has gone back, no process set has a new member, every process has the pid and the creation order that it was created
with, and threads are listed by the processes that they belong to if they were before. -/
structure Persists (s t : Machine) : Prop where
  nextId : s.nextId ≤ t.nextId
  nextCreationOrder : ∀ k, (s.kernel k).nextCreationOrder ≤ (t.kernel k).nextCreationOrder
  member : ∀ k (pid : Nat) id, (t.kernel k).processes[pid]? = some id → (s.kernel k).processes[pid]? = some id
  pid : ∀ id < s.nextId, (t.process id).pid = (s.process id).pid
  creationOrder : ∀ id < s.nextId, (t.process id).creationOrder = (s.process id).creationOrder
  crewed : s.Crewed → t.Crewed

instance : IsPreorder Machine Persists where
  refl _ := ⟨Nat.le_refl _, fun _ => Nat.le_refl _, fun _ _ _ h => h, fun _ _ => rfl, fun _ _ => rfl, fun h => h⟩
  trans _ _ _ h h' := by
    constructor
    case nextId => exact Nat.le_trans h.nextId h'.nextId
    case nextCreationOrder => exact fun k => Nat.le_trans (h.nextCreationOrder k) (h'.nextCreationOrder k)
    case member => exact fun k pid id hm => h.member k pid id (h'.member k pid id hm)
    case pid => exact fun id hid => (h'.pid id (Nat.lt_of_lt_of_le hid h.nextId)).trans (h.pid id hid)
    case creationOrder =>
      exact fun id hid => (h'.creationOrder id (Nat.lt_of_lt_of_le hid h.nextId)).trans (h.creationOrder id hid)
    case crewed => exact fun hs => h'.crewed (h.crewed hs)

/-- What lasts persists, if threads stay listed by their processes. -/
theorem Persists.of_lasts {s t : Machine} (h : Lasts s t) (hc : s.Crewed → t.Crewed) : Persists s t where
  nextId := h.nextId
  nextCreationOrder k := (h.kernel k).nextCreationOrder
  member k := (h.kernel k).member
  pid id hid := (h.process id hid).pid
  creationOrder id hid := (h.process id hid).creationOrder
  crewed := hc

namespace Machine

variable {α : Type} {kernel id : RecordId} {s t u : Machine}

/-- A program leaves crews if it keeps gates and lists no more threads. -/
theorem crews_of {p : Update α} (hg : Keeps SameGates p) (hf : Keeps (Frame SameThreads) p) : Keeps SameCrews p :=
  fun s => .of_gates (hg s) (hf s)

/-- A program persists if it lasts and leaves crews. -/
theorem persists_of {p : Update α} (hl : Keeps Lasts p) (hc : Keeps SameCrews p) : Keeps Persists p :=
  fun s => .of_lasts (hl s) (hc s).crewed

theorem log_persists (level : Level) (text : String) : Keeps Persists (log level text) :=
  persists_of (log_lasts _ _) fun _ => .of_eq (Nat.le_refl _) rfl rfl

theorem audit_persists (kernel : RecordId) (event : KernelEvent) : Keeps Persists (audit kernel event) :=
  persists_of (audit_lasts _ _) fun _ => .of_eq (Nat.le_refl _) rfl rfl

/-- A kernel changes, and nothing else. -/
theorem persists_setKernel (id : RecordId) {k : Kernel} (horder : (s.kernel id).nextCreationOrder ≤ k.nextCreationOrder)
    (hmember : ∀ (pid : Nat) other, k.processes[pid]? = some other → (s.kernel id).processes[pid]? = some other) :
    Persists s (setKernel id k s).2 := by
  have hkernel (other : RecordId) : (setKernel id k s).2.kernel other = if other = id then k else s.kernel other :=
    kernel_insert s id other k
  constructor
  case nextId => exact Nat.le_refl _
  case nextCreationOrder =>
    intro other
    rw [hkernel]
    split
    · next heq => exact heq ▸ horder
    · exact Nat.le_refl _
  case member =>
    intro other pid member hm
    rw [hkernel] at hm
    split at hm
    · next heq => exact heq ▸ hmember pid member hm
    · exact hm
  case pid | creationOrder => exact fun _ _ => rfl
  case crewed => exact (SameCrews.of_eq (Nat.le_refl s.nextId) rfl rfl).crewed

theorem setPaused_persists (id : RecordId) (paused : Bool) : Keeps Persists (setPaused id paused) := by
  intro s
  have hprocess (other : RecordId) : (setPaused id paused s).2.process other =
      if other = id then { s.process id with paused } else s.process other := process_insert _ _ _ _
  constructor
  case nextId => exact Nat.le_refl _
  case nextCreationOrder => exact fun _ => Nat.le_refl _
  case member => exact fun _ _ _ h => h
  case pid | creationOrder =>
    intro other _
    rw [hprocess]
    split
    · next heq => rw [heq]
    · rfl
  case crewed => exact (crews_of (setPaused_gates id paused) (setPaused_frame id paused) s).crewed

/-! ### Ends -/

/-- Moving a process persists, as long as its termination is not finished. -/
theorem moveProcess_persists (id : RecordId) {event : ProcessEvent} (he : event ≠ .finishTermination) :
    Keeps Persists (moveProcess id event) :=
  persists_of (moveProcess_lasts _ _) (crews_of (moveProcess_gates _ _) (moveProcess_frame _ he))

theorem moveThread_persists (id : RecordId) (event : ThreadEvent) : Keeps Persists (moveThread id event) :=
  persists_of (moveThread_lasts _ _) (crews_of (moveThread_gates _ _) (moveThread_frame _ _))

theorem startThread_persists (id : RecordId) : Keeps Persists (startThread id) :=
  persists_of (startThread_lasts _)
    (crews_of ((moveThread_gates _ _).bind fun _ => setActivity_gates _ _) (startThread_frame _))

/-- A thread that exits persists. -/
theorem exitThread_persists (id : RecordId) (ending : ThreadEnd) : Keeps Persists (exitThread id ending) :=
  persists_of (exitThread_lasts _ _) (crews_of (exitThread_gates _ _) (exitThread_frame _ _))

/-- Terminating a process persists. -/
theorem terminateProcess_persists (id : RecordId) (caller : Option RecordId) : Keeps Persists (terminateProcess id caller) :=
  persists_of (terminateProcess_lasts _ _) (crews_of (terminateProcess_gates _ _) (terminateProcess_frame _ _))

/-- Reaping terminated processes persists. -/
theorem reapTerminated_persists (kernel : RecordId) : Keeps Persists (reapTerminated kernel) :=
  persists_of (reapTerminated_lasts _) fun _ => .of_eq (Nat.le_refl _) rfl rfl

/-! ### Making processes and threads -/

theorem takeThreadId_persists (kernel : RecordId) : Keeps Persists (takeThreadId kernel) :=
  persists_of (takeThreadId_lasts _) fun _ => .of_eq (Nat.le_refl _) rfl rfl

/-- Mapping code persists. -/
theorem mapCode_persists (id : RecordId) (address pages : Nat) : Keeps Persists (mapCode id address pages).run :=
  persists_of (mapCode_lasts _ _ _) fun s => .of_still (mapCode_still id address pages s)

/-- A process lists a new thread, which belongs to it. -/
theorem attachThread_crewed (hs : s.Crewed) (id threadId priority : Nat) (type : ThreadType) (body : ThreadBody)
    (messageAddress : Nat) : (attachThread id threadId priority type body messageAddress s).2.Crewed := by
  let made : Thread := { threadId, process := id, priority, type, messageAddress, body }
  let p : Process := { s.process id with threads := (s.process id).threads ++ [s.nextId] }
  let t : Machine := { s with
    nextId := s.nextId + 1, threads := s.threads.insert s.nextId made, processes := s.processes.insert id p }
  have hrun : (attachThread id threadId priority type body messageAddress s).2 = t := rfl
  have hprocess (other : RecordId) : t.process other = if other = id then p else s.process other := process_insert _ _ _ _
  have hthread (th : RecordId) : t.thread th = if th = s.nextId then made else s.thread th := Records.getD_insert _ _ _ _ _
  have hold (other th : RecordId) (hth : th ∈ (s.process other).threads) : th < t.nextId ∧ (t.thread th).process = other := by
    obtain ⟨hlt, howner⟩ := hs other th hth
    rw [hthread, if_neg (Nat.ne_of_lt hlt)]
    exact ⟨Nat.lt_succ_of_lt hlt, howner⟩
  rw [hrun]
  intro other th hth
  rw [hprocess] at hth
  split at hth
  · next heq =>
    subst heq
    rcases List.mem_append.1 hth with hth | hth
    · exact hold other th hth
    · obtain rfl := List.mem_singleton.1 hth
      rw [hthread, if_pos rfl]
      exact ⟨Nat.lt_succ_self _, rfl⟩
  · exact hold other th hth

/-- Creating a thread persists. -/
theorem createThread_persists (id threadId priority : Nat) (type : ThreadType) (body : ThreadBody) :
    Keeps Persists (createThread id threadId priority type body).run := by
  refine fun s => .of_lasts (createThread_lasts id threadId priority type body s) fun hs => ?_
  rcases createThread_run id threadId priority type body s with ⟨e, hrun⟩ | ⟨-, hrun⟩
  · rw [hrun]
    exact hs
  · have hlocal := (SameCrews.of_still (allocateThreadLocal_still id s)).crewed hs
    rw [hrun]
    rcases hcase : (allocateThreadLocal id).run s with ⟨e | address, t⟩ <;> rw [hcase] at hlocal
    · exact hlocal
    · exact attachThread_crewed hlocal id threadId priority type body address

/-- Creating a process persists: it joins the set later. -/
theorem createProcess_persists (kernel : RecordId) (name : String) (programId : Nat) (flags : ProcessFlags)
    (capabilities : Capabilities) : Keeps Persists (createProcess kernel name programId flags capabilities) := by
  refine persists_of (createProcess_lasts _ _ _ _ _) fun s => ?_
  have hfounds := createProcess_founds kernel name programId flags capabilities s
  have hcreates := (createProcess_creates kernel name programId flags capabilities s).2
  refine ⟨hfounds.nextId, fun th => by rw [hfounds.thread], fun id th hth => ?_⟩
  by_cases hid : id = s.nextId
  · subst hid
    rw [hfounds.threads] at hth
    cases hth
  · rwa [hcreates.process id hid] at hth

/-- The process has the next creation order, and the kernel goes on to the one after it. -/
theorem createProcess_order (kernel : RecordId) (name : String) (programId : Nat) (flags : ProcessFlags)
    (capabilities : Capabilities) (s : Machine) :
    ((createProcess kernel name programId flags capabilities s).2.process s.nextId).creationOrder =
        (s.kernel kernel).nextCreationOrder ∧
      ((createProcess kernel name programId flags capabilities s).2.kernel kernel).nextCreationOrder =
        (s.kernel kernel).nextCreationOrder + 1 := by
  have htake : ((s.kernel kernel).takePid flags.isApplication).2.nextCreationOrder = (s.kernel kernel).nextCreationOrder := by
    unfold Kernel.takePid
    split <;> rfl
  refine ⟨Eq.trans ?_ htake, Eq.trans ?_ (congrArg (· + 1) htake)⟩
  · exact congrArg Process.creationOrder ((process_insert s s.nextId s.nextId _).trans (if_pos rfl))
  · exact congrArg Kernel.nextCreationOrder ((kernel_insert s kernel kernel _).trans (if_pos rfl))

/-- Equipping a process with code and a thread persists. -/
theorem StartCall.equip_persists (x : StartCall) (kernel id : RecordId) : Keeps Persists (x.equip kernel id).run :=
  .run_bind (mapCode_persists _ _ _) fun _ => .run_bind (.run_lift (takeThreadId_persists _)) fun _ =>
    createThread_persists _ _ _ _ _

/-- Dropping a process leaves crews. -/
theorem discardProcess_crews (id : RecordId) : Keeps SameCrews (discardProcess id) := by
  intro s
  have hf := discardProcess_frame id s
  obtain ⟨kernels, allocations, hrest⟩ :=
    freed_rest ((s.process id).space.mappings.flatMap Mapping.backing) { s with processes := s.processes.erase id }
  rw [← discardProcess_run] at hrest
  refine ⟨hf.nextId, fun th => by rw [hrest]; rfl, fun other th hth => ?_⟩
  by_cases hother : other = id
  · rw [hrest] at hth
    change th ∈ ((s.processes.erase id).getD other default).threads at hth
    rw [Records.getD_erase, if_pos hother] at hth
    cases hth
  · rwa [hf.process other hother] at hth

/-- A new process that cannot be equipped is dropped, and leaves nothing behind. -/
theorem StartCall.makeThread_persists (x : StartCall) (kernel : RecordId) {id : RecordId} (h : Persists s t) (hl : Lasts s t)
    (hid : s.nextId ≤ id) :
    (∀ thread u, (x.makeThread kernel id).run t = (.ok thread, u) → Persists t u) ∧
      ∀ e u, (x.makeThread kernel id).run t = (.error e, u) → Persists s u := by
  have hlasts := x.makeThread_lasts kernel hl hid
  have hequip := x.equip_persists kernel id t
  rw [makeThread, Action.run_tryCatch] at hlasts ⊢
  rcases hrun : (x.equip kernel id).run t with ⟨e | thread, v⟩ <;> rw [hrun] at hequip hlasts
  · refine ⟨fun _ _ hu => (by cases hu), fun e' u hu => ?_⟩
    obtain rfl : (discardProcess id v).2 = u := (Prod.mk.inj hu).2
    exact .of_lasts (hlasts.2 e' _ hu) fun hs => (discardProcess_crews id v).crewed (hequip.crewed (h.crewed hs))
  · refine ⟨fun _ _ hu => ?_, fun _ _ hu => by cases hu⟩
    exact (Prod.mk.inj hu).2 ▸ hequip

/-! ### Pausing and shutting down -/

/-- The applications of a kernel are paused or go on, and that is told. -/
theorem setAllPaused_persists (kernel : RecordId) (paused : Bool) (text : String) (event : KernelEvent) : Keeps Persists (do
    for id in (← get).applicationsOf kernel do setPaused id paused
    log .info text
    let _ ← audit kernel event) :=
  Keeps.get.bind fun _ => .bind (.forIn fun _ _ => (setPaused_persists _ _).bind fun _ => .pure _) fun _ =>
    (log_persists _ _).bind fun _ => (audit_persists _ _).bind fun _ => .pure _

/-- Pausing a kernel persists. -/
theorem pause_persists (kernel : RecordId) : Keeps Persists (pause kernel) := by
  intro s
  have hflag : Persists s _ := persists_setKernel kernel (k := { s.kernel kernel with
    paused := true, clock := (s.kernel kernel).clock.suspend (s.kernel kernel).host.now }) (Nat.le_refl _) fun _ _ h => h
  rw [pause, Update.run_look]
  split
  · exact IsTrans.trans _ _ _ hflag (setAllPaused_persists kernel true "Emulation paused" .paused _)
  · exact refl s

/-- Resuming a kernel persists. -/
theorem resume_persists (kernel : RecordId) : Keeps Persists (resume kernel) := by
  intro s
  have hflag : Persists s _ := persists_setKernel kernel (k := { s.kernel kernel with
    paused := false, clock := (s.kernel kernel).clock.resume (s.kernel kernel).host.now }) (Nat.le_refl _) fun _ _ h => h
  rw [resume, Update.run_look]
  split
  · exact IsTrans.trans _ _ _ hflag (setAllPaused_persists kernel false "Emulation resumed" .resumed _)
  · exact refl s

/-- Terminating all processes persists if the hook does. -/
theorem terminateProcesses_persists (kernel : RecordId) {hook : Update α} (hhook : Keeps Persists hook) :
    Keeps Persists (terminateProcesses kernel hook) := by
  have hall (ids : List RecordId) : Keeps Persists (do for id in ids do terminateProcess id none) :=
    .forIn fun _ _ => (terminateProcess_persists _ _).bind fun _ => .pure _
  refine Keeps.get.bind fun _ => (hall _).bind fun _ => hhook.bind fun _ => (hall _).bind fun _ => Keeps.look fun _ => ?_
  refine persists_setKernel kernel (Nat.le_refl _) fun pid id hm => ?_
  cases (Std.TreeMap.getElem?_emptyc (a := pid)).symm.trans hm

/-- A whole shutdown persists if the hook does. -/
theorem terminateAll_persists (kernel : RecordId) {hook : Update α} (hhook : Keeps Persists hook) :
    Keeps Persists (terminateAll kernel hook).run := by
  have hrest (host : RecordId) : Keeps Persists (do
      let _ ← moveProcess host .start
      let thread ← createThread host (← takeThreadId kernel) 0 .kernel .guest
      startThread thread
      moveThread thread .run
      let seen ← (terminateProcesses kernel hook : Update α)
      exitThread thread .returned
      terminateProcess host none
      log .info "All processes terminated"
      return seen : Action α).run := by
    refine .run_bind (.run_lift (moveProcess_persists _ nofun)) fun _ => .run_bind (.run_lift (takeThreadId_persists _)) fun _ => ?_
    refine .run_bind (createThread_persists _ _ _ _ _) fun _ => .run_bind (.run_lift (startThread_persists _)) fun _ => ?_
    refine .run_bind (.run_lift (moveThread_persists _ _)) fun _ => ?_
    refine .run_bind (.run_lift (terminateProcesses_persists kernel hhook)) fun _ => ?_
    refine .run_bind (.run_lift (exitThread_persists _ _)) fun _ => .run_bind (.run_lift (terminateProcess_persists _ _)) fun _ => ?_
    exact .run_bind (.run_lift (log_persists _ _)) fun _ => .run_pure _
  intro s
  have hclosing : Persists (resume kernel s).2 _ := persists_setKernel kernel
    (k := { (resume kernel s).2.kernel kernel with shuttingDown := true }) (Nat.le_refl _) fun _ _ h => h
  unfold terminateAll
  rw [Action.run_lift_bind, Action.run_look, Action.run_lift_bind, Action.run_lift_bind]
  exact IsTrans.trans _ _ _ (resume_persists kernel s) (IsTrans.trans _ _ _ hclosing
    (IsTrans.trans _ _ _ (createProcess_persists kernel "KernelTermination" 0 .service {} _) (hrest _ _)))

/-! ## Ranks -/

/-- The members of the process set stand under their pids, every one of them has a creation order of its own, which the kernel does
not give again, and threads are listed by the processes that they belong to. -/
structure Ranked (kernel : RecordId) (s : Machine) : Prop where
  member : ∀ (pid : Nat) id, (s.kernel kernel).processes[pid]? = some id →
    id < s.nextId ∧ (s.process id).pid = pid ∧ (s.process id).creationOrder < (s.kernel kernel).nextCreationOrder
  distinct : ∀ (pid pid' : Nat) id id', (s.kernel kernel).processes[pid]? = some id →
    (s.kernel kernel).processes[pid']? = some id' → (s.process id).creationOrder = (s.process id').creationOrder → id = id'
  crewed : s.Crewed

namespace Ranked

/-- A ranked process set stays ranked in a machine that persists. -/
theorem persists (h : Ranked kernel s) (hp : Persists s t) : Ranked kernel t where
  member pid id hm := by
    obtain ⟨hold, hpid, horder⟩ := h.member pid id (hp.member kernel pid id hm)
    rw [hp.pid id hold, hp.creationOrder id hold]
    exact ⟨Nat.lt_of_lt_of_le hold hp.nextId, hpid, Nat.lt_of_lt_of_le horder (hp.nextCreationOrder kernel)⟩
  distinct pid pid' id id' hm hm' heq := by
    have hm := hp.member kernel pid id hm
    have hm' := hp.member kernel pid' id' hm'
    rw [hp.creationOrder id (h.member pid id hm).1, hp.creationOrder id' (h.member pid' id' hm').1] at heq
    exact h.distinct pid pid' id id' hm hm' heq
  crewed := hp.crewed h.crewed

/-- A process whose creation order no member has becomes a member. -/
theorem enlist (h : Ranked kernel s) (hid : id < s.nextId)
    (horder : (s.process id).creationOrder < (s.kernel kernel).nextCreationOrder)
    (hnew : ∀ (pid : Nat) other, (s.kernel kernel).processes[pid]? = some other →
      (s.process other).creationOrder ≠ (s.process id).creationOrder) :
    Ranked kernel (setKernel kernel { s.kernel kernel with
      processes := (s.kernel kernel).processes.insert (s.process id).pid id } s).2 := by
  let k : Kernel := { s.kernel kernel with processes := (s.kernel kernel).processes.insert (s.process id).pid id }
  have hkernel : (setKernel kernel k s).2.kernel kernel = k := (kernel_insert s kernel kernel k).trans (if_pos rfl)
  have hmember (pid : Nat) (other : RecordId) (hm : k.processes[pid]? = some other) :
      pid = (s.process id).pid ∧ other = id ∨ (s.kernel kernel).processes[pid]? = some other := by
    have hm := (Records.getElem?_insert _ _ _ _).symm.trans hm
    split at hm
    · next heq => exact .inl ⟨heq, (Option.some.inj hm).symm⟩
    · exact .inr hm
  constructor
  case member =>
    intro pid other hm
    rw [hkernel] at hm ⊢
    rcases hmember pid other hm with ⟨rfl, rfl⟩ | hm
    · exact ⟨hid, rfl, horder⟩
    · exact h.member pid other hm
  case distinct =>
    intro pid pid' one other hm hm' heq
    rw [hkernel] at hm hm'
    rcases hmember pid one hm with ⟨-, rfl⟩ | hone
    · rcases hmember pid' other hm' with ⟨-, rfl⟩ | hother
      · rfl
      · exact absurd heq.symm (hnew pid' other hother)
    · rcases hmember pid' other hm' with ⟨-, rfl⟩ | hother
      · exact absurd heq (hnew pid one hone)
      · exact h.distinct pid pid' one other hone hother heq
  case crewed => exact h.crewed

/-- A process that is made after all members joins the set. -/
theorem join (h : Ranked kernel s) (x : StartCall) {thread : RecordId} (hid : id < s.nextId)
    (horder : (s.process id).creationOrder < (s.kernel kernel).nextCreationOrder)
    (hnew : ∀ (pid : Nat) other, (s.kernel kernel).processes[pid]? = some other →
      (s.process other).creationOrder ≠ (s.process id).creationOrder) : Ranked kernel (x.join kernel id thread s).2 := by
  have hannounce (text : String) (event : KernelEvent) : Keeps Persists (do
      log .info text
      let _ ← audit kernel event
      startThread thread) :=
    (log_persists _ _).bind fun _ => (audit_persists _ _).bind fun _ => startThread_persists _
  rw [StartCall.join, Update.run_look, Update.run_look]
  dsimp only
  split
  · have hpaused := setPaused_persists id true s
    have hprocess (other : RecordId) : (setPaused id true s).2.process other =
        if other = id then { s.process id with paused := true } else s.process other := process_insert _ _ _ _
    have hsame (other : RecordId) : ((setPaused id true s).2.process other).creationOrder = (s.process other).creationOrder := by
      rw [hprocess]
      split
      · next heq => rw [heq]
      · rfl
    have hpid : ((setPaused id true s).2.process id).pid = (s.process id).pid := by rw [hprocess, if_pos rfl]
    have hlisted := (h.persists hpaused).enlist hid (by rw [hsame]; exact horder) fun pid other hm => by
      rw [hsame, hsame]
      exact hnew pid other hm
    rw [hpid] at hlisted
    exact hlisted.persists (hannounce _ _ _)
  · exact (h.enlist hid horder hnew).persists (hannounce _ _ _)

/-- A process that is started has a higher creation order than all members. -/
theorem start (h : Ranked kernel s) (x : StartCall) : Ranked kernel ((x.start kernel).run s).2 := by
  cases ha : x.admitted? (s.kernel kernel) with
  | none =>
    obtain ⟨e, journal, hrun⟩ := StartCall.start_of_refused ha
    rw [hrun]
    exact h.persists (.of_lasts (.of_eq (Nat.le_refl _) rfl rfl) fun hs => hs)
  | some capabilities =>
    obtain ⟨hid, hc⟩ : (x.create kernel capabilities s).1 = s.nextId ∧
        Creates kernel x.isApplication s (x.create kernel capabilities s).2 := createProcess_creates _ _ _ _ _ s
    have hcreate : Persists s (x.create kernel capabilities s).2 := createProcess_persists _ _ _ _ _ s
    have hlasts : Lasts s (x.create kernel capabilities s).2 := createProcess_lasts _ _ _ _ _ s
    obtain ⟨horder, hnext⟩ : ((x.create kernel capabilities s).2.process s.nextId).creationOrder =
          (s.kernel kernel).nextCreationOrder ∧
        ((x.create kernel capabilities s).2.kernel kernel).nextCreationOrder = (s.kernel kernel).nextCreationOrder + 1 :=
      createProcess_order _ _ _ _ _ s
    obtain ⟨hok, hfail⟩ := x.makeThread_persists kernel hcreate hlasts (Nat.le_refl s.nextId)
    rw [StartCall.start_of_admitted ha, hid]
    generalize (x.create kernel capabilities s).2 = c at hc hcreate horder hnext hok hfail ⊢
    rcases hrun : (x.makeThread kernel s.nextId).run c with ⟨e | thread, t⟩
    · exact h.persists (hfail e t hrun)
    · have hnew : s.nextId < c.nextId := hc.nextId ▸ Nat.lt_succ_self _
      have hmoved : Keeps Persists (moveProcess s.nextId .start) := moveProcess_persists s.nextId nofun
      have hready := IsTrans.trans _ _ _ (hok thread t hrun) (IsTrans.trans _ _ _ (hmoved t) (reapTerminated_persists kernel _))
      have hmade := hready.creationOrder s.nextId hnew
      have hall := IsTrans.trans _ _ _ hcreate hready
      refine (h.persists hall).join x (Nat.lt_of_lt_of_le hnew hready.nextId) ?_ fun pid other hm => ?_
      · rw [hmade, horder]
        exact Nat.lt_of_lt_of_le (hnext ▸ Nat.lt_succ_self _) (hready.nextCreationOrder kernel)
      · obtain ⟨hold, -, hless⟩ := h.member pid other (hall.member kernel pid other hm)
        rw [hall.creationOrder other hold, hmade, horder]
        exact Nat.ne_of_lt hless

end Ranked

/-! ## Histories -/

/-- Something that makes no process a member of a process set. -/
structure Persistent where
  run : Machine → Machine
  persists : ∀ s, Persists s (run s)

/-- Servers that are stopped make no process, though their host processes are terminated. -/
theorem stopServer_persists (id : RecordId) : Keeps Persists (stopServer id) := by
  have hport (port : RecordId) : Keeps Persists (closePort port) :=
    persists_of (lasts_of_owners (closePort_keeps port) (closePort_frame port))
      (crews_of (gates_of_owners (closePort_keeps port)) (closePort_frame port))
  have hsessions : Keeps Persists (closeSessions id) :=
    persists_of (closeSessions_lasts id) (crews_of (closeSessions_gates id) (closeSessions_frame id))
  refine Keeps.get.bind fun s => ?_
  dsimp only
  split
  · refine Keeps.bind (fun t => .of_lasts (.of_eq (Nat.le_refl _) rfl rfl) (SameCrews.of_eq (Nat.le_refl _) rfl rfl).crewed) fun _ => ?_
    exact (hport _).bind fun _ => hsessions.bind fun _ => (terminateProcess_persists _ _).bind fun _ => log_persists _ _
  · exact .pure _

/-- The hook that the shutdown of a context runs stops servers. -/
def Persistent.stopping (servers : List RecordId) : Persistent where
  run s := ((do for server in servers do stopServer server : Update Unit) s).2
  persists := Keeps.forIn fun server _ => (stopServer_persists server).bind fun _ => .pure _

/-- What happens to the processes of a kernel. -/
inductive RosterStep
  /-- An application or a service host is started. -/
  | start (call : StartCall)
  | reap
  | terminate (id : RecordId) (caller : Option RecordId)
  /-- The body of a thread is over. -/
  | exit (thread : RecordId) (ending : ThreadEnd)
  | pause
  | resume
  | shutDown (hook : Persistent)
  | other (change : Persistent)

def RosterStep.after (kernel : RecordId) (s : Machine) : RosterStep → Machine
  | start call => ((call.start kernel).run s).2
  | reap => (reapTerminated kernel s).2
  | terminate id caller => (terminateProcess id caller s).2
  | exit thread ending => (exitThread thread ending s).2
  | pause => (Machine.pause kernel s).2
  | resume => (Machine.resume kernel s).2
  | shutDown hook => ((terminateAll kernel (modify hook.run)).run s).2
  | other change => change.run s

/-- The machine of a new kernel after steps in an order. -/
def afterRoster (x : Setup) (steps : List RosterStep) : Machine := steps.foldl (RosterStep.after x.kernel) x.machine

/-- Every step keeps the process set ranked. -/
theorem Ranked.step (h : Ranked kernel s) (step : RosterStep) : Ranked kernel (step.after kernel s) := by
  cases step with
  | start call => exact h.start call
  | reap => exact h.persists (reapTerminated_persists kernel s)
  | terminate id caller => exact h.persists (terminateProcess_persists id caller s)
  | exit thread ending => exact h.persists (exitThread_persists thread ending s)
  | pause => exact h.persists (pause_persists kernel s)
  | resume => exact h.persists (resume_persists kernel s)
  | shutDown hook => exact h.persists (terminateAll_persists kernel (.modify hook.persists) s)
  | other change => exact h.persists (change.persists s)

/-- The process set is ranked after all steps. -/
theorem ranked_after (x : Setup) (steps : List RosterStep) : Ranked x.kernel (afterRoster x steps) := by
  have hnew : Ranked x.kernel x.machine := by
    have hset (pid : Nat) : (x.machine.kernel x.kernel).processes[pid]? = none := by
      rw [x.kernel_machine]
      exact Std.TreeMap.getElem?_emptyc
    refine ⟨fun pid id hm => ?_, fun pid _ id _ hm _ _ => ?_, fun id th hth => ?_⟩
    · cases (hset pid).symm.trans hm
    · cases (hset pid).symm.trans hm
    · rw [x.newKernel_run.2] at hth
      cases hth
  unfold afterRoster
  generalize x.machine = s at hnew
  induction steps generalizing s with
  | nil => exact hnew
  | cons step rest ih => exact ih (step.after x.kernel s) (hnew.step step)

example (x : Setup) (call : StartCall) (servers : List RecordId) :
    Ranked x.kernel (afterRoster x [.start call, .shutDown (.stopping servers)]) := ranked_after x _

/-- The list of the members names nobody twice, and no two of the same creation order. -/
theorem Ranked.pairwise_processesOf (h : Ranked kernel s) :
    (s.processesOf kernel).Pairwise fun a b => (s.process a).creationOrder ≠ (s.process b).creationOrder := by
  rw [processesOf, Records.values_eq, List.pairwise_map]
  refine Std.TreeMap.distinct_keys_toList.imp_of_mem fun {a b} ha hb hne heq => hne ?_
  have ha := Std.TreeMap.mem_toList_iff_getElem?_eq_some.1 ha
  have hb := Std.TreeMap.mem_toList_iff_getElem?_eq_some.1 hb
  have hsame := h.distinct _ _ _ _ ha hb heq
  rw [compare_eq_iff, ← (h.member _ _ ha).2.1, ← (h.member _ _ hb).2.1, hsame]

end Machine

end Microkernel
