import Microkernel.Proofs.Shutdown.Standings
import Microkernel.Proofs.Machine.Upkeep

/-!
# Making a process with its first thread

A process is founded under a fresh number without threads, is furnished with memory, and gets its thread. Until then it is nobody
else's concern: no other process and no thread changes, and a process that cannot be made is dropped (`StartCall.make_spec`).
-/

namespace Microkernel

/-! ## Memory -/

/-- The process has its pid, its state and its threads, and every other one is as it was. -/
def Spaced (id other : RecordId) (p q : Process) : Prop :=
  (other ≠ id → q = p) ∧ q.pid = p.pid ∧ q.state = p.state ∧ q.threads = p.threads

instance (id other : RecordId) : IsPreorder Process (Spaced id other) where
  refl _ := ⟨fun _ => rfl, rfl, rfl, rfl⟩
  trans _ _ _ h h' :=
    ⟨fun ho => (h'.1 ho).trans (h.1 ho), h'.2.1.trans h.2.1, h'.2.2.1.trans h.2.2.1, h'.2.2.2.trans h.2.2.2⟩

namespace Machine

variable {α β : Type} {kernel id thread : RecordId} {s t u : Machine} {state : ProcessState}

/-- Setting the space of a process is no more than a change of its memory. -/
theorem setSpace_still (id : RecordId) (space : AddressSpace) : Keeps (Still (Spaced id)) (setSpace id space) :=
  .look fun _ => ⟨.setProcess ⟨fun h => absurd rfl h, rfl, rfl, rfl⟩, rfl⟩

theorem takeThreadId_still (kernel : RecordId) : Keeps (Still (Spaced id)) (takeThreadId kernel) :=
  fun s => ⟨takeThreadId_frame kernel s, rfl⟩

theorem freeAllocation_still (allocation : AllocationId) : Keeps (Still (Spaced id)) (freeAllocation allocation) := by
  refine fun s => ⟨freeAllocation_frame allocation s, ?_⟩
  obtain ⟨kernels, allocations, hfree⟩ := freeAllocation_rest allocation s
  rw [hfree]

/-- Taking pages for a process changes no process. -/
theorem allocateFor_still (process pages : Nat) : Keeps (Still (Spaced id)) (allocateFor process pages).run := by
  refine fun s => ⟨allocateFor_frame process pages s, ?_⟩
  rw [allocateFor, Action.run_look]
  dsimp only
  rw [allocatePages_run]
  split <;> rfl

/-- Taking pages for a process and mapping them changes nothing but its memory. -/
theorem claim_still (id : RecordId) (n : Nat) {program : AllocationId → PageList → Action β}
    (hprogram : ∀ allocation pages, Maps id allocation pages (program allocation pages)) : Keeps (Still (Spaced id)) (do
      let (allocation, pages) ← allocateFor id n
      givingBack allocation (program allocation pages) : Action β).run := by
  refine .run_bind (allocateFor_still id n) fun taken => .run_tryCatch (fun s => ?_) fun e => ?_
  · rcases hprogram taken.1 taken.2 s with ⟨e, hrun⟩ | ⟨b, m, space, hrun, -⟩
    · rw [hrun]
      exact refl s
    · rw [hrun]
      exact setSpace_still id space s
  · exact .run_bind (.run_lift (freeAllocation_still taken.1)) fun _ => .run_throw e

/-- Mapping code changes nothing of processes but the memory of its own. -/
theorem mapCode_still (id : RecordId) (address n : Nat) : Keeps (Still (Spaced id)) (mapCode id address n).run := by
  unfold mapCode
  split
  · exact claim_still id n fun allocation pages => mapOwned_maps id address allocation pages .readExecute .code
  · exact .run_pure _

/-- Allocating thread-local memory changes nothing of processes but the memory of its own. -/
theorem allocateThreadLocal_still (id : RecordId) : Keeps (Still (Spaced id)) (allocateThreadLocal id).run :=
  claim_still id 1 fun allocation pages => mapFound_maps id allocation pages .readWrite .threadLocal fun space =>
    space.findFree threadLocalBase threadLocalSize pageSize

/-! ## Founding -/

/-- No process that there was has changed and no thread, and the process set is what it was. -/
structure Leaves (kernel : RecordId) (s t : Machine) : Prop where
  nextId : s.nextId ≤ t.nextId
  process : ∀ other, other < s.nextId → t.process other = s.process other
  thread : ∀ other, t.thread other = s.thread other
  processes : (t.kernel kernel).processes = (s.kernel kernel).processes
  shuttingDown : (t.kernel kernel).shuttingDown = (s.kernel kernel).shuttingDown

/-- There is a new process, without threads. -/
structure Founds (kernel id : RecordId) (state : ProcessState) (s t : Machine) : Prop extends Leaves kernel s t where
  fresh : s.nextId ≤ id
  old : id < t.nextId
  state : (t.process id).state = state
  threads : (t.process id).threads = []

/-- Founding a process changes a counter only. -/
theorem createProcess_founds (kernel : RecordId) (name : String) (programId : Nat) (flags : ProcessFlags)
    (capabilities : Capabilities) (s : Machine) :
    Founds kernel s.nextId .created s (createProcess kernel name programId flags capabilities s).2 := by
  obtain ⟨-, hc⟩ := createProcess_creates kernel name programId flags capabilities s
  obtain ⟨hprocesses, hdown, -⟩ := takePid_frame (s.kernel kernel) flags.isApplication
  constructor
  case fresh => exact Nat.le_refl _
  case old => exact hc.nextId ▸ Nat.lt_succ_self _
  case state => exact hc.state
  case threads => exact congrArg Process.threads ((process_insert s s.nextId s.nextId _).trans (if_pos rfl))
  case toLeaves =>
    constructor
    case nextId => exact hc.nextId ▸ Nat.le_succ _
    case process => exact fun other ho => hc.process other (Nat.ne_of_lt ho)
    case thread => exact fun _ => rfl
    case processes => exact hc.kernel.processes.trans hprocesses
    case shuttingDown => exact hc.kernel.shuttingDown.trans hdown

/-- A founded process is furnished. -/
theorem Founds.furnish (h : Founds kernel id state s t) (hf : Still (Spaced id) t u) : Founds kernel id state s u where
  fresh := h.fresh
  old := Nat.lt_of_lt_of_le h.old hf.frame.nextId
  state := (hf.frame.process id).2.2.1.trans h.state
  threads := (hf.frame.process id).2.2.2.trans h.threads
  nextId := Nat.le_trans h.nextId hf.frame.nextId
  process other ho := ((hf.frame.process other).1 (Nat.ne_of_lt (Nat.lt_of_lt_of_le ho h.fresh))).trans (h.process other ho)
  thread other := Eq.trans (by rw [Machine.thread, Machine.thread, hf.threads]) (h.thread other)
  processes := (hf.frame.kernel kernel).processes.trans h.processes
  shuttingDown := (hf.frame.kernel kernel).shuttingDown.trans h.shuttingDown

/-- A founded process begins to run. -/
theorem Founds.start (h : Founds kernel id .created s t) : Founds kernel id .running s (moveProcess id .start t).2 := by
  have hrun : (moveProcess id .start t).2 = (setProcess id { t.process id with state := .running } t).2 := by
    rw [moveProcess, Update.run_look, h.state]
    rfl
  have hprocess (other : RecordId) : (setProcess id { t.process id with state := .running } t).2.process other =
      if other = id then { t.process id with state := .running } else t.process other := process_insert _ _ _ _
  rw [hrun]
  constructor
  case fresh => exact h.fresh
  case old => exact h.old
  case state => rw [hprocess, if_pos rfl]
  case threads => rw [hprocess, if_pos rfl, h.threads]
  case toLeaves =>
    constructor
    case nextId => exact h.nextId
    case process =>
      intro other ho
      rw [hprocess, if_neg (Nat.ne_of_lt (Nat.lt_of_lt_of_le ho h.fresh)), h.process other ho]
    case thread => exact h.thread
    case processes => exact h.processes
    case shuttingDown => exact h.shuttingDown

/-! ## Making -/

/-- A process and its first thread. -/
structure Pair where
  process : RecordId
  thread : RecordId
  deriving DecidableEq, Repr

/-- There is a new process with a new thread, which stand at `x`; no other process and no other thread has changed. -/
structure Makes (kernel id thread : RecordId) (x : Standing) (s t : Machine) : Prop where
  nextId : s.nextId ≤ t.nextId
  fresh : s.nextId ≤ id ∧ s.nextId ≤ thread
  old : id < t.nextId ∧ thread < t.nextId
  otherProcess : ∀ other, other < s.nextId → t.process other = s.process other
  otherThread : ∀ other, other ≠ thread → t.thread other = s.thread other
  processes : (t.kernel kernel).processes = (s.kernel kernel).processes
  shuttingDown : (t.kernel kernel).shuttingDown = (s.kernel kernel).shuttingDown
  solo : Solo t id thread
  standing : t.standing id thread = x

/-- What is done to the two that were made. -/
theorem Makes.brings {x : Standing} {f : Standing → Standing} {p : Update α} (h : Makes kernel id thread x s t)
    (hp : Brings id thread f p) : Makes kernel id thread (f x) s (p t).2 := by
  have hb := hp.becomes t h.solo
  constructor
  case nextId => exact Nat.le_trans h.nextId hb.nextId
  case fresh => exact h.fresh
  case old => exact ⟨Nat.lt_of_lt_of_le h.old.1 hb.nextId, Nat.lt_of_lt_of_le h.old.2 hb.nextId⟩
  case otherProcess =>
    exact fun other ho => (hb.otherProcess other (Nat.ne_of_lt (Nat.lt_of_lt_of_le ho h.fresh.1))).trans (h.otherProcess other ho)
  case otherThread => exact fun other ho => (hb.otherThread other ho).trans (h.otherThread other ho)
  case processes => exact (hb.kernel kernel).processes.trans h.processes
  case shuttingDown => exact (hb.kernel kernel).shuttingDown.trans h.shuttingDown
  case solo => exact hb.solo hp.plain h.solo
  case standing => exact hb.standing.trans (congrArg f h.standing)

/-- A founded process gets its thread. -/
theorem Founds.attach (h : Founds kernel id state s t) (threadId priority : Nat) (type : ThreadType) (messageAddress : Nat) :
    Makes kernel id t.nextId ⟨state, .created, .none⟩ s (attachThread id threadId priority type .guest messageAddress t).2 := by
  let made : Thread := { threadId, process := id, priority, type, messageAddress, body := .guest }
  let p : Process := { t.process id with threads := (t.process id).threads ++ [t.nextId] }
  have hrun : (attachThread id threadId priority type .guest messageAddress t).2 = { t with
      nextId := t.nextId + 1, threads := t.threads.insert t.nextId made, processes := t.processes.insert id p } := rfl
  rw [hrun]
  have hprocess (other : RecordId) : Machine.process { t with
      nextId := t.nextId + 1, threads := t.threads.insert t.nextId made, processes := t.processes.insert id p } other =
      if other = id then p else t.process other := process_insert _ _ _ _
  have hthread (other : RecordId) : Machine.thread { t with
      nextId := t.nextId + 1, threads := t.threads.insert t.nextId made, processes := t.processes.insert id p } other =
      if other = t.nextId then made else t.thread other := Records.getD_insert _ _ _ _ _
  constructor
  case nextId => exact Nat.le_succ_of_le h.nextId
  case fresh => exact ⟨h.fresh, h.nextId⟩
  case old => exact ⟨Nat.lt_succ_of_lt h.old, Nat.lt_succ_self _⟩
  case otherProcess =>
    intro other ho
    rw [hprocess, if_neg (Nat.ne_of_lt (Nat.lt_of_lt_of_le ho h.fresh)), h.process other ho]
  case otherThread => exact fun other ho => (hthread other).trans ((if_neg ho).trans (h.thread other))
  case processes => exact h.processes
  case shuttingDown => exact h.shuttingDown
  case solo =>
    constructor
    case threads =>
      rw [hprocess, if_pos rfl]
      exact congrArg (· ++ [t.nextId]) h.threads
    case owner => rw [hthread, if_pos rfl]
    case body => rw [hthread, if_pos rfl]
    case plain =>
      left
      rw [standing, hthread, if_pos rfl]
  case standing =>
    rw [standing, hprocess, hthread, if_pos rfl, if_pos rfl]
    exact congrArg (Standing.mk · .created .none) h.state

/-- A founded process gets its thread, or it stays without. -/
theorem Founds.createThread (h : Founds kernel id state s t) (threadId priority : Nat) (type : ThreadType) :
    (∀ thread u, (createThread id threadId priority type .guest).run t = (.ok thread, u) →
      Makes kernel id thread ⟨state, .created, .none⟩ s u) ∧
    ∀ e u, (createThread id threadId priority type .guest).run t = (.error e, u) → Founds kernel id state s u := by
  rcases createThread_run id threadId priority type .guest t with ⟨e, hrun⟩ | ⟨-, hrun⟩
  · rw [hrun]
    refine ⟨fun _ _ hu => (nomatch (Prod.mk.inj hu).1), fun _ _ hu => ?_⟩
    exact (Prod.mk.inj hu).2 ▸ h
  · have hlocal := h.furnish (allocateThreadLocal_still id t)
    rw [hrun]
    rcases hcase : (allocateThreadLocal id).run t with ⟨e | address, v⟩ <;> rw [hcase] at hlocal
    · refine ⟨fun _ _ hu => (nomatch (Prod.mk.inj hu).1), fun _ _ hu => ?_⟩
      exact (Prod.mk.inj hu).2 ▸ hlocal
    · refine ⟨fun thread u hu => ?_, fun _ _ hu => nomatch (Prod.mk.inj hu).1⟩
      obtain ⟨hthread, rfl⟩ := Prod.mk.inj hu
      obtain rfl := Except.ok.inj hthread
      exact hlocal.attach threadId priority type address

/-- A process that is dropped leaves nothing. -/
theorem Founds.discard (h : Founds kernel id state s t) : Leaves kernel s (discardProcess id t).2 := by
  have hf := discardProcess_frame id t
  obtain ⟨kernels, allocations, hrest⟩ :=
    freed_rest ((t.process id).space.mappings.flatMap Mapping.backing) { t with processes := t.processes.erase id }
  constructor
  case nextId => exact Nat.le_trans h.nextId hf.nextId
  case process =>
    exact fun other ho => (hf.process other (Nat.ne_of_lt (Nat.lt_of_lt_of_le ho h.fresh))).trans (h.process other ho)
  case thread =>
    intro other
    rw [discardProcess_run, hrest]
    exact h.thread other
  case processes => exact (hf.kernel kernel).processes.trans h.processes
  case shuttingDown => exact (hf.kernel kernel).shuttingDown.trans h.shuttingDown

/-- A process is created, gets its code and its thread, and begins to run. -/
def StartCall.make (x : StartCall) (kernel : RecordId) (capabilities : Capabilities) : Action Pair := do
  let id ← x.create kernel capabilities
  let thread ← x.makeThread kernel id
  let _ ← moveProcess id .start
  return { process := id, thread }

/-- Making a process for a start call makes a fresh pair, or leaves what there was. -/
theorem StartCall.make_spec {x : StartCall} (hbody : x.body = .guest) (kernel : RecordId) (capabilities : Capabilities)
    (s : Machine) :
    (∀ p t, (x.make kernel capabilities).run s = (.ok p, t) → Makes kernel p.process p.thread .fresh s t) ∧
    ∀ e t, (x.make kernel capabilities).run s = (.error e, t) → Leaves kernel s t := by
  have hfound : Founds kernel s.nextId .created s (x.create kernel capabilities s).2 := createProcess_founds _ _ _ _ _ s
  have hcode := hfound.furnish
    (mapCode_still s.nextId x.creation.codeAddress.toNat x.creation.codePages.toNat (x.create kernel capabilities s).2)
  have hid : (x.create kernel capabilities s).1 = s.nextId := (createProcess_creates _ _ _ _ _ s).1
  rw [make, Action.run_lift_bind, hid, Action.run_bind, makeThread, Action.run_tryCatch, equip, Action.run_bind, hbody]
  generalize (x.create kernel capabilities s).2 = c at hcode ⊢
  rcases hmap : (mapCode s.nextId x.creation.codeAddress.toNat x.creation.codePages.toNat).run c with ⟨e | u, t⟩ <;>
    rw [hmap] at hcode
  · refine ⟨fun _ _ hu => (by cases hu), fun _ _ hu => ?_⟩
    exact (Prod.mk.inj hu).2 ▸ hcode.discard
  · dsimp only
    rw [Action.run_lift_bind]
    obtain ⟨hok, hfail⟩ := (hcode.furnish (takeThreadId_still kernel t)).createThread (takeThreadId kernel t).1 x.priority .guest
    rcases hthread : (Machine.createThread s.nextId (takeThreadId kernel t).1 x.priority .guest .guest).run (takeThreadId kernel t).2
      with ⟨e | thread, v⟩
    · refine ⟨fun _ _ hu => (by cases hu), fun _ _ hu => ?_⟩
      exact (Prod.mk.inj hu).2 ▸ (hfail e v hthread).discard
    · refine ⟨fun p t' hu => ?_, fun _ _ hu => by cases hu⟩
      obtain ⟨hpair, rfl⟩ := Prod.mk.inj hu
      obtain rfl := Except.ok.inj hpair
      exact (hok _ v hthread).brings (moveProcess_brings _ _ .start)

/-- Makes the process whose thread shuts a kernel down; its thread runs at once. -/
def makeHost (kernel : RecordId) : Action Pair := do
  let host ← createProcess kernel "KernelTermination" 0 .service {}
  let _ ← moveProcess host .start
  let thread ← createThread host (← takeThreadId kernel) 0 .kernel .guest
  startThread thread
  moveThread thread .run
  return { process := host, thread }

/-- Making the process for a shutdown makes a pair whose thread runs, or leaves what there was. -/
theorem makeHost_spec (kernel : RecordId) (s : Machine) :
    (∀ p t, (makeHost kernel).run s = (.ok p, t) →
      Makes kernel p.process p.thread (Standing.fresh.started.turned .run) s t) ∧
    ∀ e t, (makeHost kernel).run s = (.error e, t) → Leaves kernel s t := by
  have hfound := createProcess_founds kernel "KernelTermination" 0 .service {} s
  have hid : (createProcess kernel "KernelTermination" 0 .service {} s).1 = s.nextId := (createProcess_creates _ _ _ _ _ s).1
  rw [makeHost, Action.run_lift_bind, hid, Action.run_lift_bind, Action.run_lift_bind, Action.run_bind]
  generalize (createProcess kernel "KernelTermination" 0 .service {} s).2 = c at hfound ⊢
  have htaken := hfound.start.furnish (takeThreadId_still kernel _)
  generalize takeThreadId kernel (moveProcess s.nextId .start c).2 = taken at htaken ⊢
  obtain ⟨hok, hfail⟩ := htaken.createThread taken.1 0 .kernel
  rcases hthread : (Machine.createThread s.nextId taken.1 0 .kernel .guest).run taken.2 with ⟨e | thread, v⟩
  · refine ⟨fun _ _ hu => (by cases hu), fun _ _ hu => ?_⟩
    exact (Prod.mk.inj hu).2 ▸ (hfail e v hthread).toLeaves
  · refine ⟨fun p t' hu => ?_, fun _ _ hu => by cases hu⟩
    obtain ⟨hpair, rfl⟩ := Prod.mk.inj hu
    obtain rfl := Except.ok.inj hpair
    exact ((hok _ v hthread).brings (startThread_brings _ _)).brings (moveThread_brings _ _ .run)

end Machine

end Microkernel
