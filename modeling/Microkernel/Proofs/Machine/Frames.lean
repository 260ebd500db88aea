import Microkernel.Machine.Processes
import Microkernel.Proofs.Machine.Keeps
import Microkernel.Proofs.Machine.Tables

/-!
# What becomes of processes

`Frame R` relates two machines with the same process sets and counters whose processes are related one by one by `R`. What touches no
process keeps every frame. A termination keeps a frame whose relation allows a process to be paused, waited for and ended (`Tame`);
short of the end it is enough that the relation is `Mild`.
-/

namespace Microkernel

/-- The kernels have the same processes and would give the same pids. -/
structure Kernel.SameSet (k k' : Kernel) : Prop where
  processes : k'.processes = k.processes
  nextServicePid : k'.nextServicePid = k.nextServicePid
  nextApplicationPid : k'.nextApplicationPid = k.nextApplicationPid
  shuttingDown : k'.shuttingDown = k.shuttingDown
  config : k'.config = k.config

instance : IsPreorder Kernel Kernel.SameSet where
  refl _ := by constructor <;> rfl
  trans _ _ _ h h' := ⟨h'.1.trans h.1, h'.2.trans h.2, h'.3.trans h.3, h'.4.trans h.4, h'.5.trans h.5⟩

/-- No number was given back, no process set and no counter has changed, and every process has become what `R` allows. -/
structure Frame (R : RecordId → Process → Process → Prop) (s t : Machine) : Prop where
  nextId : s.nextId ≤ t.nextId
  kernel : ∀ k, (s.kernel k).SameSet (t.kernel k)
  process : ∀ id, R id (s.process id) (t.process id)

variable {α β : Type} {R : RecordId → Process → Process → Prop} [∀ id, IsPreorder Process (R id)]

instance : IsPreorder Machine (Frame R) where
  refl _ := ⟨Nat.le_refl _, fun _ => refl _, fun _ => refl _⟩
  trans _ _ _ h h' := ⟨Nat.le_trans h.nextId h'.nextId, fun k => IsTrans.trans _ _ _ (h.kernel k) (h'.kernel k),
    fun id => IsTrans.trans _ _ _ (h.process id) (h'.process id)⟩

/-- A frame in which no thread has changed. -/
structure Still (R : RecordId → Process → Process → Prop) (s t : Machine) : Prop where
  frame : Frame R s t
  threads : t.threads = s.threads

instance : IsPreorder Machine (Still R) where
  refl _ := ⟨refl _, rfl⟩
  trans _ _ _ h h' := ⟨IsTrans.trans _ _ _ h.frame h'.frame, h'.threads.trans h.threads⟩

variable (R) in
/-- The relation allows what pausing processes and waiting for them makes of them. -/
class Passive : Prop where
  waited : ∀ id p waiters, R id p { p with waiters }
  paused : ∀ id p paused, R id p { p with paused }

variable (R) in
/-- The relation allows what pausing, waiting for and starting processes makes of them, and the beginning of their end. -/
class Mild : Prop extends Passive R where
  /-- A process may begin to run and begin to terminate. -/
  moved : ∀ id p event state, event ≠ .finishTermination → p.state.next? event = some state → R id p { p with state }

variable (R) in
/-- The relation allows the end of a termination. -/
class Ending : Prop where
  ended : ∀ id p, p.state = .terminating → R id p { p with handles := p.handles.drain.2, space := {}, state := .terminated }

variable (R) in
/-- The relation allows what ending processes makes of them as well. -/
class Tame : Prop extends Mild R, Ending R

/-- No process has changed. -/
def Unchanged (_ : RecordId) (p q : Process) : Prop := q = p

instance (id : RecordId) : IsPreorder Process (Unchanged id) where
  refl _ := rfl
  trans _ _ _ h h' := Eq.trans h' h

namespace Frame

variable {s t : Machine}

/-- Machines with the same kernels and processes are in every frame. -/
theorem of_eq (hn : s.nextId ≤ t.nextId) (hk : t.kernels = s.kernels) (hp : t.processes = s.processes) : Frame R s t where
  nextId := hn
  kernel k := by
    rw [Machine.kernel, Machine.kernel, hk]
    exact refl _
  process id := by
    rw [Machine.process, Machine.process, hp]
    exact refl _

/-- A process that becomes another is in a frame if the relation allows that. -/
theorem setProcess {id : RecordId} {p : Process} (h : R id (s.process id) p) : Frame R s (Machine.setProcess id p s).2 where
  nextId := Nat.le_refl _
  kernel _ := refl _
  process other := by
    change R other _ (Machine.process { s with processes := s.processes.insert id p } other)
    rw [Machine.process_insert]
    split
    · next ho =>
      rw [ho]
      exact h
    · exact refl _

/-- A kernel with the same process set keeps every frame. -/
theorem setKernel {id : RecordId} {k : Kernel} (h : (s.kernel id).SameSet k) : Frame R s (Machine.setKernel id k s).2 where
  nextId := Nat.le_refl _
  kernel other := by
    change Kernel.SameSet _ (Machine.kernel { s with kernels := s.kernels.insert id k } other)
    rw [Machine.kernel_insert]
    split
    · next ho =>
      rw [ho]
      exact h
    · exact refl _
  process _ := refl _

end Frame

/-- A process that is changed twice has become what it is in the end, if nothing happens to processes in between. -/
theorem Frame.replace {s t : Machine} {id : RecordId} {p : Process} (h : Frame Unchanged (Machine.setProcess id p s).2 t)
    (f : Process → Process) (hf : R id (s.process id) (f p)) : Frame R s (Machine.setProcess id (f (t.process id)) t).2 where
  nextId := h.nextId
  kernel := h.kernel
  process other := by
    have hother (other : RecordId) : t.process other = if other = id then p else s.process other := by
      rw [← Machine.process_insert]
      exact h.process other
    change R other _ (Machine.process { t with processes := t.processes.insert id (f (t.process id)) } other)
    rw [Machine.process_insert, hother, hother, if_pos rfl]
    split
    · next ho =>
      rw [ho]
      exact hf
    · exact refl _

namespace Machine

/-! ## What touches no process -/

/-- A new number belongs to no process yet. -/
theorem freshId_frame : Keeps (Frame R) freshId := fun _ => .of_eq (Nat.le_succ _) rfl rfl

/-- Telling the journal touches no process. -/
theorem log_frame (level : Level) (text : String) : Keeps (Frame R) (log level text) := fun _ => .of_eq (Nat.le_refl _) rfl rfl

/-- Waking touches no process. -/
theorem wake_frame (l : WaitList) : Keeps (Frame R) (wake l) := fun _ => .of_eq (Nat.le_refl _) rfl rfl

theorem wakeOne_frame (parker : ParkerId) : Keeps (Frame R) (wakeOne parker) := fun _ => .of_eq (Nat.le_refl _) rfl rfl

/-- Threads are none of the processes' own fields. -/
theorem setThread_frame (id : RecordId) (t : Thread) : Keeps (Frame R) (setThread id t) :=
  fun _ => .of_eq (Nat.le_refl _) rfl rfl

/-- Events stand beside processes. -/
theorem setEvent_frame (id : RecordId) (e : Event) : Keeps (Frame R) (setEvent id e) := fun _ => .of_eq (Nat.le_refl _) rfl rfl

/-- Ports stand beside processes. -/
theorem setPort_frame (id : RecordId) (p : Port) : Keeps (Frame R) (setPort id p) := fun _ => .of_eq (Nat.le_refl _) rfl rfl

/-- Sessions stand beside processes. -/
theorem setSession_frame (id : RecordId) (x : Session) : Keeps (Frame R) (setSession id x) :=
  fun _ => .of_eq (Nat.le_refl _) rfl rfl

/-- Requests stand beside processes. -/
theorem setRequest_frame (id : RecordId) (r : SessionRequest) : Keeps (Frame R) (setRequest id r) :=
  fun _ => .of_eq (Nat.le_refl _) rfl rfl

/-- Servers stand beside the processes that host them. -/
theorem setServer_frame (id : RecordId) (x : Server) : Keeps (Frame R) (setServer id x) :=
  fun _ => .of_eq (Nat.le_refl _) rfl rfl

/-- An audit adds to the log of a kernel and not to its process set. -/
theorem audit_frame (kernel : RecordId) (event : KernelEvent) : Keeps (Frame R) (audit kernel event) := by
  intro s
  refine .setKernel (k := ((s.kernel kernel).record event).2) ?_
  constructor <;> rfl

/-- Thread ids are counted apart from processes. -/
theorem takeThreadId_frame (kernel : RecordId) : Keeps (Frame R) (takeThreadId kernel) := by
  intro s
  refine .setKernel (k := { s.kernel kernel with nextThreadId := (s.kernel kernel).nextThreadId + 1 }) ?_
  constructor <;> rfl

/-! ### Threads -/

/-- A thread that moves on touches no process; the last one to exit does so in a step of its own. -/
theorem moveThread_frame (id : RecordId) (event : ThreadEvent) : Keeps (Frame R) (moveThread id event) := by
  refine Keeps.get.bind fun s => ?_
  dsimp only
  split
  · refine (setThread_frame _ _).bind fun _ => ?_
    split
    · exact wake_frame _
    · exact .pure _
  · exact log_frame _ _

theorem setActivity_frame (id : RecordId) (activity : Activity) : Keeps (Frame R) (setActivity id activity) :=
  Keeps.get.bind fun _ => setThread_frame _ _

/-- A call that is answered touches no process. -/
theorem answerCall_frame (id : RecordId) (answer : Except KernelError CallValue) : Keeps (Frame R) (answerCall id answer) :=
  Keeps.get.bind fun _ => setThread_frame _ _

/-- A thread that is asked to exit touches no process. -/
theorem requestTermination_frame (id : RecordId) : Keeps (Frame R) (requestTermination id) :=
  Keeps.get.bind fun _ => (setThread_frame _ _).bind fun _ => wakeOne_frame _

theorem startThread_frame (id : RecordId) : Keeps (Frame R) (startThread id) :=
  (moveThread_frame _ _).bind fun _ => setActivity_frame _ _

/-! ### Sessions and ports -/

/-- A request that is completed wakes its waiters and touches no process. -/
theorem completeRequest_frame (id : RecordId) (result : Except KernelError Unit) : Keeps (Frame R) (completeRequest id result) := by
  refine Keeps.get.bind fun s => ?_
  dsimp only
  split
  · exact (setRequest_frame _ _).bind fun _ => wake_frame _
  · exact .pure _

/-- The end of a client side touches no process. -/
theorem closeClientSession_frame (client : RecordId) : Keeps (Frame R) (closeClientSession client) := by
  refine Keeps.get.bind fun s => Keeps.get.bind fun s' => ?_
  split
  · exact (setSession_frame _ _).bind fun _ => wake_frame _
  · exact .pure _

/-- The end of a server side touches none, whatever requests fail with it. -/
theorem closeServerSession_frame (server : RecordId) : Keeps (Frame R) (closeServerSession server) := by
  refine Keeps.get.bind fun s => Keeps.get.bind fun s' => ?_
  split
  · refine (setSession_frame _ _).bind fun _ => ?_
    refine Keeps.bind (.forIn fun request _ => (completeRequest_frame _ _).bind fun _ => .pure _) fun _ => ?_
    split
    · exact Keeps.get.bind fun _ => (setPort_frame _ _).bind fun _ => wake_frame _
    · exact wake_frame _
  · exact .pure _

/-- The end of a port touches none, whatever sessions wait at it. -/
theorem closePort_frame (serverPort : RecordId) : Keeps (Frame R) (closePort serverPort) := by
  refine Keeps.get.bind fun s => Keeps.get.bind fun s' => ?_
  split
  · refine (setPort_frame _ _).bind fun _ => ?_
    refine Keeps.bind (.forIn fun server _ => (closeServerSession_frame _).bind fun _ => .pure _) fun _ => ?_
    exact Keeps.get.bind fun _ => wake_frame _
  · exact .pure _

/-- The end of all sessions of a server touches none. -/
theorem closeSessions_frame (server : RecordId) : Keeps (Frame R) (closeSessions server) := by
  refine Keeps.get.bind fun s => (setServer_frame _ _).bind fun _ => ?_
  exact .forIn fun entry _ => (closeServerSession_frame _).bind fun _ => .pure _

/-- The end of a last binding touches no process. -/
theorem handleClosed_frame (object : KernelObject) : Keeps (Frame R) (handleClosed object) := by
  refine Keeps.get.bind fun s => Keeps.bind (Keeps.modify fun _ => .of_eq (Nat.le_refl _) rfl rfl) fun _ => ?_
  split
  · split
    · exact closeClientSession_frame _
    · exact closeServerSession_frame _
    · exact closePort_frame _
    · exact .pure _
  · exact .pure _

/-- The handles of a table are closed one after the other. -/
theorem closeAll_frame (bindings : List (Handle × KernelObject)) :
    Keeps (Frame R) (do for (_, object) in bindings do handleClosed object) :=
  .forIn fun _ _ => (handleClosed_frame _).bind fun _ => .pure _

/-! ### Pages -/

/-- The machine after a region and its host have become others. -/
def withRegion (s : Machine) (kernel : RecordId) (region : Region) (host : Host) : Machine :=
  { s with kernels := s.kernels.insert kernel { (s.kernel kernel).setRegion region with host } }

/-- Regions are no part of the process set. -/
theorem withRegion_frame (s : Machine) (kernel : RecordId) (region : Region) (host : Host) :
    Frame R s (s.withRegion kernel region host) :=
  .setKernel (k := { (s.kernel kernel).setRegion region with host }) (by constructor <;> rfl)

/-- What a region of a kernel answers when it is asked for pages. -/
def drawn (s : Machine) (kernel : RecordId) (kind : RegionKind) (pages : Nat) : Region × Host × Except KernelError PageList :=
  ((s.kernel kernel).region kind).allocate (s.kernel kernel).host pages

/-- The machine after a region was asked for pages. -/
def afterDrawing (s : Machine) (kernel : RecordId) (kind : RegionKind) (pages : Nat) : Machine :=
  s.withRegion kernel (s.drawn kernel kind pages).1 (s.drawn kernel kind pages).2.1

/-- Pages are taken under a fresh number, or not at all. -/
theorem allocatePages_run (kernel : RecordId) (kind : RegionKind) (pages : Nat) (s : Machine) :
    (allocatePages kernel kind pages).run s =
      match (s.drawn kernel kind pages).2.2 with
      | .ok list => (.ok (s.nextId, list), { s.afterDrawing kernel kind pages with
          nextId := s.nextId + 1
          allocations := s.allocations.insert s.nextId { kernel, region := kind, pages := list } })
      | .error e => (.error e, s.afterDrawing kernel kind pages) := by
  unfold allocatePages
  rw [Action.run_look]
  unfold afterDrawing drawn
  dsimp only
  cases (((s.kernel kernel).region kind).allocate (s.kernel kernel).host pages).2.2 <;> rfl

/-- Pages that are taken are taken from a region. -/
theorem allocatePages_frame (kernel : RecordId) (kind : RegionKind) (pages : Nat) :
    Keeps (Frame R) (allocatePages kernel kind pages).run := by
  intro s
  rw [allocatePages_run]
  split
  · exact IsTrans.trans _ _ _ (withRegion_frame s _ _ _) (.of_eq (Nat.le_succ _) rfl rfl)
  · exact withRegion_frame s _ _ _

/-- Pages that belong to an allocation go back to its region. -/
theorem freeAllocation_run (id : AllocationId) (s : Machine) : (freeAllocation id s).2 =
    match s.allocations[id]? with
    | some a => { s.withRegion a.kernel (((s.kernel a.kernel).region a.region).release a.pages) (s.kernel a.kernel).host with
        allocations := s.allocations.erase id }
    | none => s := by
  unfold freeAllocation
  rw [Update.run_look]
  cases s.allocations[id]? <;> rfl

/-- Pages that are freed go back to it. -/
theorem freeAllocation_frame (id : AllocationId) : Keeps (Frame R) (freeAllocation id) := by
  intro s
  rw [freeAllocation_run]
  split
  · exact IsTrans.trans _ _ _ (withRegion_frame s _ _ _) (.of_eq (Nat.le_refl _) rfl rfl)
  · exact refl s

/-! ## Waiting, pausing and beginning to end -/

section Passive

variable [Passive R]

/-- Of a process that is waited for only the wait list becomes another. -/
theorem setWaiters_frame (object : Waitable) (l : WaitList) : Keeps (Frame R) (setWaiters object l) := by
  refine Keeps.look fun s => ?_
  cases object with
  | process id => exact .setProcess (Passive.waited id _ l)
  | event id => exact setEvent_frame _ _ s
  | thread id => exact setThread_frame _ _ s
  | serverPort id => exact setPort_frame _ _ s
  | serverSession id => exact setSession_frame _ _ s
  | request id => exact setRequest_frame _ _ s

/-- Whoever stops waiting leaves the wait lists of processes. -/
theorem unregisterAll_frame (parker : ParkerId) (objects : List Waitable) : Keeps (Frame R) (unregisterAll parker objects) :=
  .forIn fun _ _ => Keeps.get.bind fun _ => (setWaiters_frame _ _).bind fun _ => .pure _

/-- A process that is paused or resumed is otherwise the same. -/
theorem setPaused_frame (id : RecordId) (paused : Bool) : Keeps (Frame R) (setPaused id paused) :=
  Keeps.look fun _ => .setProcess (Passive.paused id _ paused)

/-- Leaving a wait leaves the wait lists of processes. -/
theorem leaveWait_frame (id : RecordId) (wait : Wait) : Keeps (Frame R) (leaveWait id wait) :=
  Keeps.bind (Keeps.modify fun _ => .of_eq (Nat.le_refl _) rfl rfl) fun _ =>
    (unregisterAll_frame _ _).bind fun _ => moveThread_frame _ _

end Passive

/-- A mild relation allows a process to move on, short of its end. -/
theorem moveProcess_frame [Mild R] (id : RecordId) {event : ProcessEvent} (he : event ≠ .finishTermination) :
    Keeps (Frame R) (moveProcess id event) := by
  refine Keeps.look fun s => ?_
  cases h : (s.process id).state.next? event with
  | some state => exact .setProcess (Mild.moved id _ event state he h)
  | none => exact refl s

/-! ## Ends -/

/-- Only a terminating process finishes its termination, and is terminated then. -/
theorem ProcessState.of_finishTermination {state next : ProcessState} (h : state.next? .finishTermination = some next) :
    state = .terminating ∧ next = .terminated := by
  cases state <;> simp_all [ProcessState.next?]

/-- What a terminating process holds is released, and then it is terminated. -/
theorem finishTermination_run {id : RecordId} {s : Machine} (h : (s.process id).state = .terminating) :
    ∃ t, Frame Unchanged (setProcess id { s.process id with handles := (s.process id).handles.drain.2, space := {} } s).2 t ∧
      Frame Unchanged (setProcess id { t.process id with state := .terminated } t).2 (finishTermination id s).2 := by
  have hlast (l : WaitList) (text : String) (event : KernelEvent) : Keeps (Frame Unchanged) (do
      wake l
      log .info text
      let _ ← audit (s.process id).kernel event) :=
    (wake_frame _).bind fun _ => (log_frame _ _).bind fun _ => (audit_frame _ _).bind fun _ => .pure _
  have hnext : (s.process id).state.next? .finishTermination = some .terminated := by rw [h]; rfl
  rw [finishTermination, Update.run_look]
  dsimp only
  rw [hnext]
  exact ⟨_, closeAll_frame _ _, hlast _ _ _ _⟩

/-- For any other process nothing happens. -/
theorem finishTermination_of_not {id : RecordId} {s : Machine} (h : (s.process id).state ≠ .terminating) :
    (finishTermination id s).2 = s := by
  rw [finishTermination, Update.run_look]
  dsimp only
  cases hnext : (s.process id).state.next? .finishTermination with
  | none => rfl
  | some state => exact absurd (ProcessState.of_finishTermination hnext).1 h

/-- A relation that allows the end of a termination is kept by it. -/
theorem finishTermination_frame [Ending R] (id : RecordId) : Keeps (Frame R) (finishTermination id) := by
  intro s
  by_cases h : (s.process id).state = .terminating
  · obtain ⟨t, hreleased, hlast⟩ := finishTermination_run h
    have hended := Frame.replace (R := R) hreleased ({ · with state := .terminated }) (Ending.ended id _ h)
    refine IsTrans.trans _ _ _ hended ⟨hlast.nextId, hlast.kernel, fun other => ?_⟩
    rw [hlast.process other]
    exact refl _
  · rw [finishTermination_of_not h]
    exact refl s

/-- A process that has begun to end is terminated in the end. -/
theorem finishTermination_ends {id : RecordId} {s : Machine} (h : (s.process id).state.isTerminating = true) :
    ((finishTermination id s).2.process id).state = .terminated := by
  by_cases hstate : (s.process id).state = .terminating
  · obtain ⟨t, -, hlast⟩ := finishTermination_run hstate
    rw [hlast.process id]
    exact congrArg Process.state ((process_insert t id id _).trans (if_pos rfl))
  · rw [finishTermination_of_not hstate]
    cases hs : (s.process id).state with
    | terminated => rfl
    | terminating => exact absurd hs hstate
    | created | running =>
      rw [hs] at h
      cases h

section Exits

variable (hexited : ∀ process, Keeps (Frame R) (threadExited process))

include hexited

/-- The exit of a thread keeps what its process makes of it. -/
theorem exitThread_frame_of (id : RecordId) (ending : ThreadEnd) : Keeps (Frame R) (exitThread id ending) := by
  have hexit (process : RecordId) : Keeps (Frame R) (do
      setActivity id .none
      moveThread id .exit
      moveThread id .finish
      threadExited process) :=
    (setActivity_frame _ _).bind fun _ => (moveThread_frame _ _).bind fun _ => (moveThread_frame _ _).bind fun _ => hexited _
  refine Keeps.get.bind fun s => Keeps.get.bind fun s' => ?_
  split
  · exact hexit _
  · exact hexit _
  · exact (log_frame _ _).bind fun _ => hexit _
  · exact (log_frame _ _).bind fun _ => hexit _

omit hexited in
/-- A thread that is stopped closes the sessions of its server first. -/
theorem keeps_closeAndExit {S : Machine → Machine → Prop} [IsPreorder Machine S] {id : RecordId}
    (hclose : ∀ server, Keeps S (closeSessions server)) (hexit : Keeps S (exitThread id .returned)) (t : Thread) : Keeps S (do
    if let .server server := t.body then closeSessions server
    exitThread id .returned) := by
  split
  · exact (hclose _).bind fun _ => hexit
  · exact hexit

/-- If a passive frame is kept when a process learns that a thread has exited, it is kept when a thread is ended. -/
theorem stopThread_frame_of [Passive R] (id : RecordId) : Keeps (Frame R) (stopThread id) := by
  have hclose (t : Thread) := keeps_closeAndExit (closeSessions_frame (R := R)) (exitThread_frame_of hexited id .returned) t
  refine Keeps.get.bind fun s => ?_
  dsimp only
  split
  · exact .pure _
  · exact (moveThread_frame _ _).bind fun _ => hclose _
  · exact hclose _
  · exact (answerCall_frame _ _).bind fun _ => hclose _
  · exact hclose _
  · refine (leaveWait_frame _ _).bind fun _ => ?_
    split
    · exact hclose _
    · exact (completeRequest_frame _ _).bind fun _ => (answerCall_frame _ _).bind fun _ => hclose _
    · exact (answerCall_frame _ _).bind fun _ => hclose _

end Exits

section Tame

variable [Tame R]

/-- The last thread of a process to exit ends it. -/
theorem threadExited_frame (process : RecordId) : Keeps (Frame R) (threadExited process) := by
  refine Keeps.get.bind fun _ => ?_
  split
  · split
    · exact (moveProcess_frame _ (by decide)).bind fun _ => finishTermination_frame _
    · exact finishTermination_frame _
  · exact .pure _

/-- A thread that exits may end its process. -/
theorem exitThread_frame (id : RecordId) (ending : ThreadEnd) : Keeps (Frame R) (exitThread id ending) :=
  exitThread_frame_of threadExited_frame id ending

/-- So may a thread that is ended from outside. -/
theorem stopThread_frame (id : RecordId) : Keeps (Frame R) (stopThread id) := stopThread_frame_of threadExited_frame id

/-- A termination changes processes in no way but those of a tame relation. -/
theorem terminateProcess_frame (id : RecordId) (caller : Option RecordId) : Keeps (Frame R) (terminateProcess id caller) := by
  refine (moveProcess_frame id (by decide)).bind fun moved => ?_
  split
  · refine Keeps.get.bind fun _ => (log_frame _ _).bind fun _ => ?_
    refine Keeps.bind (.forIn fun _ _ => (requestTermination_frame _).bind fun _ => .pure _) fun _ => ?_
    refine (setPaused_frame _ _).bind fun _ => Keeps.bind (.forIn fun _ _ => ?_) fun _ => Keeps.get.bind fun _ => ?_
    · split
      · exact (stopThread_frame _).bind fun _ => .pure _
      · exact .pure _
    · dsimp only
      split
      · exact finishTermination_frame _
      · exact .pure _
  · exact .pure _

end Tame

/-! ## Programs for one process -/

/-- Only one process has become another, with the pid it had; it is terminated only if it was, and terminating only if it was. -/
def Only (id other : RecordId) (p q : Process) : Prop :=
  (other ≠ id → q = p) ∧ q.pid = p.pid ∧ (q.state = .terminated → p.state = .terminated) ∧
    (q.state.isTerminating = true → p.state.isTerminating = true)

instance (id other : RecordId) : IsPreorder Process (Only id other) where
  refl _ := ⟨fun _ => rfl, rfl, fun h => h, fun h => h⟩
  trans _ _ _ h h' := ⟨fun ho => (h'.1 ho).trans (h.1 ho), h'.2.1.trans h.2.1, fun ht => h.2.2.1 (h'.2.2.1 ht),
    fun ht => h.2.2.2 (h'.2.2.2 ht)⟩

/-- A change that keeps the pid and the state. -/
theorem Only.of_eq {id : RecordId} {p q : Process} (hpid : q.pid = p.pid) (hstate : q.state = p.state) : Only id id p q :=
  ⟨fun h => absurd rfl h, hpid, fun h => hstate ▸ h, fun h => hstate ▸ h⟩

/-- Another address space is that of one process only. -/
theorem setSpace_frame (process : RecordId) (space : AddressSpace) : Keeps (Frame (Only process)) (setSpace process space) :=
  Keeps.look fun _ => .setProcess (.of_eq rfl rfl)

/-- Pausing one process pauses no other. -/
theorem setPaused_only (process : RecordId) (paused : Bool) : Keeps (Frame (Only process)) (setPaused process paused) :=
  Keeps.look fun _ => .setProcess (.of_eq rfl rfl)

/-- Starting one process starts no other. -/
theorem startProcess_only (process : RecordId) : Keeps (Frame (Only process)) (moveProcess process .start) := by
  refine Keeps.look fun s => ?_
  cases h : (s.process process).state.next? .start with
  | none => exact refl s
  | some state =>
    have hstate : state = .running := by
      cases hp : (s.process process).state <;> simp_all [ProcessState.next?]
    subst hstate
    refine .setProcess ⟨fun h => absurd rfl h, rfl, fun h => ?_, fun h => ?_⟩ <;> cases h

/-- Giving pages back on failure keeps the frame that the program kept. -/
theorem givingBack_frame {program : Action α} (allocation : AllocationId) (h : Keeps (Frame R) program.run) :
    Keeps (Frame R) (givingBack allocation program).run :=
  .run_tryCatch h fun e => .run_bind (.run_lift (freeAllocation_frame _)) fun _ => .run_throw e

/-- Pages are mapped into one process only. -/
theorem mapOwned_frame (process : RecordId) (address : Nat) (allocation : AllocationId) (pages : PageList)
    (permission : Permission) (state : MemoryState) :
    Keeps (Frame (Only process)) (mapOwned process address allocation pages permission state).run :=
  .run_bind (.run_lift .get) fun _ => .run_bind (.run_except _) fun _ => .run_lift (setSpace_frame _ _)

/-- Taking pages for a process leaves all of them as they are. -/
theorem allocateFor_frame (process : RecordId) (pages : Nat) : Keeps (Frame R) (allocateFor process pages).run :=
  .run_bind (.run_lift .get) fun _ => allocatePages_frame _ _ _

/-- Code is mapped into one process only. -/
theorem mapCode_frame (process : RecordId) (address pages : Nat) :
    Keeps (Frame (Only process)) (mapCode process address pages).run := by
  unfold mapCode
  split
  · exact .run_bind (allocateFor_frame _ _) fun _ => givingBack_frame _ (mapOwned_frame _ _ _ _ _ _)
  · exact .run_pure _

/-- The page of a thread is mapped into one process only. -/
theorem allocateThreadLocal_frame (process : RecordId) : Keeps (Frame (Only process)) (allocateThreadLocal process).run := by
  refine .run_bind (allocateFor_frame _ _) fun _ => givingBack_frame _ (.run_bind (.run_lift .get) fun _ => ?_)
  exact .run_bind (.run_except _) fun _ => .run_bind (mapOwned_frame _ _ _ _ _ _) fun _ => .run_pure _

/-- A new thread is listed by one process only. -/
theorem createThread_frame (process : RecordId) (threadId priority : Nat) (type : ThreadType) (body : ThreadBody) :
    Keeps (Frame (Only process)) (createThread process threadId priority type body).run := by
  refine .run_bind (.run_lift .get) fun s => ?_
  dsimp only
  split
  · exact .run_throw_bind _ _
  · split
    · exact .run_throw_bind _ _
    · refine .run_bind (allocateThreadLocal_frame _) fun _ => .run_bind (.run_lift freshId_frame) fun id => ?_
      refine .run_bind (.run_lift (setThread_frame _ _)) fun _ => Keeps.look fun s => ?_
      exact .setProcess (.of_eq rfl rfl)

end Machine

end Microkernel
