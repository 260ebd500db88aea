import Microkernel.Proofs.Machine.Frames

/-!
# Starting processes

A start call is admitted or refused by what it asks for (`StartCall.admitted?`). A refused call changes nothing but the journal. An
admitted one takes the next pid, drops the processes that are terminated from the process set, and puts the new process there unless
it cannot be made (`Starts`).
-/

namespace Microkernel

namespace Machine

/-! ## New kernels -/

/-- What a kernel is made from: a configuration, and a host with the memory that it asks for. -/
structure Setup where
  config : KernelConfig
  host : Host
  fits : config.memoryArrange.totalSize ≤ host.memory.size

namespace Setup

/-- The kernel is the first record of its machine. -/
def kernel (_ : Setup) : RecordId := 0

/-- The machine with nothing but the new kernel. -/
def machine (x : Setup) : Machine := ((newKernel x.config x.host).run {}).2

/-- The kernel of the machine. -/
def newKernel (x : Setup) : Kernel := {
  config := x.config, host := x.host, regions := Region.layout x.config.memoryArrange, clock := .new x.host.now
  audit := .new x.config.auditLogCapacity }

/-- A new kernel is the first record of its machine, which has no other. -/
theorem newKernel_run (x : Setup) : (Machine.newKernel x.config x.host).run {} = (.ok x.kernel, x.machine) ∧
    x.machine = { nextId := 1, kernels := Std.TreeMap.insert {} x.kernel x.newKernel, journal := x.machine.journal } := by
  have hnew : Kernel.new x.config x.host = .ok x.newKernel := if_neg (Nat.not_lt.2 x.fits)
  unfold machine Machine.newKernel
  rw [hnew]
  exact ⟨rfl, rfl⟩

/-- The kernel of the machine is the one that was made. -/
theorem kernel_machine (x : Setup) : x.machine.kernel x.kernel = x.newKernel := by
  rw [x.newKernel_run.2]
  change (Std.TreeMap.insert {} x.kernel x.newKernel : Records Kernel).getD x.kernel default = _
  rw [Std.TreeMap.getD_insert_self]

end Setup

/-- Every process has the pid it had. -/
def SamePid (_ : RecordId) (p q : Process) : Prop := q.pid = p.pid

instance (id : RecordId) : IsPreorder Process (SamePid id) where
  refl _ := rfl
  trans _ _ _ h h' := Eq.trans h' h

/-- A call that starts a process. -/
structure StartCall where
  creation : ProcessCreation
  words : List UInt32
  priority : Nat
  body : ThreadBody

namespace StartCall

def isApplication (x : StartCall) : Bool := x.creation.flags.isApplication

/-- Carries the call out. -/
def start (x : StartCall) (kernel : RecordId) : Action RecordId := startProcess kernel x.creation x.words x.priority x.body

/-- The capabilities of the process, if the kernel takes the call: it is not shut down, it can read the capabilities, and they grant
the priority. -/
def admitted? (x : StartCall) (k : Kernel) : Option Capabilities :=
  if k.shuttingDown then none
  else (Capabilities.parse x.words k.config.cpuCoreCount.toNat).toOption.filter (·.allowsPriority x.priority)

/-- The first part of a start that is admitted. -/
def create (x : StartCall) (kernel : RecordId) (capabilities : Capabilities) : Update RecordId :=
  createProcess kernel x.creation.name x.creation.programId.toNat x.creation.flags capabilities

/-- Gives a process its code and its first thread. -/
def equip (x : StartCall) (kernel id : RecordId) : Action RecordId := do
  mapCode id x.creation.codeAddress.toNat x.creation.codePages.toNat
  createThread id (← takeThreadId kernel) x.priority .guest x.body

/-- The second part: the process is equipped, or dropped. -/
def makeThread (x : StartCall) (kernel id : RecordId) : Action RecordId := do
  try x.equip kernel id
  catch e =>
    discardProcess id
    throw e

/-- The process becomes a member of the process set, and its thread is started. -/
def join (x : StartCall) (kernel id thread : RecordId) : Update Unit := do
  let k := (← get).kernel kernel
  let p := (← get).process id
  if p.isApplication && k.paused then setPaused id true
  setKernel kernel { k with processes := k.processes.insert p.pid id }
  let program := "0x" ++ Text.hexPadded 16 x.creation.programId.toNat
  log .info s!"Created process {x.creation.name} (pid {p.pidText}, program {program}, version {x.creation.version})"
  let _ ← audit kernel (.processCreated p.pid x.creation.name x.creation.flags.isApplication)
  startThread thread

/-- The last part: the process begins to run, and joins the process set once the terminated processes have left it. -/
def enter (x : StartCall) (kernel id thread : RecordId) : Update Unit := do
  let _ ← moveProcess id .start
  let _ ← reapTerminated kernel
  x.join kernel id thread

end StartCall

variable {kernel : RecordId} {x : StartCall} {s : Machine}

/-- A call that is refused changes nothing but the journal. -/
theorem StartCall.start_of_refused (h : x.admitted? (s.kernel kernel) = none) :
    ∃ e journal, (x.start kernel).run s = (.error e, { s with journal }) := by
  unfold admitted? at h
  rw [start, startProcess, Action.run_look]
  dsimp only
  by_cases hdown : (s.kernel kernel).shuttingDown = true
  · rw [if_pos hdown]
    exact ⟨_, s.journal, rfl⟩
  · rw [if_neg hdown] at h ⊢
    cases hc : Capabilities.parse x.words (s.kernel kernel).config.cpuCoreCount.toNat with
    | error e => exact ⟨_, s.journal, rfl⟩
    | ok capabilities =>
      rw [hc] at h
      have hp : (!capabilities.allowsPriority x.priority) = true := by
        simpa [Except.toOption, Option.filter] using h
      dsimp only
      rw [pure_bind, if_pos hp]
      exact ⟨_, _, rfl⟩

/-- A call that is admitted is carried out in three parts. -/
theorem StartCall.start_of_admitted {capabilities : Capabilities} (h : x.admitted? (s.kernel kernel) = some capabilities) :
    (x.start kernel).run s =
      match (x.makeThread kernel (x.create kernel capabilities s).1).run (x.create kernel capabilities s).2 with
      | (.ok thread, t) => (.ok (x.create kernel capabilities s).1, (x.enter kernel (x.create kernel capabilities s).1 thread t).2)
      | (.error e, t) => (.error e, t) := by
  unfold admitted? at h
  rw [start, startProcess, Action.run_look]
  dsimp only
  by_cases hdown : (s.kernel kernel).shuttingDown = true
  · rw [if_pos hdown] at h
    cases h
  · rw [if_neg hdown] at h ⊢
    cases hc : Capabilities.parse x.words (s.kernel kernel).config.cpuCoreCount.toNat with
    | error e => simp [hc, Except.toOption] at h
    | ok c =>
      have hp : c.allowsPriority x.priority = true ∧ c = capabilities := by
        simpa [hc, Except.toOption, Option.filter] using h
      obtain ⟨hp, rfl⟩ := hp
      dsimp only
      rw [pure_bind, hp, Bool.not_true, if_neg Bool.false_ne_true, Action.run_lift_bind, Action.run_bind]
      unfold makeThread equip create enter join
      split
      · next thread t heq =>
        rw [heq]
        dsimp only
        rw [Action.run_lift_bind, Action.run_lift_bind, Action.run_look, Action.run_look]
        rw [Update.run_bind, Update.run_bind, Update.run_look, Update.run_look]
        split
        · rfl
        · rfl
      · next e t heq =>
        rw [heq]

/-! ## What a start does -/

/-- Nothing has become of a process but one. -/
def Besides (id other : RecordId) (p q : Process) : Prop := other ≠ id → q = p

instance (id other : RecordId) : IsPreorder Process (Besides id other) where
  refl _ _ := rfl
  trans _ _ _ h h' := fun ho => (h' ho).trans (h ho)

/-- If only one process became another, the others did not. -/
theorem Only.besides {id other : RecordId} {p q : Process} (h : Only id other p q) : Besides id other p q := h.1

/-- A process that is dropped is the only one to change. -/
theorem discardProcess_frame (id : RecordId) : Keeps (Frame (Besides id)) (discardProcess id) := by
  refine Keeps.get.bind fun s => Keeps.bind (.forIn fun mapping _ => ?_) fun _ => ?_
  · refine Keeps.bind (.forIn fun allocation _ => ?_) fun _ => .pure _
    exact (freeAllocation_frame _).bind fun _ => .pure _
  · intro s
    refine ⟨Nat.le_refl _, fun _ => refl _, fun other ho => ?_⟩
    change (s.processes.erase id).getD other default = s.processes.getD other default
    rw [Std.TreeMap.getD_erase, if_neg fun hc => ho (Std.LawfulEqCmp.eq_of_compare hc).symm]

/-- The machine with another kernel under a number. -/
def withKernel (s : Machine) (kernel : RecordId) (k : Kernel) : Machine := { s with kernels := s.kernels.insert kernel k }

/-- Setting one kernel leaves the others. -/
theorem kernel_withKernel (s : Machine) (kernel other : RecordId) (k : Kernel) :
    (s.withKernel kernel k).kernel other = if other = kernel then k else s.kernel other := kernel_insert s kernel other k

end Machine

section

variable {R S : RecordId → Process → Process → Prop} {s t : Machine}

/-- A frame allows what a narrower one does. -/
theorem Frame.mono (h : Frame R s t) (hRS : ∀ id p q, R id p q → S id p q) : Frame S s t :=
  ⟨h.nextId, h.kernel, fun id => hRS _ _ _ (h.process id)⟩

/-- A frame allows the kernel to change alike on both sides. -/
theorem Frame.withKernel (h : Frame R s t) (kernel : RecordId) {k k' : Kernel} (hk : k.SameSet k') :
    Frame R (s.withKernel kernel k) (t.withKernel kernel k') where
  nextId := h.nextId
  kernel other := by
    rw [Machine.kernel_withKernel, Machine.kernel_withKernel]
    split
    · exact hk
    · exact h.kernel other
  process := h.process

/-- Only the kernel that is given last counts. -/
theorem Frame.withKernel_twice [∀ id, IsPreorder Process (R id)] (s : Machine) (kernel : RecordId) (k k' : Kernel) :
    Frame R (s.withKernel kernel k') ((s.withKernel kernel k).withKernel kernel k') where
  nextId := Nat.le_refl _
  kernel other := by
    rw [Machine.kernel_withKernel, Machine.kernel_withKernel, Machine.kernel_withKernel]
    split <;> exact refl _
  process _ := refl _

end

namespace Machine

variable {kernel : RecordId} {x : StartCall} {s : Machine}

/-- The processes of a set that are not terminated. -/
def live (s : Machine) (set : Std.TreeMap Nat RecordId) : Std.TreeMap Nat RecordId :=
  set.filter fun _ id => (s.process id).state ≠ .terminated

/-- A pid is that of a live member if it is that of a member that is not terminated. -/
theorem getElem?_live (s : Machine) (set : Std.TreeMap Nat RecordId) (pid : Nat) :
    (s.live set)[pid]? = (set[pid]?).filter fun id => (s.process id).state ≠ .terminated := Std.TreeMap.getElem?_filter'

/-- Reaping keeps the live members. -/
theorem reapTerminated_run (kernel : RecordId) (s : Machine) : (reapTerminated kernel s).2 =
    s.withKernel kernel { s.kernel kernel with processes := s.live (s.kernel kernel).processes } := rfl

/-- Of its kernel reaping changes the process set only. -/
theorem kernel_reapTerminated (kernel : RecordId) (s : Machine) : (reapTerminated kernel s).2.kernel kernel =
    { s.kernel kernel with processes := s.live (s.kernel kernel).processes } := by
  rw [reapTerminated_run, kernel_withKernel, if_pos rfl]

/-- Joining the process set changes the set, and the process at most. -/
theorem StartCall.join_frame (x : StartCall) (kernel id thread : RecordId) (s : Machine) :
    Frame (Only id) (s.withKernel kernel { s.kernel kernel with
      processes := (s.kernel kernel).processes.insert (s.process id).pid id }) (x.join kernel id thread s).2 := by
  have hlast (text : String) (event : KernelEvent) (t : Machine) (ht : Frame (Only id) s t) (k : Kernel) :
      Frame (Only id) (s.withKernel kernel k) ((do
        setKernel kernel k
        log .info text
        let _ ← audit kernel event
        startThread thread : Update Unit) t).2 := by
    have hannounce : Keeps (Frame (Only id)) (do
        log .info text
        let _ ← audit kernel event
        startThread thread) := (log_frame _ _).bind fun _ => (audit_frame _ _).bind fun _ => startThread_frame _
    exact IsTrans.trans _ _ _ (ht.withKernel kernel (refl k)) (hannounce (t.withKernel kernel k))
  rw [join, Update.run_look, Update.run_look]
  dsimp only
  split
  · exact hlast _ _ _ (setPaused_only id true s) _
  · exact hlast _ _ _ (refl s) _

/-- A process enters the process set after the terminated processes have left it. -/
theorem StartCall.enter_frame (x : StartCall) (kernel id thread : RecordId) (s : Machine) :
    ∃ t, Frame (Only id) s t ∧ Frame (Only id) (s.withKernel kernel { s.kernel kernel with
      processes := (t.live (s.kernel kernel).processes).insert (s.process id).pid id }) (x.enter kernel id thread s).2 := by
  have hmove := startProcess_only id s
  refine ⟨(moveProcess id .start s).2, hmove, ?_⟩
  rw [enter, Update.run_bind, Update.run_bind, reapTerminated_run]
  generalize (moveProcess id .start s).2 = t at hmove ⊢
  have hsame := hmove.kernel kernel
  have hpid : (t.process id).pid = (s.process id).pid := (hmove.process id).2.1
  have hjoin := x.join_frame kernel id thread
    (t.withKernel kernel { t.kernel kernel with processes := t.live (t.kernel kernel).processes })
  refine IsTrans.trans _ _ _ (IsTrans.trans _ _ _ (hmove.withKernel kernel ?_) (Frame.withKernel_twice t kernel _ _)) hjoin
  rw [kernel_withKernel, if_pos rfl, hsame.processes]
  constructor
  case processes => exact congrArg (fun pid => (t.live (s.kernel kernel).processes).insert pid id) hpid
  case nextServicePid => exact hsame.nextServicePid
  case nextApplicationPid => exact hsame.nextApplicationPid
  case shuttingDown => exact hsame.shuttingDown
  case config => exact hsame.config

/-- Equipping a process changes it and no other. -/
theorem StartCall.equip_frame (x : StartCall) (kernel id : RecordId) : Keeps (Frame (Only id)) (x.equip kernel id).run :=
  .run_bind (mapCode_frame _ _ _) fun _ => .run_bind (.run_lift (takeThreadId_frame _)) fun _ => createThread_frame _ _ _ _ _

/-- Equipping a process touches no other process; neither does dropping it. -/
theorem StartCall.makeThread_frame (x : StartCall) (kernel id : RecordId) (s : Machine) :
    match (x.makeThread kernel id).run s with
    | (.ok _, t) => Frame (Only id) s t
    | (.error _, t) => Frame (Besides id) s t := by
  have hs := x.equip_frame kernel id s
  rw [makeThread, Action.run_tryCatch]
  rcases hrun : (x.equip kernel id).run s with ⟨e | thread, t⟩ <;> rw [hrun] at hs
  · exact IsTrans.trans _ _ _ (hs.mono fun _ _ _ h => h.besides) (discardProcess_frame id t)
  · exact hs

/-- What an admitted call makes of a machine and of the process set of its kernel. -/
structure Starts (kernel : RecordId) (x : StartCall) (s : Machine) (result : Except KernelError RecordId) (t : Machine) : Prop where
  nextId : s.nextId < t.nextId
  process : ∀ id, id ≠ s.nextId → t.process id = s.process id
  nextServicePid : (t.kernel kernel).nextServicePid = ((s.kernel kernel).takePid x.isApplication).2.nextServicePid
  nextApplicationPid : (t.kernel kernel).nextApplicationPid = ((s.kernel kernel).takePid x.isApplication).2.nextApplicationPid
  shuttingDown : (t.kernel kernel).shuttingDown = (s.kernel kernel).shuttingDown
  config : (t.kernel kernel).config = (s.kernel kernel).config
  /-- A process that could be made has the pid and is a member, unlike the terminated processes. -/
  started : ∀ id, result = .ok id → id = s.nextId ∧ (t.process id).pid = ((s.kernel kernel).takePid x.isApplication).1 ∧
    ∀ pid : Nat, (t.kernel kernel).processes[pid]? =
      if pid = ((s.kernel kernel).takePid x.isApplication).1 then some id
      else ((s.kernel kernel).processes[pid]?).filter fun id => (s.process id).state ≠ .terminated
  failed : ∀ e, result = .error e → (t.kernel kernel).processes = (s.kernel kernel).processes

/-- A process has been created under a fresh number with the next pid. -/
structure Creates (kernel : RecordId) (isApplication : Bool) (s t : Machine) : Prop where
  nextId : t.nextId = s.nextId + 1
  process : ∀ id, id ≠ s.nextId → t.process id = s.process id
  pid : (t.process s.nextId).pid = ((s.kernel kernel).takePid isApplication).1
  state : (t.process s.nextId).state = .created
  kernel : ((s.kernel kernel).takePid isApplication).2.SameSet (t.kernel kernel)

/-- A new process gets the next number and the next pid of its kind. -/
theorem createProcess_creates (kernel : RecordId) (name : String) (programId : Nat) (flags : ProcessFlags)
    (capabilities : Capabilities) (s : Machine) :
    (createProcess kernel name programId flags capabilities s).1 = s.nextId ∧
      Creates kernel flags.isApplication s (createProcess kernel name programId flags capabilities s).2 := by
  have hprocess (p : Process) (k : Kernel) (id : RecordId) :
      ({ s with nextId := s.nextId + 1, kernels := s.kernels.insert kernel k, processes := s.processes.insert s.nextId p } :
        Machine).process id = if id = s.nextId then p else s.process id := process_insert _ _ _ _
  have hkernel (p : Process) (k : Kernel) :
      ({ s with nextId := s.nextId + 1, kernels := s.kernels.insert kernel k, processes := s.processes.insert s.nextId p } :
        Machine).kernel kernel = k := (kernel_insert _ _ _ _).trans (if_pos rfl)
  refine ⟨rfl, ?_⟩
  constructor
  case nextId => rfl
  case process => exact fun id hid => (hprocess _ _ id).trans (if_neg hid)
  case pid => exact congrArg Process.pid ((hprocess _ _ s.nextId).trans (if_pos rfl))
  case state => exact congrArg Process.state ((hprocess _ _ s.nextId).trans (if_pos rfl))
  case kernel =>
    have hk : (createProcess kernel name programId flags capabilities s).2.kernel kernel =
        { ((s.kernel kernel).takePid flags.isApplication).2 with
          nextCreationOrder := ((s.kernel kernel).takePid flags.isApplication).2.nextCreationOrder + 1 } := hkernel _ _
    rw [hk]
    constructor <;> rfl

/-- Taking a pid changes a counter only. -/
theorem takePid_frame (k : Kernel) (isApplication : Bool) : (k.takePid isApplication).2.processes = k.processes ∧
    (k.takePid isApplication).2.shuttingDown = k.shuttingDown ∧ (k.takePid isApplication).2.config = k.config := by
  unfold Kernel.takePid
  split <;> exact ⟨rfl, rfl, rfl⟩

/-- What an admitted call does, if the members of the process set have been made before. -/
theorem StartCall.start_starts {capabilities : Capabilities} (h : x.admitted? (s.kernel kernel) = some capabilities)
    (hset : ∀ (pid : Nat) id, (s.kernel kernel).processes[pid]? = some id → id < s.nextId) :
    Starts kernel x s ((x.start kernel).run s).1 ((x.start kernel).run s).2 := by
  obtain ⟨hid, hc⟩ : (x.create kernel capabilities s).1 = s.nextId ∧
      Creates kernel x.isApplication s (x.create kernel capabilities s).2 := createProcess_creates _ _ _ _ _ s
  obtain ⟨hprocesses, hdown, hconfig⟩ := takePid_frame (s.kernel kernel) x.isApplication
  have hm := x.makeThread_frame kernel s.nextId (x.create kernel capabilities s).2
  rw [start_of_admitted h, hid]
  generalize (x.create kernel capabilities s).2 = c at hc hm ⊢
  rcases hrun : (x.makeThread kernel s.nextId).run c with ⟨e | thread, t⟩ <;> rw [hrun] at hm <;> dsimp only at hm ⊢
  · have hk := hm.kernel kernel
    constructor
    case nextId => exact Nat.lt_of_lt_of_le (by rw [hc.nextId]; exact Nat.lt_succ_self _) hm.nextId
    case process => exact fun id hid => (hm.process id hid).trans (hc.process id hid)
    case nextServicePid => exact hk.nextServicePid.trans hc.kernel.nextServicePid
    case nextApplicationPid => exact hk.nextApplicationPid.trans hc.kernel.nextApplicationPid
    case shuttingDown => exact (hk.shuttingDown.trans hc.kernel.shuttingDown).trans hdown
    case config => exact (hk.config.trans hc.kernel.config).trans hconfig
    case started => exact fun _ h => nomatch h
    case failed => exact fun _ _ => (hk.processes.trans hc.kernel.processes).trans hprocesses
  · obtain ⟨u, hu, hj⟩ := x.enter_frame kernel s.nextId thread t
    have hk := hm.kernel kernel
    have hpid := (hm.process s.nextId).2.1.trans hc.pid
    have hkernel := hj.kernel kernel
    rw [kernel_withKernel, if_pos rfl] at hkernel
    constructor
    case nextId => exact Nat.lt_of_lt_of_le (by rw [hc.nextId]; exact Nat.lt_succ_self _) (Nat.le_trans hm.nextId hj.nextId)
    case process =>
      exact fun id hid => ((hj.process id).1 hid).trans (((hm.process id).1 hid).trans (hc.process id hid))
    case nextServicePid => exact hkernel.nextServicePid.trans (hk.nextServicePid.trans hc.kernel.nextServicePid)
    case nextApplicationPid => exact hkernel.nextApplicationPid.trans (hk.nextApplicationPid.trans hc.kernel.nextApplicationPid)
    case shuttingDown => exact hkernel.shuttingDown.trans ((hk.shuttingDown.trans hc.kernel.shuttingDown).trans hdown)
    case config => exact hkernel.config.trans ((hk.config.trans hc.kernel.config).trans hconfig)
    case started =>
      intro id hok
      obtain rfl := Except.ok.inj hok
      refine ⟨rfl, (hj.process s.nextId).2.1.trans hpid, fun pid => ?_⟩
      rw [hkernel.processes, hpid, hk.processes, hc.kernel.processes, hprocesses]
      dsimp only
      rw [Std.TreeMap.getElem?_insert, getElem?_live]
      by_cases hp : pid = ((s.kernel kernel).takePid x.isApplication).1
      · rw [if_pos hp, if_pos (by rw [hp]; exact Std.ReflCmp.compare_self)]
      · rw [if_neg hp, if_neg fun hcmp => hp (Std.LawfulEqCmp.eq_of_compare hcmp).symm]
        cases hmem : (s.kernel kernel).processes[pid]? with
        | none => rfl
        | some id =>
          have hne : id ≠ s.nextId := Nat.ne_of_lt (hset pid id hmem)
          have hsame : u.process id = s.process id :=
            ((hu.process id).1 hne).trans (((hm.process id).1 hne).trans (hc.process id hne))
          simp only [Option.filter, hsame]
    case failed => exact fun _ h => nomatch h

/-! ## Shutdown -/

/-- What a shutdown makes of the process set of a kernel and of the pids. -/
structure ShutsDown (kernel : RecordId) (s t : Machine) : Prop where
  nextId : s.nextId ≤ t.nextId
  pid : ∀ id, id < s.nextId → (t.process id).pid = (s.process id).pid
  /-- The process that does the work takes a pid. -/
  nextServicePid : (t.kernel kernel).nextServicePid = (s.kernel kernel).nextServicePid + 1
  nextApplicationPid : (t.kernel kernel).nextApplicationPid = (s.kernel kernel).nextApplicationPid
  shuttingDown : (t.kernel kernel).shuttingDown = true
  /-- The set is cleared unless the work cannot be done. -/
  processes : (t.kernel kernel).processes = {} ∨ (t.kernel kernel).processes = (s.kernel kernel).processes

instance : Tame SamePid where
  waited _ _ _ := rfl
  paused _ _ _ := rfl
  moved _ _ _ _ _ _ := rfl
  ended _ _ _ := rfl

/-- Nothing but the pause flag has changed. -/
def Paused (_ : RecordId) (p q : Process) : Prop := q = { p with paused := q.paused }

instance (id : RecordId) : IsPreorder Process (Paused id) where
  refl _ := rfl
  trans p q r h h' := by
    rw [Paused, h', h]

/-- Pausing a process changes that it is paused. -/
theorem setPaused_still (id : RecordId) (paused : Bool) : Keeps (Still Paused) (setPaused id paused) :=
  .look fun _ => ⟨.setProcess rfl, rfl⟩

/-- Telling changes no process. -/
theorem tell_still (kernel : RecordId) (text : String) (event : KernelEvent) : Keeps (Still Paused) (do
    log .info text
    let _ ← audit kernel event) :=
  fun s => ⟨((log_frame _ _).bind fun _ => (audit_frame _ _).bind fun _ => .pure _) s, rfl⟩

/-- Resuming a kernel changes no more than that its processes are not paused. -/
theorem resume_still (kernel : RecordId) : Keeps (Still Paused) (resume kernel) := by
  have hrest : Keeps (Still Paused) (do
      for id in (← get).applicationsOf kernel do setPaused id false
      log .info "Emulation resumed"
      let _ ← audit kernel .resumed) := by
    refine Keeps.get.bind fun t => Keeps.bind (.forIn fun id _ => (setPaused_still _ _).bind fun _ => .pure _) fun _ => ?_
    exact tell_still _ _ _
  intro s
  rw [resume, Update.run_look]
  split
  · exact IsTrans.trans _ _ _ ⟨.setKernel (by constructor <;> rfl), rfl⟩ (hrest _)
  · exact refl s

/-- Resuming a kernel leaves every process its pid. -/
theorem resume_frame (kernel : RecordId) : Keeps (Frame SamePid) (resume kernel) :=
  fun s => (resume_still kernel s).frame.mono fun _ _ _ h => by rw [SamePid, h]

/-- All processes of the set are terminated, and then the set is cleared. -/
theorem terminateProcesses_frame (kernel : RecordId) (s : Machine) : ∃ t, Frame SamePid s t ∧
    (terminateProcesses kernel (pure ()) s).2 = t.withKernel kernel { t.kernel kernel with processes := {} } := by
  have hall (ids : List RecordId) : Keeps (Frame SamePid) (do for id in ids do terminateProcess id none) :=
    .forIn fun _ _ => (terminateProcess_frame _ _).bind fun _ => .pure _
  exact ⟨_, IsTrans.trans _ _ _ (hall _ s) (hall _ _), rfl⟩

/-- The kernel that takes no more processes. -/
def closing (s : Machine) (kernel : RecordId) : Machine := s.withKernel kernel { s.kernel kernel with shuttingDown := true }

/-- Once the process that does the work is created, the set is cleared or the work cannot be done. -/
theorem ShutsDown.of_creates {s s₁ c t : Machine} (h : Frame SamePid s s₁) (hc : Creates kernel false (s₁.closing kernel) c)
    (ht : Frame SamePid c t ∨
      ∃ u, Frame SamePid c u ∧ Frame SamePid (u.withKernel kernel { u.kernel kernel with processes := {} }) t) :
    ShutsDown kernel s t := by
  have hclosing : (s₁.closing kernel).kernel kernel = { s₁.kernel kernel with shuttingDown := true } := by
    rw [closing, kernel_withKernel, if_pos rfl]
  have hkernel := hc.kernel
  rw [hclosing] at hkernel
  have hs := h.kernel kernel
  have hnext : s.nextId ≤ c.nextId := by
    rw [hc.nextId]
    exact Nat.le_succ_of_le h.nextId
  have hpid (id : RecordId) (hid : id < s.nextId) : (c.process id).pid = (s.process id).pid := by
    rw [hc.process id (Nat.ne_of_lt (Nat.lt_of_lt_of_le hid h.nextId))]
    exact h.process id
  -- what the last part makes of the machine in which the process is created
  have hlast : ∃ set, (set = {} ∨ set = (c.kernel kernel).processes) ∧ c.nextId ≤ t.nextId ∧
      (∀ id, (t.process id).pid = (c.process id).pid) ∧
      Kernel.SameSet { c.kernel kernel with processes := set } (t.kernel kernel) := by
    rcases ht with ht | ⟨u, hu, ht⟩
    · exact ⟨_, .inr rfl, ht.nextId, ht.process, ht.kernel kernel⟩
    · have hset := ht.kernel kernel
      rw [kernel_withKernel, if_pos rfl] at hset
      have hsame := hu.kernel kernel
      exact ⟨{}, .inl rfl, Nat.le_trans hu.nextId ht.nextId, fun id => (ht.process id).trans (hu.process id), hset.processes,
        hset.nextServicePid.trans hsame.nextServicePid, hset.nextApplicationPid.trans hsame.nextApplicationPid,
        hset.shuttingDown.trans hsame.shuttingDown, hset.config.trans hsame.config⟩
  obtain ⟨set, hset, hnext', hpid', hk⟩ := hlast
  constructor
  case nextId => exact Nat.le_trans hnext hnext'
  case pid => exact fun id hid => (hpid' id).trans (hpid id hid)
  case nextServicePid =>
    rw [hk.nextServicePid, ← hs.nextServicePid]
    exact hkernel.nextServicePid
  case nextApplicationPid =>
    rw [hk.nextApplicationPid, ← hs.nextApplicationPid]
    exact hkernel.nextApplicationPid
  case shuttingDown => exact hk.shuttingDown.trans hkernel.shuttingDown
  case processes =>
    rw [hk.processes, ← hs.processes]
    exact hset.imp_right fun h => h.trans hkernel.processes

/-- What the process that is made for a shutdown does. -/
def shutDownFrom (kernel host : RecordId) : Action Unit := do
  let _ ← moveProcess host .start
  let thread ← createThread host (← takeThreadId kernel) 0 .kernel .guest
  startThread thread
  moveThread thread .run
  let seen ← (terminateProcesses kernel (pure ()) : Update Unit)
  exitThread thread .returned
  terminateProcess host none
  log .info "All processes terminated"
  return seen

/-- If only one process became another with the pid it had, all have theirs. -/
theorem Only.samePid {id other : RecordId} {p q : Process} (h : Only id other p q) : SamePid other p q := h.2.1

/-- A shutdown leaves pids alone, and empties the process set in between if it comes so far. -/
theorem shutDownFrom_frame (kernel host : RecordId) (s : Machine) : Frame SamePid s ((shutDownFrom kernel host).run s).2 ∨
    ∃ t, Frame SamePid s t ∧
      Frame SamePid (t.withKernel kernel { t.kernel kernel with processes := {} }) ((shutDownFrom kernel host).run s).2 := by
  have hmove : Frame SamePid s _ := (startProcess_only host s).mono fun _ _ _ h => h.samePid
  rw [shutDownFrom, Action.run_lift_bind, Action.run_lift_bind, Action.run_bind]
  generalize (moveProcess host .start s).2 = s₁ at hmove ⊢
  have htake : Frame SamePid s _ := IsTrans.trans _ _ _ hmove (takeThreadId_frame kernel s₁)
  generalize takeThreadId kernel s₁ = r at htake ⊢
  have hthread : Frame SamePid s _ := IsTrans.trans _ _ _ htake
    ((createThread_frame host r.1 0 .kernel .guest r.2).mono fun _ _ _ h => h.samePid)
  rcases hrun : (createThread host r.1 0 .kernel .guest).run r.2 with ⟨e | thread, s₂⟩ <;> rw [hrun] at hthread
  · exact .inl hthread
  · right
    dsimp only
    rw [Action.run_lift_bind, Action.run_lift_bind, Action.run_lift_bind, Action.run_lift_bind, Action.run_lift_bind,
      Action.run_lift_bind]
    have hbegin : Frame SamePid s _ := IsTrans.trans _ _ _ hthread
      (IsTrans.trans _ _ _ (startThread_frame thread s₂) (moveThread_frame thread .run _))
    generalize (moveThread thread .run (startThread thread s₂).2).2 = s₃ at hbegin ⊢
    obtain ⟨t, ht, hclear⟩ := terminateProcesses_frame kernel s₃
    refine ⟨t, IsTrans.trans _ _ _ hbegin ht, ?_⟩
    rw [hclear]
    generalize t.withKernel kernel { t.kernel kernel with processes := {} } = u
    rw [Action.run_pure]
    exact IsTrans.trans _ _ _ (exitThread_frame thread .returned u)
      (IsTrans.trans _ _ _ (terminateProcess_frame host none _) (log_frame _ _ _))

/-- What a shutdown makes of the process set and the pids, whether it fails or not. -/
theorem terminateAll_shutsDown (kernel : RecordId) (s : Machine) :
    ShutsDown kernel s ((terminateAll kernel (pure ())).run s).2 := by
  obtain ⟨-, hc⟩ := createProcess_creates kernel "KernelTermination" 0 .service {} ((resume kernel s).2.closing kernel)
  refine .of_creates (resume_frame kernel s) hc ?_
  unfold terminateAll
  rw [Action.run_lift_bind, Action.run_look, Action.run_lift_bind, Action.run_lift_bind]
  exact shutDownFrom_frame kernel _ _

end Machine

end Microkernel
