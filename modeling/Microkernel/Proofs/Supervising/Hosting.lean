import Microkernel.Proofs.Capability.Cores
import Microkernel.Proofs.Memory.Regions
import Microkernel.Proofs.Supervising.Launching

/-!
# Starts that succeed

A kernel takes a service host if the capabilities of one are accepted for its cores, it is not shut down and it has two free pages
(`Kernel.TakesHost`). Then a server starts on it, and so does an empty set whose manager's name is free (`start_succeeds`). A set whose
manager does not start leaves the name free. The capabilities are accepted for 1 to 64 cores, and for just those larger numbers of which
the word of service hosts names cores that there are (`Capability.acceptsHost_iff`).
-/

namespace Microkernel

/-! ## The capabilities of a host -/

namespace Capability

open Capabilities

variable {coreCount : UInt32}

/-- The capabilities of a service host can be written for so many cores, they are accepted, and they grant its priority. -/
def AcceptsHost (coreCount : UInt32) : Prop := ∃ words c, serviceCapabilities? coreCount = some words ∧
  parse words coreCount.toNat = .ok c ∧ c.allowsPriority ({} : ServerOptions).priority.toNat = true

/-- The default words of service hosts are accepted behind a word about cores, and leave the priorities alone. -/
theorem run_serviceDefault (coreCount priorities cores : Nat) : ∃ c,
    Reading.run coreCount { corePrioritySeen := true, granted := { priorityMask := priorities, coreMask := cores } } serviceDefault =
      .ok c ∧ c.priorityMask = priorities := ⟨_, rfl, rfl⟩

/-- The exact numbers of cores: from the low bytes of the last core's number the word of service hosts makes a first and a last core,
which have to fit the mask and a byte. -/
theorem acceptsHost_iff (coreCount : UInt32) : AcceptsHost coreCount ↔ 1 ≤ coreCount.toNat ∧ (coreCount.toNat - 1) % 256 < 64 ∧
    (coreCount.toNat - 1) % 256 + (coreCount.toNat - 1) / 256 % 256 < 256 := by
  have hwrite := serviceCorePriority?_eq coreCount
  constructor
  · rintro ⟨words, c, hwords, hparse, -⟩
    obtain ⟨word, hword, rfl⟩ := Option.map_eq_some_iff.1 hwords
    rw [hword] at hwrite
    split at hwrite
    · next hsum =>
      obtain ⟨hkind, -, -, hmin, hmax⟩ := hostWord_fields (Nat.mod_lt _ (by decide)) hsum (Option.some.inj hwrite)
      obtain ⟨hnames, hmask⟩ := Reading.namesCores_of_run hparse word List.mem_cons_self hkind
      have hmachine := hnames.machine
      exact ⟨by omega, by omega, hsum⟩
    · cases hwrite
  · rintro ⟨hone, hlow, hsum⟩
    have hmachine : (coreCount.toNat - 1) % 256 + (coreCount.toNat - 1) / 256 % 256 < coreCount.toNat := by
      by_cases hsmall : (coreCount.toNat - 1) / 256 = 0
      · rw [hsmall]
        omega
      · omega
    rw [if_pos hsum] at hwrite
    obtain ⟨word, hword⟩ : ∃ word, word = UInt32.ofNat (((coreCount.toNat - 1) % 256 + (coreCount.toNat - 1) / 256 % 256) * 2 ^ 24 +
      (coreCount.toNat - 1) % 256 * 2 ^ 16 + 0x63F7) := ⟨_, rfl⟩
    rw [← hword] at hwrite
    obtain ⟨hkind, hhighest, hlowest, hmin, hmax⟩ := hostWord_fields (Nat.mod_lt _ (by decide)) hsum hword
    obtain ⟨c, hrun, hpriorities⟩ := run_serviceDefault coreCount.toNat (rangeMask (highestOf word) (lowestOf word))
      (rangeMask (minCoreOf word) (maxCoreOf word))
    refine ⟨word :: serviceDefault, c, ?_, ?_, ?_⟩
    · rw [serviceCapabilities?, hwrite]
      rfl
    · rw [parse, Reading.run_cons (ne_mapRange_of_corePriority hkind), Reading.accept_cores hkind, if_neg Bool.false_ne_true,
        if_neg (by omega), if_neg (by omega), if_neg (by omega)]
      exact hrun
    · rw [allowsPriority, hpriorities, hhighest, hlowest]
      decide

/-- Every kernel with 1 to 64 cores can have service hosts. -/
theorem acceptsHost_of_le (hone : 1 ≤ coreCount.toNat) (hcores : coreCount.toNat ≤ 64) : AcceptsHost coreCount :=
  (acceptsHost_iff coreCount).2 ⟨hone, by omega, by omega⟩

/-- The last of 257 cores is not one that the word can name; the host gets the first two. -/
example : AcceptsHost 257 := (acceptsHost_iff 257).2 (by decide)

end Capability

namespace Region

variable {r : Region} {host : Host} {pages : PageList}

/-- A region keeps its kind when pages are taken from it. -/
theorem allocate_kind (r : Region) (host : Host) (n : Nat) : (r.allocate host n).1.kind = r.kind := by
  unfold allocate
  split
  · rfl
  · split
    · rfl
    · split <;> rfl

/-- Only a region that a kernel has hands pages out. -/
theorem mem_of_allocate {k : Kernel} {kind : RegionKind} {n : Nat} (h : ((k.region kind).allocate host n).2.2 = .ok pages) :
    k.region kind ∈ k.regions ∧ (k.region kind).kind = kind := by
  unfold Kernel.region at h ⊢
  cases hfind : k.regions.find? (·.kind = kind) with
  | some r => exact ⟨List.mem_of_find?_eq_some hfind, by simpa using List.find?_some hfind⟩
  | none =>
    rw [hfind] at h
    unfold allocate at h
    split at h
    · cases h
    · cases h

end Region

namespace Kernel

/-- There are two more pages for a service host: one for its code and one for its thread. -/
def HasRoom (k : Kernel) : Prop :=
  let first := (k.region .service).allocate k.host 1
  first.2.2.isOk = true ∧ (first.1.allocate first.2.1 1).2.2.isOk = true

instance (k : Kernel) : Decidable k.HasRoom := inferInstanceAs (Decidable (_ ∧ _))

/-- The kernels have the same memory and take the same processes. -/
structure SameGround (k k' : Kernel) : Prop where
  config : k'.config = k.config
  regions : k'.regions = k.regions
  host : k'.host = k.host
  shuttingDown : k'.shuttingDown = k.shuttingDown

/-- A kernel that accepts the capabilities of a service host, is not shut down and has memory can start one. -/
structure TakesHost (k : Kernel) : Prop where
  cores : Capability.AcceptsHost k.config.cpuCoreCount
  isOpen : k.shuttingDown = false
  room : k.HasRoom

/-- A kernel on the same ground takes a host as well. -/
theorem TakesHost.same {k k' : Kernel} (h : k.TakesHost) (hsame : k.SameGround k') : k'.TakesHost := by
  refine ⟨by rw [hsame.config]; exact h.cores, hsame.shuttingDown.trans h.isOpen, ?_⟩
  have hregion : k'.region .service = k.region .service := by rw [region, hsame.regions, region]
  rw [HasRoom, hregion, hsame.host]
  exact h.room

end Kernel

namespace AddressSpace

/-- A mapping that is aligned and lies beside all others is made. -/
theorem map_succeeds {space : AddressSpace} {m : Mapping} (haligned : isPageAligned m.address = true) (hsize : 0 < m.size)
    (hword : m.limit < wordLimit) (hfree : space.isFree m.address m.size = true) :
    space.map m = .ok ⟨insert m space.mappings⟩ := by
  have hend : ¬wordLimit ≤ m.address + m.size := Nat.not_le.2 hword
  unfold map
  rw [haligned, hfree, if_neg (by decide), if_neg (Nat.pos_iff_ne_zero.1 hsize), if_neg]
  rw [Bool.not_true, Bool.or_false, decide_eq_true_eq]
  exact hend

end AddressSpace

namespace Machine

variable {α β : Type} {s t u : Machine} {kernel id : RecordId}

/-! ## The memory of a host -/

/-- A process has taken pages from its region and has another address space. -/
structure TakesPages (id : RecordId) (n : Nat) (space : AddressSpace) (s t : Machine) : Prop where
  process : t.process id = { s.process id with space }
  kernel : t.kernel (s.process id).kernel =
    (s.afterDrawing (s.process id).kernel (s.process id).region n).kernel (s.process id).kernel

/-- Pages that there are can be mapped if the address space takes them. -/
theorem claim_takes {n : Nat} (program : AllocationId → PageList → Action β) {pages : PageList} {space : AddressSpace} {b : β}
    (hdraw : (s.drawn (s.process id).kernel (s.process id).region n).2.2 = .ok pages)
    (hprogram : ∀ t, t.process id = s.process id → (program s.nextId pages).run t = (.ok b, (setSpace id space t).2)) :
    ∃ t, (do
      let (allocation, pages) ← allocateFor id n
      givingBack allocation (program allocation pages) : Action β).run s = (.ok b, t) ∧ TakesPages id n space s t := by
  have hallocate : (allocateFor id n).run s = (allocatePages (s.process id).kernel (s.process id).region n).run s := by
    rw [allocateFor, Action.run_look]
  rw [Action.run_bind, hallocate, allocatePages_run, hdraw]
  dsimp only
  generalize hdrawn : ({ s.afterDrawing (s.process id).kernel (s.process id).region n with
    nextId := s.nextId + 1
    allocations := s.allocations.insert s.nextId { kernel := (s.process id).kernel, region := (s.process id).region, pages } } :
    Machine) = m
  have hprocess : m.process id = s.process id := by subst hdrawn; rfl
  rw [givingBack, Action.run_tryCatch, hprogram m hprocess]
  refine ⟨_, rfl, ?_, ?_⟩
  · have hset : (setSpace id space m).2.process id = { m.process id with space } := (process_insert m id id _).trans (if_pos rfl)
    rw [hset, hprocess]
  · subst hdrawn
    rfl

/-- What a service host has once its code is mapped. -/
def codeMapping (allocation : AllocationId) (pages : PageList) : Mapping :=
  { Mapping.ofPages serviceCodeAddress.toNat pages .readExecute .code with backing := [allocation] }

/-- Mapping an allocation succeeds where its space maps the pages. -/
theorem mapOwned_of_map {address : Nat} {allocation : AllocationId} {pages : PageList} {permission : Permission} {state : MemoryState}
    {space : AddressSpace}
    (h : (s.process id).space.map { Mapping.ofPages address pages permission state with backing := [allocation] } = .ok space) :
    (mapOwned id address allocation pages permission state).run s = (.ok (), (setSpace id space s).2) := by
  rw [mapOwned, Action.run_look, Action.run_except_bind]
  dsimp only
  rw [h]
  rfl

/-- The code of a service host is mapped into its empty address space. -/
theorem mapCode_takes (hspace : (s.process id).space = {}) {pages : PageList}
    (hdraw : (s.drawn (s.process id).kernel (s.process id).region 1).2.2 = .ok pages) :
    ∃ t, (mapCode id serviceCodeAddress.toNat 1).run s = (.ok (), t) ∧
      TakesPages id 1 ⟨[codeMapping s.nextId pages]⟩ s t := by
  have hsize : pages.size = pageSize := (Region.allocate_size hdraw).trans (Nat.one_mul _)
  unfold mapCode
  rw [if_pos Nat.one_ne_zero]
  refine claim_takes (fun allocation pages => mapOwned id serviceCodeAddress.toNat allocation pages .readExecute .code) hdraw
    fun t ht => mapOwned_of_map ?_
  rw [ht, hspace]
  refine AddressSpace.map_succeeds (m := codeMapping s.nextId pages)
    (by decide : isPageAligned serviceCodeAddress.toNat = true) ?_ ?_ rfl
  · change 0 < pages.size
    rw [hsize]
    decide
  · change serviceCodeAddress.toNat + pages.size < wordLimit
    rw [hsize]
    decide

/-- Behind its code there is room for the message buffer of a thread. -/
theorem map_behindCode (allocation : AllocationId) {code : PageList} {m : Mapping} (hcode : code.size = pageSize)
    (haddress : m.address = threadLocalBase) (hsize : m.size = pageSize) :
    (⟨[codeMapping allocation code]⟩ : AddressSpace).map m = .ok ⟨AddressSpace.insert m [codeMapping allocation code]⟩ := by
  refine AddressSpace.map_succeeds (by rw [haddress]; rfl) (by rw [hsize]; decide) ?_ ?_
  · rw [Mapping.limit, haddress, hsize]
    decide
  · have hbefore : (codeMapping allocation code).address < min (threadLocalBase + pageSize) (wordLimit - 1) :=
      (by decide : serviceCodeAddress.toNat < min (threadLocalBase + pageSize) (wordLimit - 1))
    have hlast : (⟨[codeMapping allocation code]⟩ : AddressSpace).lastBefore (min (threadLocalBase + pageSize) (wordLimit - 1)) =
        some (codeMapping allocation code) := by
      unfold AddressSpace.lastBefore
      rw [List.filter_cons, if_pos (decide_eq_true hbefore)]
      rfl
    have hlimit : (codeMapping allocation code).limit = serviceCodeAddress.toNat + pageSize := by
      rw [← hcode]
      rfl
    rw [haddress, hsize, AddressSpace.isFree, hlast]
    dsimp only
    rw [hlimit]
    decide

/-- A process with nothing but its code mapped gets thread-local memory, if its region has a page. -/
theorem allocateThreadLocal_takes {allocation : AllocationId} {code pages : PageList} (hcode : code.size = pageSize)
    (hspace : (s.process id).space = ⟨[codeMapping allocation code]⟩)
    (hdraw : (s.drawn (s.process id).kernel (s.process id).region 1).2.2 = .ok pages) :
    ∃ address t, (allocateThreadLocal id).run s = (.ok address, t) := by
  have hsize : pages.size = pageSize := (Region.allocate_size hdraw).trans (Nat.one_mul _)
  have hfind : (⟨[codeMapping allocation code]⟩ : AddressSpace).findFree threadLocalBase threadLocalSize pageSize = .ok threadLocalBase :=
    rfl
  obtain ⟨t, hrun, -⟩ := claim_takes (fun allocation pages => do
      let address ← ((← get).process id).space.findFree threadLocalBase threadLocalSize pageSize
      mapOwned id address allocation pages .readWrite .threadLocal
      return address) hdraw fun t ht => by
    have hmap := map_behindCode (m := { Mapping.ofPages threadLocalBase pages .readWrite .threadLocal with backing := [s.nextId] })
      allocation hcode rfl hsize
    rw [Action.run_look, Action.run_except_bind, ht, hspace, hfind]
    dsimp only
    rw [Action.run_bind, mapOwned_of_map (by rw [ht, hspace]; exact hmap)]
    rfl
  exact ⟨_, t, hrun⟩

/-! ## Hosts -/

/-- A kernel from which pages were drawn has the region and the host that are left, and is the same otherwise. -/
theorem kernel_afterDrawing (s : Machine) (kernel : RecordId) (kind : RegionKind) (n : Nat) :
    (s.afterDrawing kernel kind n).kernel kernel =
      { (s.kernel kernel).setRegion (s.drawn kernel kind n).1 with host := (s.drawn kernel kind n).2.1 } :=
  (kernel_insert _ _ _ _).trans (if_pos rfl)

/-- Whoever draws from a region again draws from what was left of it. -/
theorem drawn_again {kind : RegionKind} {m n : Nat} {pages : PageList} (h : (s.drawn kernel kind n).2.2 = .ok pages)
    (ht : (t.kernel kernel).regions = ((s.afterDrawing kernel kind n).kernel kernel).regions)
    (hhost : (t.kernel kernel).host = ((s.afterDrawing kernel kind n).kernel kernel).host) :
    t.drawn kernel kind m = (s.drawn kernel kind n).1.allocate (s.drawn kernel kind n).2.1 m := by
  obtain ⟨hmem, hkind⟩ := Region.mem_of_allocate h
  have hnew : kind = (s.drawn kernel kind n).1.kind := ((Region.allocate_kind _ _ _).trans hkind).symm
  have hregion : (t.kernel kernel).region kind = (s.drawn kernel kind n).1 := by
    rw [Kernel.region, ht, kernel_afterDrawing]
    change (((s.kernel kernel).regions.map fun old => if old.kind = (s.drawn kernel kind n).1.kind then (s.drawn kernel kind n).1
      else old).find? (·.kind = kind)).getD default = _
    rw [Kernel.find?_setRegion _ _ _ ⟨_, hmem, hkind⟩, if_pos hnew]
    rfl
  rw [drawn, hregion, hhost, kernel_afterDrawing]

/-- A thread is created if its process is not about to end, grants its priority and has room for its thread-local memory. -/
theorem createThread_succeeds {threadId priority address : Nat} {body : ThreadBody} (hstate : (s.process id).state.isTerminating = false)
    (hgrants : (s.process id).capabilities.allowsPriority priority = true) (hlocal : (allocateThreadLocal id).run s = (.ok address, t)) :
    ∃ thread u, (createThread id threadId priority .guest body).run s = (.ok thread, u) := by
  unfold createThread
  rw [Action.run_look]
  dsimp only
  rw [hstate, hgrants, if_neg Bool.false_ne_true, if_neg (by decide), Action.run_bind, hlocal]
  exact ⟨_, _, rfl⟩

/-- A process that does not run yet and has no memory. -/
structure IsNew (kernel : RecordId) (capabilities : Capabilities) (p : Process) : Prop where
  kernel : p.kernel = kernel
  region : p.region = .service
  space : p.space = {}
  state : p.state = .created
  capabilities : p.capabilities = capabilities

/-- A process that was just created does not run yet and has no memory. -/
theorem createProcess_isNew (kernel : RecordId) (name : String) (programId : Nat) (capabilities : Capabilities) (s : Machine) :
    let t := (createProcess kernel name programId .service capabilities s).2
    IsNew kernel capabilities (t.process s.nextId) ∧ (s.kernel kernel).SameGround (t.kernel kernel) := by
  have hprocess (p : Process) (k : Kernel) :
      ({ s with nextId := s.nextId + 1, kernels := s.kernels.insert kernel k, processes := s.processes.insert s.nextId p } :
        Machine).process s.nextId = p := (process_insert _ _ _ _).trans (if_pos rfl)
  have hkernel (p : Process) (k : Kernel) :
      ({ s with nextId := s.nextId + 1, kernels := s.kernels.insert kernel k, processes := s.processes.insert s.nextId p } :
        Machine).kernel kernel = k := (kernel_insert _ _ _ _).trans (if_pos rfl)
  constructor
  · have h := hprocess {
      kernel, pid := ((s.kernel kernel).takePid false).1, name, programId
      isApplication := false
      creationOrder := ((s.kernel kernel).takePid false).2.nextCreationOrder
      capabilities
      region := .service
      handles := .new ((capabilities.handleTableSize.filter (0 < ·)).getD
        ((s.kernel kernel).takePid false).2.config.defaultHandleTableSize) }
      { ((s.kernel kernel).takePid false).2 with nextCreationOrder := ((s.kernel kernel).takePid false).2.nextCreationOrder + 1 }
    change IsNew kernel capabilities (Machine.process _ s.nextId)
    constructor
    case kernel => exact congrArg Process.kernel h
    case region => exact congrArg Process.region h
    case space => exact congrArg Process.space h
    case state => exact congrArg Process.state h
    case capabilities => exact congrArg Process.capabilities h
  · have h : (createProcess kernel name programId .service capabilities s).2.kernel kernel =
        { ((s.kernel kernel).takePid false).2 with nextCreationOrder := ((s.kernel kernel).takePid false).2.nextCreationOrder + 1 } :=
      hkernel _ _
    rw [h]
    constructor <;> rfl

/-- A new process of a service host gets its code and its thread. -/
theorem StartCall.equip_succeeds {x : StartCall} {capabilities : Capabilities} (hx : x.creation = serviceHost)
    (hnew : IsNew kernel capabilities (s.process id)) (hgrants : capabilities.allowsPriority x.priority = true)
    (hroom : (s.kernel kernel).HasRoom) : ∃ thread t, (x.equip kernel id).run s = (.ok thread, t) := by
  obtain ⟨hfirst, hsecond⟩ := hroom
  have hdraw : ∃ code, (s.drawn kernel .service 1).2.2 = .ok code := by
    cases h : (s.drawn kernel .service 1).2.2 with
    | ok code => exact ⟨code, rfl⟩
    | error e =>
      rw [drawn] at h
      rw [h] at hfirst
      cases hfirst
  obtain ⟨code, hcode⟩ := hdraw
  have hcode' : (s.drawn (s.process id).kernel (s.process id).region 1).2.2 = .ok code := by
    rw [hnew.kernel, hnew.region]
    exact hcode
  obtain ⟨t, hrun, htakes⟩ := mapCode_takes hnew.space hcode'
  have hkernel := htakes.kernel
  rw [hnew.kernel, hnew.region] at hkernel
  have hequip : (x.equip kernel id).run s =
      (createThread id (takeThreadId kernel t).1 x.priority .guest x.body).run (takeThreadId kernel t).2 := by
    have hmap : (mapCode id serviceHost.codeAddress.toNat serviceHost.codePages.toNat).run s = (.ok (), t) := hrun
    rw [equip, hx, Action.run_bind, hmap]
    rfl
  have hprocess : (takeThreadId kernel t).2.process id = { s.process id with space := ⟨[codeMapping s.nextId code]⟩ } := htakes.process
  have hkept : (takeThreadId kernel t).2.kernel kernel = { t.kernel kernel with nextThreadId := (t.kernel kernel).nextThreadId + 1 } :=
    (kernel_insert _ _ _ _).trans (if_pos rfl)
  have hagain : (takeThreadId kernel t).2.drawn kernel .service 1 =
      (s.drawn kernel .service 1).1.allocate (s.drawn kernel .service 1).2.1 1 :=
    drawn_again hcode (by rw [hkept, ← hkernel]) (by rw [hkept, ← hkernel])
  have hlocal : ∃ pages, ((takeThreadId kernel t).2.drawn ((takeThreadId kernel t).2.process id).kernel
      ((takeThreadId kernel t).2.process id).region 1).2.2 = .ok pages := by
    rw [hprocess]
    dsimp only
    rw [hnew.kernel, hnew.region, hagain]
    cases h : ((s.drawn kernel .service 1).1.allocate (s.drawn kernel .service 1).2.1 1).2.2 with
    | ok pages => exact ⟨pages, rfl⟩
    | error e =>
      rw [drawn] at h
      rw [h] at hsecond
      cases hsecond
  obtain ⟨pages, hpages⟩ := hlocal
  obtain ⟨address, u, hbuffer⟩ := allocateThreadLocal_takes ((Region.allocate_size hcode).trans (Nat.one_mul _))
    (by rw [hprocess]) hpages
  rw [hequip]
  refine createThread_succeeds ?_ ?_ hbuffer
  · rw [hprocess]
    dsimp only
    rw [hnew.state]
    rfl
  · rw [hprocess]
    dsimp only
    rw [hnew.capabilities]
    exact hgrants

/-- A service host whose capabilities are admitted starts if there is memory for it. -/
theorem StartCall.start_succeeds {x : StartCall} {capabilities : Capabilities} (hx : x.creation = serviceHost)
    (hadmitted : x.admitted? (s.kernel kernel) = some capabilities) (hgrants : capabilities.allowsPriority x.priority = true)
    (hroom : (s.kernel kernel).TakesHost) : ∃ id t, (x.start kernel).run s = (.ok id, t) := by
  have hcreate : x.create kernel capabilities s = createProcess kernel "Service" 0 .service capabilities s := by
    rw [create, hx]
    rfl
  obtain ⟨hnew, hground⟩ := createProcess_isNew kernel "Service" 0 capabilities s
  obtain ⟨thread, t, hequip⟩ := equip_succeeds hx hnew hgrants (hroom.same hground).room
  have hid : (x.create kernel capabilities s).1 = s.nextId := (createProcess_creates _ _ _ _ _ s).1
  rw [start_of_admitted hadmitted, hid, makeThread, Action.run_tryCatch, hcreate, hequip]
  exact ⟨_, _, rfl⟩

/-- A server starts on a kernel that takes a host. -/
theorem startServer_succeeds (name : String) (port : RecordId) (blueprint : Blueprint) (h : (s.kernel kernel).TakesHost) :
    ∃ server t, (startServer kernel name port blueprint {}).run s = (.ok server, t) := by
  obtain ⟨words, capabilities, hwords, hparse, hgrants⟩ := h.cores
  let call : StartCall := ⟨serviceHost, words, ({} : ServerOptions).priority.toNat, .server s.nextId⟩
  have hadmitted : call.admitted? ((freshId s).2.kernel kernel) = some capabilities := by
    change call.admitted? (s.kernel kernel) = _
    rw [StartCall.admitted?, h.isOpen, if_neg Bool.false_ne_true]
    change (Capabilities.parse words _).toOption.filter _ = _
    rw [hparse]
    exact (Option.filter_some ..).trans (if_pos hgrants)
  obtain ⟨process, t, hstart⟩ := StartCall.start_succeeds (x := call) rfl hadmitted hgrants h
  have hwords' : Capability.serviceCapabilities? ((freshId s).2.kernel kernel).config.cpuCoreCount = some words := hwords
  have hcall : startProcess kernel serviceHost words ({} : ServerOptions).priority.toNat (.server (freshId s).1) =
    call.start kernel := rfl
  unfold startServer
  rw [Action.run_lift_bind, Action.run_look]
  dsimp only
  rw [hwords']
  dsimp only
  rw [pure_bind, Action.run_bind, hcall, hstart]
  exact ⟨_, _, rfl⟩

/-! ## The service manager -/

/-- The name of the service manager is taken. -/
def HasManager (s : Machine) (kernel : RecordId) : Bool := (s.kernel kernel).namedPorts.contains managerPortName

/-- Whether or not there was such a port, there is none afterwards. -/
theorem unregisterNamedPort_frees (kernel : RecordId) (s : Machine) :
    ((unregisterNamedPort kernel managerPortName).run s).2.HasManager kernel = false := by
  unfold unregisterNamedPort HasManager
  rw [Action.run_look]
  dsimp only
  split
  · next hfree =>
    rw [Bool.not_eq_true'] at hfree
    exact hfree
  · have hkernel : ((setKernel kernel { s.kernel kernel with
        namedPorts := (s.kernel kernel).namedPorts.erase managerPortName } s).2.kernel kernel).namedPorts =
        (s.kernel kernel).namedPorts.erase managerPortName := congrArg Kernel.namedPorts ((kernel_insert _ _ _ _).trans (if_pos rfl))
    change ((setKernel kernel _ s).2.kernel kernel).namedPorts.contains managerPortName = false
    rw [hkernel, Std.TreeMap.contains_erase]
    simp

/-- A free name can be taken. -/
theorem registerNamedPort_succeeds (maxSessions : Nat) (hfree : s.HasManager kernel = false) :
    ∃ port t, (registerNamedPort kernel managerPortName maxSessions).run s = (.ok port, t) ∧
      (s.kernel kernel).SameGround (t.kernel kernel) := by
  have hfree' : ¬(s.kernel kernel).namedPorts.contains managerPortName = true := by
    rw [Bool.not_eq_true]
    exact hfree
  unfold registerNamedPort
  rw [Action.run_look, if_neg hfree', Action.run_lift_bind, Action.run_look, Action.run_lift_bind, Action.run_lift_bind]
  refine ⟨_, _, rfl, ?_⟩
  have hsame (u : Machine) (k : Kernel) (event : KernelEvent) (h : (s.kernel kernel).SameGround k) :
      (s.kernel kernel).SameGround ((audit kernel event (setKernel kernel k u).2).2.kernel kernel) := by
    have hkernel : (setKernel kernel k u).2.kernel kernel = k := (kernel_insert _ _ _ _).trans (if_pos rfl)
    have haudit : (audit kernel event (setKernel kernel k u).2).2.kernel kernel =
        (((setKernel kernel k u).2.kernel kernel).record event).2 := (kernel_insert _ _ _ _).trans (if_pos rfl)
    rw [haudit, hkernel]
    exact ⟨h.config, h.regions, h.host, h.shuttingDown⟩
  exact hsame _ _ _ ⟨rfl, rfl, rfl, rfl⟩

/-- The manager starts on a kernel that takes a host, if its name is free. -/
theorem startManager_succeeds (registry : RecordId) (ignoreMissing : Bool) (h : (s.kernel kernel).TakesHost)
    (hfree : s.HasManager kernel = false) : ∃ manager t, (startManager kernel registry ignoreMissing).run s = (.ok manager, t) ∧
      (t.event (t.registry registry).ready).signaled = true := by
  obtain ⟨port, t, hregister, hground⟩ := registerNamedPort_succeeds managerMaxSessions hfree
  obtain ⟨server, u, hstart⟩ := startServer_succeeds managerPortName port (.serviceManager registry ignoreMissing) (h.same hground)
  unfold startManager
  rw [Action.run_bind, hregister]
  dsimp only
  rw [Action.run_bind, Action.run_tryCatch, hstart]
  refine ⟨server, (signalEvent (u.registry registry).ready u).2, rfl, ?_⟩
  have hevent : (setEvent (u.registry registry).ready (u.event (u.registry registry).ready).raise u).2.event (u.registry registry).ready =
      (u.event (u.registry registry).ready).raise := by
    change (u.events.insert _ _).getD _ default = _
    rw [Std.TreeMap.getD_insert_self]
  exact congrArg Event.signaled hevent

/-- Whoever waits for a registry that is ready does not wait. -/
theorem waitReady_succeeds {registry : RecordId} (timeout : Timeout) (h : (s.event (s.registry registry).ready).signaled = true) :
    ∃ t, (waitReady registry timeout).run s = (.ok (), t) := by
  have hpoll : (poll [.event ((freshId s).2.registry registry).ready] (freshId s).2).1 = some 0 := by
    have hacquire : (tryAcquire (.event ((freshId s).2.registry registry).ready) (freshId s).2).1 = true := h
    unfold poll pollFrom
    rw [Update.run_bind, hacquire]
    rfl
  have hone : ¬maxWaitObjects < [Waitable.event ((freshId s).2.registry registry).ready].length :=
    (by decide : ¬maxWaitObjects < 1)
  unfold waitReady
  rw [Action.run_lift_bind, Action.run_look, Action.run_bind]
  unfold waitAlone beginWait
  rw [Action.run_bind, if_neg hone, if_neg Bool.false_ne_true, Action.run_lift_bind, hpoll]
  exact ⟨_, rfl⟩

/-- A service manager that fails to start gives its name back. -/
theorem startManager_frees {registry : RecordId} {ignoreMissing : Bool} {e : KernelError} (hfree : s.HasManager kernel = false)
    (h : (startManager kernel registry ignoreMissing).run s = (.error e, t)) : t.HasManager kernel = false := by
  obtain ⟨port, u, hregister, -⟩ := registerNamedPort_succeeds managerMaxSessions hfree
  unfold startManager at h
  rw [Action.run_bind, hregister] at h
  dsimp only at h
  rw [Action.run_bind, Action.run_tryCatch] at h
  rcases hstart : (startServer kernel managerPortName port (.serviceManager registry ignoreMissing) {}).run u with ⟨e' | server, v⟩ <;>
    rw [hstart] at h
  · dsimp only at h
    rw [Action.run_bind] at h
    have hfreed := unregisterNamedPort_frees kernel v
    rcases hrun : (unregisterNamedPort kernel managerPortName).run v with ⟨e'' | _, w⟩ <;> rw [hrun] at h hfreed
    · obtain ⟨-, rfl⟩ := Prod.mk.inj h
      exact hfreed
    · obtain ⟨-, rfl⟩ := Prod.mk.inj h
      exact hfreed
  · cases h

end Machine

open Machine

namespace ServerSet

variable {set : ServerSet} {s t : Machine}

/-- An empty set starts if its kernel takes a service host and the name of the manager is free. -/
theorem start_succeeds (ignoreMissing : Bool) (hnone : set.manager = none) (hempty : set.table.entries = [])
    (h : (s.kernel set.kernel).TakesHost) (hfree : s.HasManager set.kernel = false) : (set.start ignoreMissing s).1.2 = .ok () := by
  obtain ⟨manager, t, hmanager, hready⟩ := startManager_succeeds set.registry ignoreMissing h hfree
  obtain ⟨u, hwait⟩ := waitReady_succeeds (.after (managerTimeout * 1000000)) hready
  unfold start
  rw [isInitialized, hnone, if_neg (by decide), Update.run_bind, hmanager]
  dsimp only
  rw [Update.run_bind, hwait]
  dsimp only
  rw [hempty]
  rfl

/-- A set that has no manager after it was started has left the manager's name free. -/
theorem start_unmanaged {ignoreMissing : Bool} (hnone : set.manager = none) (hfree : s.HasManager set.kernel = false)
    (h : (set.start ignoreMissing s).1.1.manager = none) : (set.start ignoreMissing s).2.HasManager set.kernel = false := by
  unfold start at h ⊢
  rw [isInitialized, hnone, if_neg (by decide), Update.run_bind] at *
  rcases hmanager : (startManager set.kernel set.registry ignoreMissing).run s with ⟨e | manager, t⟩ <;> rw [hmanager] at h
  · exact startManager_frees hfree hmanager
  · exfalso
    dsimp only at h
    rw [Update.run_bind] at h
    rcases hwait : (waitReady set.registry (.after (managerTimeout * 1000000))).run t with ⟨e | _, u⟩ <;> rw [hwait] at h
    · cases h
    · obtain ⟨ids, -, hset⟩ := startEntries_launches { set with manager := some manager } set.table.entries u
      have hmanager : (startEntries { set with manager := some manager } set.table.entries u).1.1.manager = none := by
        dsimp only at h
        rw [Update.run_bind] at h
        split at h <;> exact h
      rw [hset] at hmanager
      cases hmanager

end ServerSet

end Microkernel
