import Microkernel.Machine.ServiceManager
import Microkernel.Proofs.Machine.Ports
import Microkernel.Proofs.Machine.Starting

/-!
# Names of services

A registry gives a name the client end of a port (`lookup`). Registering makes a port and binds one name, unregistering frees one,
and everything that starting a server does in between keeps the names (`SameDirectory`): so a start that fails leaves them as they
were.
-/

namespace Microkernel

variable {α : Type}

namespace Machine

/-- The client end of the port that has a name in a registry. -/
def lookup (s : Machine) (registry : RecordId) (name : String) : Option RecordId := (s.registry registry).services[name]?

/-- Setting one registry leaves the others. -/
theorem registry_insert (s : Machine) (id other : RecordId) (r : Registry) :
    { s with registries := s.registries.insert id r }.registry other = if other = id then r else s.registry other :=
  Records.getD_insert _ _ _ _ _

end Machine

/-- A registry has the same ports under the same names. -/
def SameNames (registry : RecordId) (s t : Machine) : Prop := ∀ name, t.lookup registry name = s.lookup registry name

/-- The machines have the same registries and the same ends of ports. -/
structure SameDirectory (s t : Machine) : Prop where
  registries : t.registries = s.registries
  serverPorts : t.serverPorts = s.serverPorts
  clientPorts : t.clientPorts = s.clientPorts

instance : IsPreorder Machine SameDirectory where
  refl _ := by constructor <;> rfl
  trans _ _ _ h h' := ⟨h'.1.trans h.1, h'.2.trans h.2, h'.3.trans h.3⟩

namespace SameDirectory

variable {s t u : Machine}

/-- Same directories are passed on. -/
theorem trans (h : SameDirectory s t) (h' : SameDirectory t u) : SameDirectory s u := IsTrans.trans _ _ _ h h'

/-- With the same directory, every server end of a port belongs to the port it did. -/
theorem serverPort (h : SameDirectory s t) (id : RecordId) : t.serverPort id = s.serverPort id := by
  rw [Machine.serverPort, h.serverPorts, ← Machine.serverPort]

/-- With the same directory, so does every client end. -/
theorem clientPort (h : SameDirectory s t) (id : RecordId) : t.clientPort id = s.clientPort id := by
  rw [Machine.clientPort, h.clientPorts, ← Machine.clientPort]

end SameDirectory

/-- Machines with the same registries give every name the same port. -/
theorem Machine.lookup_of_registries {s t : Machine} (h : t.registries = s.registries) (registry : RecordId) (name : String) :
    t.lookup registry name = s.lookup registry name := by
  rw [lookup, Machine.registry, h, ← Machine.registry, ← lookup]

/-- What keeps the owners and the ends of sessions and ports keeps the directory. -/
theorem Keeps.directory {p : Update α} (howners : Keeps SameOwners p) (hends : Keeps SameEnds p) : Keeps SameDirectory p :=
  fun s => ⟨(howners s).registries, (hends s).serverPorts, (hends s).clientPorts⟩

namespace Machine

/-! ## What keeps the directory -/

/-- A new number is no name. -/
theorem freshId_directory : Keeps SameDirectory freshId := fun _ => by constructor <;> rfl

/-- Lines of the journal are no names. -/
theorem log_directory (level : Level) (text : String) : Keeps SameDirectory (log level text) := fun _ => by constructor <;> rfl

/-- Waking changes no name. -/
theorem wake_directory (l : WaitList) : Keeps SameDirectory (wake l) := fun _ => by constructor <;> rfl

/-- Kernels hold no names of services. -/
theorem setKernel_directory (id : RecordId) (k : Kernel) : Keeps SameDirectory (setKernel id k) := fun _ => by constructor <;> rfl

/-- Processes hold no names. -/
theorem setProcess_directory (id : RecordId) (p : Process) : Keeps SameDirectory (setProcess id p) :=
  fun _ => by constructor <;> rfl

/-- Threads hold no names. -/
theorem setThread_directory (id : RecordId) (t : Thread) : Keeps SameDirectory (setThread id t) := fun _ => by constructor <;> rfl

/-- Servers hold no names. -/
theorem setServer_directory (id : RecordId) (x : Server) : Keeps SameDirectory (setServer id x) := fun _ => by constructor <;> rfl

/-- Audits hold no names. -/
theorem audit_directory (kernel : RecordId) (event : KernelEvent) : Keeps SameDirectory (audit kernel event) :=
  Keeps.get.bind fun _ => (setKernel_directory _ _).bind fun _ => .pure _

theorem takeThreadId_directory (kernel : RecordId) : Keeps SameDirectory (takeThreadId kernel) :=
  Keeps.get.bind fun _ => (setKernel_directory _ _).bind fun _ => .pure _

/-! ### Handles -/

/-- The end of a client side frees no name. -/
theorem closeClientSession_directory (client : RecordId) : Keeps SameDirectory (closeClientSession client) :=
  (closeClientSession_keeps client).directory (closeClientSession_ends client)

/-- The end of a server side frees no name. -/
theorem closeServerSession_directory (server : RecordId) : Keeps SameDirectory (closeServerSession server) :=
  (closeServerSession_keeps server).directory (closeServerSession_ends server)

/-- A port that is closed keeps its name. -/
theorem closePort_directory (server : RecordId) : Keeps SameDirectory (closePort server) := by
  refine Keeps.get.bind fun s => Keeps.get.bind fun s' => ?_
  split
  · refine .bind (fun _ => by constructor <;> rfl) fun _ => ?_
    refine .bind (.forIn fun server _ => (closeServerSession_directory _).bind fun _ => .pure _) fun _ => ?_
    exact Keeps.get.bind fun _ => wake_directory _
  · exact .pure _

/-- The end of a last binding frees no name. -/
theorem handleClosed_directory (object : KernelObject) : Keeps SameDirectory (handleClosed object) := by
  refine Keeps.get.bind fun s => .bind (.modify fun _ => by constructor <;> rfl) fun _ => ?_
  split
  · split
    · exact closeClientSession_directory _
    · exact closeServerSession_directory _
    · exact closePort_directory _
    · exact .pure _
  · exact .pure _

/-- A handle is no name. -/
theorem generateHandle_directory (process : RecordId) (object : KernelObject) :
    Keeps SameDirectory (generateHandle process object).run := by
  refine .run_bind (.run_lift .get) fun s => ?_
  dsimp only
  split
  · refine .run_bind (.run_lift (setProcess_directory _ _)) fun _ => .run_bind (.run_lift ?_) fun _ => .run_pure _
    exact fun _ => by constructor <;> rfl
  · split
    · exact .run_bind (.run_lift (log_directory _ _)) fun _ => .run_throw _
    · exact .run_throw _

/-- Releasing a handle frees no name, even if a session or port ends with it. -/
theorem releaseHandle_directory (process : RecordId) (handle : Handle) : Keeps SameDirectory (releaseHandle process handle) := by
  refine .forget (.run_bind (.run_lift .get) fun s => ?_)
  dsimp only
  split
  · exact .run_bind (.run_lift (setProcess_directory _ _)) fun _ => .run_lift (handleClosed_directory _)
  · exact .run_throw _

/-! ### Memory -/

/-- Pages are taken without a look at names. -/
theorem allocatePages_directory (kernel : RecordId) (kind : RegionKind) (pages : Nat) :
    Keeps SameDirectory (allocatePages kernel kind pages).run := by
  intro s
  rw [allocatePages_run]
  split <;> constructor <;> rfl

/-- Pages are given back without one. -/
theorem freeAllocation_directory (id : AllocationId) : Keeps SameDirectory (freeAllocation id) := by
  intro s
  rw [freeAllocation_run]
  split <;> constructor <;> rfl

/-- Giving pages back on failure keeps the names that the program kept. -/
theorem givingBack_directory {program : Action α} (allocation : AllocationId) (h : Keeps SameDirectory program.run) :
    Keeps SameDirectory (givingBack allocation program).run :=
  .run_tryCatch h fun e => .run_bind (.run_lift (freeAllocation_directory _)) fun _ => .run_throw e

theorem allocateFor_directory (process : RecordId) (pages : Nat) : Keeps SameDirectory (allocateFor process pages).run :=
  .run_bind (.run_lift .get) fun _ => allocatePages_directory _ _ _

theorem mapOwned_directory (process : RecordId) (address : Nat) (allocation : AllocationId) (pages : PageList)
    (permission : Permission) (state : MemoryState) :
    Keeps SameDirectory (mapOwned process address allocation pages permission state).run := by
  refine .run_bind (.run_lift .get) fun _ => .run_bind (.run_except _) fun _ => .run_lift ?_
  exact Keeps.get.bind fun _ => setProcess_directory _ _

/-- Code is mapped under the names that there are. -/
theorem mapCode_directory (process : RecordId) (address pages : Nat) :
    Keeps SameDirectory (mapCode process address pages).run := by
  unfold mapCode
  split
  · exact .run_bind (allocateFor_directory _ _) fun _ => givingBack_directory _ (mapOwned_directory _ _ _ _ _ _)
  · exact .run_pure _

theorem allocateThreadLocal_directory (process : RecordId) : Keeps SameDirectory (allocateThreadLocal process).run := by
  refine .run_bind (allocateFor_directory _ _) fun _ => givingBack_directory _ (.run_bind (.run_lift .get) fun _ => ?_)
  exact .run_bind (.run_except _) fun _ => .run_bind (mapOwned_directory _ _ _ _ _ _) fun _ => .run_pure _

/-! ### Processes and threads -/

/-- A new thread has no name. -/
theorem createThread_directory (process : RecordId) (threadId priority : Nat) (type : ThreadType) (body : ThreadBody) :
    Keeps SameDirectory (createThread process threadId priority type body).run := by
  refine .run_bind (.run_lift .get) fun s => ?_
  dsimp only
  split
  · exact .run_throw_bind _ _
  · split
    · exact .run_throw_bind _ _
    · refine .run_bind (allocateThreadLocal_directory _) fun _ => .run_bind (.run_lift freshId_directory) fun id => ?_
      refine .run_bind (.run_lift (setThread_directory _ _)) fun _ => .run_bind (.run_lift .get) fun _ => ?_
      exact .run_bind (.run_lift (setProcess_directory _ _)) fun _ => .run_pure _

/-- A new process has no name of a service. -/
theorem createProcess_directory (kernel : RecordId) (name : String) (programId : Nat) (flags : ProcessFlags)
    (capabilities : Capabilities) : Keeps SameDirectory (createProcess kernel name programId flags capabilities) :=
  Keeps.get.bind fun _ => (setKernel_directory _ _).bind fun _ => freshId_directory.bind fun _ =>
    (setProcess_directory _ _).bind fun _ => .pure _

/-- A process that is dropped leaves none. -/
theorem discardProcess_directory (id : RecordId) : Keeps SameDirectory (discardProcess id) := by
  refine Keeps.get.bind fun s => .bind (.forIn fun mapping _ => ?_) fun _ => .modify fun _ => by constructor <;> rfl
  exact .bind (.forIn fun allocation _ => (freeAllocation_directory _).bind fun _ => .pure _) fun _ => .pure _

/-- A process that moves on keeps the names. -/
theorem moveProcess_directory (id : RecordId) (event : ProcessEvent) : Keeps SameDirectory (moveProcess id event) := by
  refine Keeps.get.bind fun s => ?_
  dsimp only
  split
  · exact (setProcess_directory _ _).bind fun _ => .pure _
  · exact .pure _

/-- A thread that moves on keeps the names. -/
theorem moveThread_directory (id : RecordId) (event : ThreadEvent) : Keeps SameDirectory (moveThread id event) := by
  refine Keeps.get.bind fun s => ?_
  dsimp only
  split
  · refine (setThread_directory _ _).bind fun _ => ?_
    split
    · exact wake_directory _
    · exact .pure _
  · exact log_directory _ _

/-- Reaping processes keeps the names. -/
theorem reapTerminated_directory (kernel : RecordId) : Keeps SameDirectory (reapTerminated kernel) :=
  Keeps.get.bind fun _ => (setKernel_directory _ _).bind fun _ => .pure _

/-- Making the first thread of a process, or failing to, keeps the names. -/
theorem StartCall.makeThread_directory (x : StartCall) (kernel id : RecordId) :
    Keeps SameDirectory (x.makeThread kernel id).run := by
  refine .run_tryCatch (.run_bind (mapCode_directory _ _ _) fun _ => ?_) fun e => ?_
  · exact .run_bind (.run_lift (takeThreadId_directory _)) fun _ => createThread_directory _ _ _ _ _
  · exact .run_bind (.run_lift (discardProcess_directory _)) fun _ => .run_throw e

/-- A process that joins its kernel keeps the names. -/
theorem StartCall.join_directory (x : StartCall) (kernel id thread : RecordId) :
    Keeps SameDirectory (x.join kernel id thread) := by
  have hlast (k : Kernel) (text : String) (event : KernelEvent) : Keeps SameDirectory (do
      setKernel kernel k
      log .info text
      let _ ← audit kernel event
      startThread thread) := by
    refine (setKernel_directory _ _).bind fun _ => (log_directory _ _).bind fun _ => (audit_directory _ _).bind fun _ => ?_
    exact (moveThread_directory _ _).bind fun _ => Keeps.get.bind fun _ => setThread_directory _ _
  refine Keeps.get.bind fun s => Keeps.get.bind fun s' => ?_
  dsimp only
  split
  · exact (Keeps.get.bind fun _ => setProcess_directory _ _).bind fun _ => hlast _ _ _
  · exact hlast _ _ _

/-- Whether or not a process is started, no name and no port is touched. -/
theorem StartCall.start_directory (x : StartCall) (kernel : RecordId) : Keeps SameDirectory (x.start kernel).run := by
  intro s
  cases hadmitted : x.admitted? (s.kernel kernel) with
  | none =>
    obtain ⟨e, journal, hrun⟩ := start_of_refused hadmitted
    rw [hrun]
    constructor <;> rfl
  | some capabilities =>
    have hcreate : SameDirectory s (x.create kernel capabilities s).2 := createProcess_directory _ _ _ _ _ s
    have hmake := x.makeThread_directory kernel (x.create kernel capabilities s).1 (x.create kernel capabilities s).2
    rw [start_of_admitted hadmitted]
    rcases hrun : (x.makeThread kernel (x.create kernel capabilities s).1).run (x.create kernel capabilities s).2 with
      ⟨e | thread, t⟩ <;> rw [hrun] at hmake
    · exact hcreate.trans hmake
    · have henter : Keeps SameDirectory (x.enter kernel (x.create kernel capabilities s).1 thread) :=
        (moveProcess_directory _ _).bind fun _ => (reapTerminated_directory _).bind fun _ => x.join_directory _ _ _
      exact (hcreate.trans hmake).trans (henter t)

/-- Starting a server, or failing to, keeps the names: they are bound before and freed after it. -/
theorem startServer_directory (kernel : RecordId) (name : String) (port : RecordId) (blueprint : Blueprint)
    (options : ServerOptions) : Keeps SameDirectory (startServer kernel name port blueprint options).run := by
  have hhost (id : RecordId) (words : List UInt32) : Keeps SameDirectory (do
      let process ← startProcess kernel serviceHost words options.priority.toNat (.server id)
      setServer id { kernel, name, port, process, blueprint, options }
      log .info s!"{name}: server started (pid {((← get).process process).pidText})"
      return id : Action RecordId).run := by
    have hstart := StartCall.start_directory ⟨serviceHost, words, options.priority.toNat, .server id⟩ kernel
    refine .run_bind hstart fun process => ?_
    refine .run_bind (.run_lift (setServer_directory _ _)) fun _ => .run_bind (.run_lift .get) fun _ => ?_
    exact .run_bind (.run_lift (log_directory _ _)) fun _ => .run_pure _
  refine .run_bind (.run_lift freshId_directory) fun id => .run_bind (.run_lift .get) fun s => ?_
  dsimp only
  split
  · rw [pure_bind]
    exact hhost _ _
  · exact .run_throw_bind _ _

/-! ## Binding and freeing names -/

/-- The machine with other services in a registry. -/
def withServices (s : Machine) (registry : RecordId) (services : Std.TreeMap String RecordId) : Machine :=
  { s with registries := s.registries.insert registry { s.registry registry with services } }

/-- With other services, a name has the port that these give it. -/
theorem lookup_withServices (s : Machine) (registry : RecordId) (services : Std.TreeMap String RecordId) (name : String) :
    (s.withServices registry services).lookup registry name = services[name]? := by
  unfold lookup withServices
  rw [registry_insert, if_pos rfl]

/-- A name that is bound has its port, and every other name the one that it had. -/
theorem lookup_insert (s : Machine) (registry : RecordId) (name other : String) (port : RecordId) :
    (s.withServices registry ((s.registry registry).services.insert name port)).lookup registry other =
      if other = name then some port else s.lookup registry other := by
  rw [lookup_withServices, Std.TreeMap.getElem?_insert, lookup]
  simp only [compare_eq_iff]

/-- A name that is freed has none, and every other name the port that it had. -/
theorem lookup_erase (s : Machine) (registry : RecordId) (name other : String) :
    (s.withServices registry ((s.registry registry).services.erase name)).lookup registry other =
      if other = name then none else s.lookup registry other := by
  rw [lookup_withServices, Std.TreeMap.getElem?_erase, lookup]
  simp only [compare_eq_iff]

/-- A registry has a name exactly if the name has a port. -/
theorem contains_services (s : Machine) (registry : RecordId) (name : String) :
    (s.registry registry).services.contains name = (s.lookup registry name).isSome := Std.TreeMap.contains_eq_isSome_getElem?

/-- A registration or its end is told to the journal and to the kernel. -/
theorem announce_directory (text : String) (kernel : RecordId) (event : KernelEvent) : Keeps SameDirectory (do
    log .info text
    let _ ← audit kernel event) := (log_directory _ _).bind fun _ => (audit_directory _ _).bind fun _ => .pure _

/-- A free name is given to a port, and a name that is taken stays with the port that has it. -/
theorem registerPort_cases (registry : RecordId) (name : ServiceName) (port : RecordId) (s : Machine) :
    (∃ e, registerPort registry name port s = (.error e, s)) ∨
    ∃ t, registerPort registry name port s = (.ok (), t) ∧ s.lookup registry name.text = none ∧
      SameDirectory (s.withServices registry ((s.registry registry).services.insert name.text port)) t := by
  rw [registerPort, Update.run_look]
  unfold Registry.bind
  rw [contains_services]
  cases hlookup : s.lookup registry name.text with
  | some port => exact .inl ⟨_, rfl⟩
  | none => exact .inr ⟨_, rfl, rfl, announce_directory s!"Registered service {name.text}" _ (.serviceRegistered name.text) _⟩

/-- A name is given to a port that has just been made, or the names stay as they are. -/
theorem registerService_cases (registry : RecordId) (name : ServiceName) (maxSessions : Nat) (s : Machine) :
    (∃ e t, registerService registry name maxSessions s = (.error e, t) ∧ t.registries = s.registries) ∨
    ∃ server port t, registerService registry name maxSessions s = (.ok server, t) ∧ s.lookup registry name.text = none ∧
      (∀ other, t.lookup registry other = if other = name.text then some port else s.lookup registry other) ∧
      t.serverPort server = t.clientPort port := by
  have hserver := serverPort_newPort name.text maxSessions s (s.nextId + 1)
  have hclient := clientPort_newPort name.text maxSessions s (s.nextId + 2)
  have hnames : (newPort name.text maxSessions s).2.registries = s.registries := rfl
  rw [registerService, Update.run_bind]
  rw [if_pos rfl] at hserver hclient
  rcases registerPort_cases registry name (s.nextId + 2) (newPort name.text maxSessions s).2 with
    ⟨e, hrun⟩ | ⟨t, hrun, hfree, ht⟩
  · refine .inl ⟨e, _, ?_, hnames⟩
    exact congrArg (fun x : Except RegistryError Unit × Machine => (x.1.map fun _ => s.nextId + 1, x.2)) hrun
  · refine .inr ⟨s.nextId + 1, s.nextId + 2, t, ?_, ?_, ?_, ?_⟩
    · exact congrArg (fun x : Except RegistryError Unit × Machine => (x.1.map fun _ => s.nextId + 1, x.2)) hrun
    · rw [← lookup_of_registries hnames, hfree]
    · intro other
      rw [lookup_of_registries ht.registries, lookup_insert, lookup_of_registries hnames]
    · rw [ht.serverPort, ht.clientPort]
      exact hserver.trans hclient.symm

/-- A name that a port has is freed; otherwise nothing happens. -/
theorem unregisterService_cases (registry : RecordId) (name : ServiceName) (s : Machine) :
    (∃ e, unregisterService registry name s = (.error e, s) ∧ s.lookup registry name.text = none) ∨
    ∃ t, unregisterService registry name s = (.ok (), t) ∧
      ∀ other, t.lookup registry other = if other = name.text then none else s.lookup registry other := by
  rw [unregisterService, Update.run_look]
  unfold Registry.unbind
  rw [contains_services]
  cases hlookup : s.lookup registry name.text with
  | none => exact .inl ⟨_, rfl, rfl⟩
  | some port =>
    have htell := announce_directory s!"Unregistered service {name.text}" (s.registry registry).kernel
      (.serviceUnregistered name.text)
    refine .inr ⟨_, rfl, fun other => ?_⟩
    rw [← lookup_erase]
    exact lookup_of_registries (htell _).registries registry other

/-! ## Starting a service -/

/-- A start that fails leaves every name with the port it had. -/
theorem startEntry_of_error {kernel registry : RecordId} {entry : ServiceEntry} {s t : Machine} {e : ServiceError}
    (h : startEntry kernel registry entry s = (.error e, t)) : SameNames registry s t := by
  intro other
  rw [startEntry, Update.run_bind] at h
  rcases registerService_cases registry entry.name entry.maxSessions s with
    ⟨e', t', hrun, hsame⟩ | ⟨server, port, t', hrun, hfree, hbound, -⟩
  · rw [hrun] at h
    obtain rfl := (Prod.mk.inj h).2
    exact lookup_of_registries hsame registry other
  · have hstart := startServer_directory kernel entry.name.text server entry.blueprint {} t'
    rw [hrun] at h
    dsimp only at h
    rw [Update.run_bind] at h
    rcases hserver : (startServer kernel entry.name.text server entry.blueprint {}).run t' with ⟨e' | id, u⟩
    · rw [hserver] at h hstart
      dsimp only at h hstart
      have hlookup (other : String) : u.lookup registry other = t'.lookup registry other :=
        lookup_of_registries hstart.registries registry other
      rw [Update.run_bind] at h
      rcases unregisterService_cases registry entry.name u with ⟨e'', -, hgone⟩ | ⟨v, hrun', hfreed⟩
      · -- the name is still bound when it is to be freed
        rw [hlookup, hbound, if_pos rfl] at hgone
        cases hgone
      · rw [hrun'] at h
        obtain rfl := (Prod.mk.inj h).2
        rw [hfreed, hlookup, hbound]
        split
        · next hname => rw [hname, hfree]
        · rfl
    · rw [hserver] at h
      cases h

end Machine

end Microkernel
