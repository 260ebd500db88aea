import Microkernel.Proofs.Machine.Directory
import Microkernel.Proofs.Pausing.Agreement
import Microkernel.Proofs.Supervising.Placid

/-!
# Supervisors in operation

A supervisor is made over a host, and then it is called in any order, while other work goes on in its machine (`Supervision.after`). No
call replaces a kernel or a registry (`SameHomes`).
-/

namespace Microkernel

open Machine

/-! ## What lasts -/

/-- The same kernels are paused, and the same clocks stand still. -/
structure SamePace (s t : Machine) : Prop where
  nextId : s.nextId ≤ t.nextId
  paused : ∀ k, (t.kernel k).paused = (s.kernel k).paused
  clock : ∀ k, (t.kernel k).clock.isSuspended = (s.kernel k).clock.isSuspended

/-- A server that is stopped stays stopped. -/
structure StayStopped (s t : Machine) : Prop where
  nextId : s.nextId ≤ t.nextId
  stopped : ∀ id < s.nextId, (s.server id).stopped = true → (t.server id).stopped = true

/-- What is stopped or empty stays so. -/
structure StaysDown (s t : Machine) : Prop extends StayStopped s t where
  processes : ∀ k, (s.kernel k).processes = {} → (t.kernel k).processes = {}
  services : ∀ r, (s.registry r).services = {} → (t.registry r).services = {}

section Lasting

variable {s t : Machine} {id : RecordId}

namespace SamePace

/-- Where kernels stay the pace does. -/
theorem of_kernels (hnext : s.nextId ≤ t.nextId) (hkernels : t.kernels = s.kernels) : SamePace s t :=
  ⟨hnext, fun k => by rw [Machine.kernel, hkernels, Machine.kernel], fun k => by rw [Machine.kernel, hkernels, Machine.kernel]⟩

/-- Setting a kernel keeps the pace if it keeps pause flag and clock. -/
theorem setKernel {k : Kernel} (hpaused : k.paused = (s.kernel id).paused) (hclock : k.clock = (s.kernel id).clock) :
    SamePace s (Machine.setKernel id k s).2 := by
  have hkernel (other : RecordId) : (Machine.setKernel id k s).2.kernel other = if other = id then k else s.kernel other :=
    kernel_insert s id other k
  refine ⟨Nat.le_refl _, fun other => ?_, fun other => ?_⟩ <;> rw [hkernel] <;> split
  · next heq => rw [heq, hpaused]
  · rfl
  · next heq => rw [heq, hclock]
  · rfl

end SamePace

instance : Busy SamePace where
  refl _ := ⟨Nat.le_refl _, fun _ => rfl, fun _ => rfl⟩
  trans _ _ _ h h' := ⟨Nat.le_trans h.nextId h'.nextId, fun k => (h'.paused k).trans (h.paused k),
    fun k => (h'.clock k).trans (h.clock k)⟩
  aside _ _ hnext hkernels _ _ := .of_kernels hnext hkernels
  kernel _ _ _ h := .setKernel h.paused h.clock
  standing _ _ _ h := .setKernel h.paused h.clock
  registries _ _ _ := .of_kernels (Nat.le_refl _) rfl
  server _ _ _ _ h _ := ⟨h.nextId, h.paused, h.clock⟩

instance : Winding SamePace where
  sessions _ _ _ := .of_kernels (Nat.le_refl _) rfl
  closing _ _ := .setKernel rfl rfl
  emptied _ _ := .setKernel rfl rfl
  freed _ _ _ := .setKernel rfl rfl
  stopped _ _ := .of_kernels (Nat.le_refl _) rfl
  cleared _ _ := .of_kernels (Nat.le_refl _) rfl

namespace StayStopped

/-- Where servers stay they stay stopped. -/
theorem of_servers (hnext : s.nextId ≤ t.nextId) (hservers : t.servers = s.servers) : StayStopped s t :=
  ⟨hnext, fun id _ h => by rwa [Machine.server, hservers]⟩

/-- Setting a server leaves it stopped if it was and stays. -/
theorem setServer {x : Server} (h : (s.server id).stopped = true → x.stopped = true) : StayStopped s (Machine.setServer id x s).2 := by
  have hserver (other : RecordId) : (Machine.setServer id x s).2.server other = if other = id then x else s.server other :=
    Records.getD_insert _ _ _ _ _
  refine ⟨Nat.le_refl _, fun other _ hstopped => ?_⟩
  rw [hserver]
  split
  · next heq => exact h (heq ▸ hstopped)
  · exact hstopped

end StayStopped

instance : Busy StayStopped where
  refl _ := ⟨Nat.le_refl _, fun _ _ h => h⟩
  trans _ _ _ h h' := ⟨Nat.le_trans h.nextId h'.nextId,
    fun id hid hs => h'.stopped id (Nat.lt_of_lt_of_le hid h.nextId) (h.stopped id hid hs)⟩
  aside _ _ hnext _ hservers _ := .of_servers hnext hservers
  kernel _ _ _ _ := .of_servers (Nat.le_refl _) rfl
  standing _ _ _ _ := .of_servers (Nat.le_refl _) rfl
  registries _ _ _ := .of_servers (Nat.le_refl _) rfl
  server s t id x h hid := by
    refine ⟨h.nextId, fun other hother hstopped => ?_⟩
    have hserver : (Machine.setServer id x t).2.server other = if other = id then x else t.server other :=
      Records.getD_insert _ _ _ _ _
    rw [hserver, if_neg (Nat.ne_of_lt (Nat.lt_of_lt_of_le hother hid))]
    exact h.stopped other hother hstopped

instance : Serving StayStopped where
  sessions _ _ _ := .setServer fun h => h

namespace StaysDown

/-- Where kernels, servers and registries stay, what is down stays down. -/
theorem of_records (hnext : s.nextId ≤ t.nextId) (hkernels : t.kernels = s.kernels) (hservers : t.servers = s.servers)
    (hregistries : t.registries = s.registries) : StaysDown s t :=
  ⟨.of_servers hnext hservers, fun k h => by rwa [Machine.kernel, hkernels], fun r h => by rwa [Machine.registry, hregistries]⟩

/-- Setting a server leaves it down if it was stopped and stays. -/
theorem setServer {x : Server} (h : (s.server id).stopped = true → x.stopped = true) : StaysDown s (Machine.setServer id x s).2 :=
  ⟨.setServer h, fun _ h => h, fun _ h => h⟩

/-- Setting a kernel leaves it down if an empty process set stays empty. -/
theorem setKernel {k : Kernel} (h : (s.kernel id).processes = {} → k.processes = {}) : StaysDown s (Machine.setKernel id k s).2 := by
  refine ⟨.of_servers (Nat.le_refl _) rfl, fun other hempty => ?_, fun _ h => h⟩
  have hkernel : (Machine.setKernel id k s).2.kernel other = if other = id then k else s.kernel other := kernel_insert s id other k
  rw [hkernel]
  split
  · next heq => exact h (heq ▸ hempty)
  · exact hempty

end StaysDown

instance : Winding StaysDown where
  refl s := .of_records (Nat.le_refl _) rfl rfl rfl
  trans _ _ _ h h' := ⟨IsTrans.trans _ _ _ h.toStayStopped h'.toStayStopped, fun k hs => h'.processes k (h.processes k hs),
    fun r hs => h'.services r (h.services r hs)⟩
  aside _ _ := .of_records
  kernel _ _ _ h := .setKernel fun hempty => h.processes.trans hempty
  sessions _ _ _ := .setServer fun h => h
  closing _ _ := .setKernel fun h => h
  emptied _ _ := .setKernel fun _ => rfl
  freed _ _ _ := .setKernel fun h => h
  stopped _ _ := .setServer fun _ => rfl
  cleared s id := by
    refine ⟨.of_servers (Nat.le_refl _) rfl, fun _ h => h, fun other hempty => ?_⟩
    have hregistry : (setRegistry id { s.registry id with services := {} } s).2.registry other =
        if other = id then { s.registry id with services := {} } else s.registry other := registry_insert s id other _
    rw [hregistry]
    split
    · rfl
    · exact hempty

/-- Pausing a kernel or resuming it stops no server and brings nothing back. -/
theorem toggle_staysDown (kernel : RecordId) (paused : Bool) (s : Machine) : StaysDown s (toggle kernel paused s).2 := by
  by_cases h : (s.kernel kernel).paused = paused
  · rw [toggle_of_eq h]
    exact refl s
  · have htell : Keeps StaysDown (tellToggled kernel paused) := (log_placid _ _).bind fun _ => (audit_placid _ _).bind fun _ => .pure _
    have hturn (ids : List RecordId) (t : Machine) : StaysDown t (ids.foldl (fun t id => (setPaused id paused t).2) t) := by
      rw [foldl_setPaused]
      exact .of_records (Nat.le_refl _) rfl rfl rfl
    let k : Kernel := { s.kernel kernel with
      paused
      clock := if paused then (s.kernel kernel).clock.suspend (s.kernel kernel).host.now
        else (s.kernel kernel).clock.resume (s.kernel kernel).host.now }
    have hclock : StaysDown s (s.withKernel kernel k) := StaysDown.setKernel fun hempty => hempty
    rw [toggle_run h]
    exact IsTrans.trans _ _ _ (IsTrans.trans _ _ _ hclock (hturn _ _)) (htell _)

end Lasting

/-! ## Calls -/

/-- What is done in the machine while nobody calls the supervisor. Nobody else pauses a kernel or lets a server that is stopped go on. -/
structure Elsewhere where
  run : Machine → Machine
  pace : ∀ s, SamePace s (run s)
  stopped : ∀ s, StayStopped s (run s)

/-- What is done in a shutdown once the applications of the main context are gone. It starts nothing. -/
structure Farewell where
  run : Machine → Machine
  pace : ∀ s, SamePace s (run s)
  staysDown : ∀ s, StaysDown s (run s)

namespace Farewell

/-- Nothing is done. -/
def silent : Farewell := ⟨id, fun s => refl s, fun s => refl s⟩

def program (hook : Farewell) : Update Unit := modify hook.run

/-- What is done in a shutdown pauses nothing. -/
theorem program_pace (hook : Farewell) : Keeps SamePace hook.program := hook.pace

/-- What is down stays down whatever is done in a shutdown. -/
theorem program_staysDown (hook : Farewell) : Keeps StaysDown hook.program := hook.staysDown

end Farewell

/-- What is called on a supervisor. -/
inductive SupervisorCall
  | attachApplet (host : Host)
  | startServices
  | stopServices
  | setPaused (paused : Bool)
  | changeDockedMode (docked : Bool)
  /-- The services that start next in the active context become others. -/
  | edit (f : ServiceTable → ServiceTable)
  | shutDown (hook : Farewell)
  | other (work : Elsewhere)

/-- A supervisor and its machine. -/
structure Supervision where
  supervisor : Supervisor
  machine : Machine
  /-- An applet context was attached while the system was paused, and nobody has paused or resumed it since. -/
  isLate : Bool := false
  /-- The servers that were started while services were started. -/
  started : List RecordId := []

namespace Supervision

/-- How a shutdown goes. -/
def shutDown (c : Supervision) (hook : Farewell) : (Except SupervisorError (Option Unit) × Supervisor) × Machine :=
  (Supervisor.shutDown hook.program).run c.supervisor c.machine

def step (c : Supervision) : SupervisorCall → Supervision
  | .attachApplet host =>
    let ((outcome, supervisor), machine) := (Supervisor.attachApplet host).run c.supervisor c.machine
    { c with supervisor, machine, isLate := c.isLate || (outcome.isOk && c.supervisor.paused) }
  | .startServices =>
    let ((_, supervisor), machine) := Supervisor.startServices.run c.supervisor c.machine
    { c with supervisor, machine, started := c.started ++ machine.servers.keys.filter fun id => !c.machine.servers.contains id }
  | .stopServices =>
    let ((_, supervisor), machine) := Supervisor.stopServices.run c.supervisor c.machine
    { c with supervisor, machine }
  | .setPaused paused =>
    let ((_, supervisor), machine) := (Supervisor.setPaused paused).run c.supervisor c.machine
    { c with supervisor, machine, isLate := false }
  | .changeDockedMode docked =>
    let ((_, supervisor), machine) := (Supervisor.changeDockedMode docked).run c.supervisor c.machine
    { c with supervisor, machine }
  | .edit f => { c with supervisor := c.supervisor.setActive { c.supervisor.active with table := f c.supervisor.active.table } }
  | .shutDown hook =>
    let ((_, supervisor), machine) := c.shutDown hook
    { c with supervisor, machine, isLate := c.isLate && c.supervisor.isShutDown }
  | .other work => { c with machine := work.run c.machine }

/-- A supervisor over a host after calls in an order. -/
def after (config : SupervisorConfig) (host : Host) (s : Machine) (calls : List SupervisorCall) : Except KernelError Supervision :=
  match (Supervisor.new config host).run s with
  | (.ok supervisor, machine) => .ok (calls.foldl step { supervisor, machine })
  | (.error e, _) => .error e

/-- A host with memory for a kernel. -/
def plainHost : Host := { memory := .new 0x100000000 }

end Supervision

/-! ## What the calls answer -/

/-- Every answer of the program has the property. -/
def Update.Yields {α : Type} (P : α → Prop) (p : Update α) : Prop := ∀ s, P (p s).1

namespace Update.Yields

variable {α β : Type} {P : α → Prop}

theorem pure {a : α} (h : P a) : Yields P (pure a) := fun _ => h

theorem bind {p : Update β} {f : β → Update α} (h : ∀ b, Yields P (f b)) : Yields P (p >>= f) := fun _ => h _ _

end Update.Yields

namespace Supervising

variable {α β : Type}

/-- A program of the machine before a program of the supervisor. -/
theorem run_lift_bind (p : Update α) (f : α → Supervising β) (s : Supervisor) (m : Machine) :
    (liftM p >>= f : Supervising β).run s m = (f (p m).1).run s (p m).2 := rfl

/-- A program that begins with a look at the supervisor. -/
theorem run_look (f : Supervisor → Supervising β) (s : Supervisor) (m : Machine) : (get >>= f).run s m = (f s).run s m := rfl

theorem run_modify_bind (g : Supervisor → Supervisor) (f : PUnit → Supervising β) (s : Supervisor) (m : Machine) :
    (modify g >>= f).run s m = (f ⟨⟩).run (g s) m := rfl

theorem run_bind (p : Supervising α) (f : α → Supervising β) (s : Supervisor) (m : Machine) :
    (p >>= f).run s m = (f (p.run s m).1.1).run (p.run s m).1.2 (p.run s m).2 := rfl

end Supervising

namespace ServerSet

/-- The kernel and the registry of a set. -/
def home (set : ServerSet) : RecordId × RecordId := (set.kernel, set.registry)

/-- A set without services. -/
def emptied (set : ServerSet) : ServerSet := { set with table := {}, manager := none, servers := [] }

/-- Starting entries keeps the home of a set. -/
theorem startEntries_home (set : ServerSet) (entries : List ServiceEntry) :
    Update.Yields (fun x => x.1.home = set.home) (set.startEntries entries) := by
  induction entries generalizing set with
  | nil => exact .pure rfl
  | cons entry rest ih =>
    refine .bind fun started => ?_
    split
    · exact ih { set with servers := set.servers ++ [_] }
    · exact .pure rfl

/-- Starting services replaces neither the kernel nor the registry. -/
theorem start_home (set : ServerSet) (ignoreMissing : Bool) :
    Update.Yields (fun x => x.1.home = set.home) (set.start ignoreMissing) := by
  unfold start
  split
  · exact .pure rfl
  · refine .bind fun started => ?_
    split
    · exact .pure rfl
    · refine .bind fun waited => ?_
      split
      · exact .pure rfl
      · have hentries := startEntries_home { set with manager := some ‹_› } set.table.entries
        intro m
        rw [Update.run_bind]
        have h := hentries m
        dsimp only
        split <;> exact h

/-- Stopping a set leaves it without services. -/
theorem stop_yields (set : ServerSet) : Update.Yields (· = set.emptied) set.stop := by
  refine .bind fun _ => ?_
  split
  · refine .bind fun outcome => ?_
    split
    · exact .bind fun _ => .bind fun _ => .pure rfl
    · exact .bind fun _ => .pure rfl
  · exact .bind fun _ => .pure rfl

/-- A new set is part of starting services. -/
theorem new_busy {R : Machine → Machine → Prop} [Busy R] (kernel : RecordId) : Keeps R (ServerSet.new kernel) := by
  have hregistry (id : RecordId) (r : Registry) : Keeps R (setRegistry id r) := fun s => Busy.registries s id r
  refine .bind (.bind (freshId_placid.bind fun _ => (setEvent_placid _ _).bind fun _ => .pure _) fun _ => ?_) fun _ => .pure _
  exact freshId_placid.bind fun _ => (hregistry _ _).bind fun _ => .pure _

end ServerSet

/-! ## New kernels -/

/-- A new kernel is not paused, and its clock runs. -/
structure Joins (kernel : RecordId) (s t : Machine) : Prop where
  fresh : kernel = s.nextId
  nextId : t.nextId = s.nextId + 1
  servers : t.servers = s.servers
  others : ∀ other, other ≠ kernel → t.kernel other = s.kernel other
  paused : (t.kernel kernel).paused = false
  clock : (t.kernel kernel).clock.isSuspended = false

/-- A kernel is made, or nothing happens. -/
theorem newKernel_cases (config : KernelConfig) (host : Host) (s : Machine) :
    (∃ e, (newKernel config host).run s = (.error e, s)) ∨ ∃ id t, (newKernel config host).run s = (.ok id, t) ∧ Joins id s t := by
  unfold newKernel
  rw [Action.run_except_bind]
  rcases hnew : Kernel.new config host with e | k
  · exact .inl ⟨e, rfl⟩
  · have hk : k.paused = false ∧ k.clock.isSuspended = false := by
      unfold Kernel.new at hnew
      split at hnew
      · cases hnew
      · cases hnew
        exact ⟨rfl, rfl⟩
    refine .inr ⟨s.nextId, _, rfl, ?_⟩
    have hkernel (other : RecordId) : _ = if other = s.nextId then k else s.kernel other := kernel_insert s s.nextId other k
    constructor
    case fresh => rfl
    case nextId => rfl
    case servers => rfl
    case others => exact fun other hne => (hkernel other).trans (if_neg hne)
    case paused => exact (congrArg Kernel.paused ((hkernel _).trans (if_pos rfl))).trans hk.1
    case clock => exact (congrArg (fun k => k.clock.isSuspended) ((hkernel _).trans (if_pos rfl))).trans hk.2

namespace Supervisor

variable {s t : Supervisor}

/-! ## Contexts -/

/-- The sets of a supervisor are the main one and that of the applet, if there is one. -/
theorem mem_sets {set : ServerSet} : set ∈ s.sets ↔ set = s.main ∨ s.applet = some set := by
  rw [sets, List.mem_cons, Option.mem_toList]

/-- The contexts of two supervisors stand in a relation, one by one. -/
structure Alike (P : ServerSet → ServerSet → Prop) (s t : Supervisor) : Prop where
  main : P s.main t.main
  applet_old : ∀ new, t.applet = some new → ∃ old, s.applet = some old ∧ P old new
  applet_new : ∀ old, s.applet = some old → ∃ new, t.applet = some new ∧ P old new

namespace Alike

variable {P Q : ServerSet → ServerSet → Prop}

/-- Supervisors with an applet each are alike if their sets are. -/
theorem of_some (hmain : P s.main t.main) {old new : ServerSet} (hold : s.applet = some old) (hnew : t.applet = some new)
    (h : P old new) : Alike P s t := by
  refine ⟨hmain, fun set hset => ⟨old, hold, ?_⟩, fun set hset => ⟨new, hnew, ?_⟩⟩
  · exact Option.some.inj (hnew.symm.trans hset) ▸ h
  · exact Option.some.inj (hold.symm.trans hset) ▸ h

/-- Supervisors without an applet are alike if their main sets are. -/
theorem of_none (hmain : P s.main t.main) (hold : s.applet = none) (hnew : t.applet = none) : Alike P s t where
  main := hmain
  applet_old _ h := by cases hnew.symm.trans h
  applet_new _ h := by cases hold.symm.trans h

/-- The applet context is the same one, if there is one. -/
theorem of_applet (hrefl : ∀ set, P set set) (hmain : P s.main t.main) (happlet : t.applet = s.applet) : Alike P s t :=
  ⟨hmain, fun new hnew => ⟨new, happlet.symm.trans hnew, hrefl new⟩, fun old hold => ⟨old, happlet.trans hold, hrefl old⟩⟩

/-- Supervisors that are alike are alike in what follows. -/
theorem mono (h : Alike P s t) (hPQ : ∀ old new, P old new → Q old new) : Alike Q s t :=
  ⟨hPQ _ _ h.main, fun new hnew => (h.applet_old new hnew).imp fun _ h => ⟨h.1, hPQ _ _ h.2⟩,
    fun old hold => (h.applet_new old hold).imp fun _ h => ⟨h.1, hPQ _ _ h.2⟩⟩

/-- Supervisors that are alike both have an applet or neither has. -/
theorem isSome (h : Alike P s t) : t.applet.isSome = s.applet.isSome := by
  cases hnew : t.applet with
  | some new =>
    obtain ⟨old, hold, -⟩ := h.applet_old new hnew
    rw [hold]
    rfl
  | none =>
    cases hold : s.applet with
    | none => rfl
    | some old =>
      obtain ⟨new, hnew', -⟩ := h.applet_new old hold
      cases hnew.symm.trans hnew'

/-- A context comes from a context. -/
theorem exists_old (h : Alike P s t) {new : ServerSet} (hnew : new ∈ t.sets) : ∃ old ∈ s.sets, P old new := by
  rcases mem_sets.1 hnew with rfl | happlet
  · exact ⟨s.main, mem_sets.2 (.inl rfl), h.main⟩
  · obtain ⟨old, hold, hP⟩ := h.applet_old new happlet
    exact ⟨old, mem_sets.2 (.inr hold), hP⟩

/-- Something comes from each context. -/
theorem exists_new (h : Alike P s t) {old : ServerSet} (hold : old ∈ s.sets) : ∃ new ∈ t.sets, P old new := by
  rcases mem_sets.1 hold with rfl | happlet
  · exact ⟨t.main, mem_sets.2 (.inl rfl), h.main⟩
  · obtain ⟨new, hnew, hP⟩ := h.applet_new old happlet
    exact ⟨new, mem_sets.2 (.inr hnew), hP⟩

end Alike

/-- The contexts are over the same kernels and registries. -/
def SameHomes (s t : Supervisor) : Prop := Alike (fun old new => new.home = old.home) s t

/-- The active context is that of the applet, if there is one, and the main one otherwise. -/
theorem activeContext_cases (s : Supervisor) :
    (s.activeContext = .main ∧ s.active = s.main ∧ ∀ set, s.setActive set = { s with main := set }) ∨
      ∃ old, s.applet = some old ∧ s.active = old ∧ ∀ set, s.setActive set = { s with applet := some set } := by
  unfold active setActive
  cases hcontext : s.activeContext with
  | main => exact .inl ⟨Eq.refl _, Eq.refl _, fun _ => Eq.refl _⟩
  | applet =>
    cases happlet : s.applet with
    | none =>
      rw [activeContext, happlet, Option.isSome_none, ContextKind.select, Bool.and_false, if_neg Bool.false_ne_true] at hcontext
      cases hcontext
    | some old => exact .inr ⟨old, Eq.refl _, Eq.refl _, fun _ => Eq.refl _⟩

/-- The active context becomes another one. -/
theorem Alike.setActive {P : ServerSet → ServerSet → Prop} (hrefl : ∀ set, P set set) {set : ServerSet} (h : P s.active set) :
    Alike P s (s.setActive set) := by
  rcases s.activeContext_cases with ⟨-, hactive, hset⟩ | ⟨old, happlet, hactive, hset⟩ <;> rw [hset] <;> rw [hactive] at h
  · exact .of_applet hrefl h rfl
  · exact .of_some (hrefl _) happlet rfl h

/-- Setting the active set keeps the homes if it has the home of the one before. -/
theorem setActive_homes {set : ServerSet} (h : set.home = s.active.home) : SameHomes s (s.setActive set) :=
  Alike.setActive (P := fun old new => new.home = old.home) (fun _ => rfl) h

/-- The active set is one of the sets. -/
theorem active_mem (s : Supervisor) : s.active ∈ s.sets := by
  rcases s.activeContext_cases with ⟨-, hactive, -⟩ | ⟨old, happlet, hactive, -⟩ <;> rw [hactive]
  · exact mem_sets.2 (.inl rfl)
  · exact mem_sets.2 (.inr happlet)

/-- The active set is the one that was set. -/
theorem active_setActive (s : Supervisor) (set : ServerSet) : (s.setActive set).active = set := by
  have hcontext : (s.setActive set).activeContext = s.activeContext := by
    rcases s.activeContext_cases with ⟨-, -, hset⟩ | ⟨old, happlet, -, hset⟩ <;> rw [hset, activeContext, activeContext]
    rw [happlet]
    rfl
  unfold active
  rw [hcontext]
  unfold setActive
  cases s.activeContext <;> rfl

theorem setActive_paused (s : Supervisor) (set : ServerSet) : (s.setActive set).paused = s.paused := by
  rcases s.activeContext_cases with ⟨-, -, hset⟩ | ⟨-, -, -, hset⟩ <;> rw [hset]

/-! ## Closed forms -/

/-- A supervisor whose services do not run yet, over a kernel that is not paused, or nothing. -/
theorem new_cases {config : SupervisorConfig} {host : Host} {m m' : Machine} {s : Supervisor}
    (h : (new config host).run m = (.ok s, m')) :
    s.applet = none ∧ s.paused = false ∧ s.isShutDown = false ∧ s.main.stopOrder = [] ∧
      ∃ joined, Joins s.main.kernel m joined ∧ SamePace joined m' := by
  unfold new at h
  rw [Action.run_bind] at h
  rcases newKernel_cases config.kernel host m with ⟨e, hkernel⟩ | ⟨kernel, joined, hkernel, hjoins⟩ <;> rw [hkernel] at h
  · cases h
  · dsimp only at h
    rw [Action.run_bind] at h
    have hlayout : Keeps SamePace (SharedLayout.allocate kernel {}).run := allocateLayout_placid _ _
    have hallocated := hlayout joined
    rcases hrun : (SharedLayout.allocate kernel {}).run joined with ⟨e | layout, m₁⟩ <;> rw [hrun] at h hallocated
    · cases h
    · have hset := ServerSet.new_busy (R := SamePace) kernel m₁
      cases h
      exact ⟨rfl, rfl, rfl, rfl, joined, hjoins, IsTrans.trans _ _ _ hallocated hset⟩

/-- An applet context with a kernel of its own is attached, or nothing happens. -/
theorem attachApplet_cases (host : Host) (s : Supervisor) (m : Machine) :
    (∃ e, (attachApplet host).run s m = ((.error e, s), m)) ∨
      ∃ set joined m', (attachApplet host).run s m = ((.ok (), { s with applet := some set }), m') ∧ s.applet = none ∧
        set.stopOrder = [] ∧ Joins set.kernel m joined ∧ SamePace joined m' ∧ StayStopped joined m' := by
  unfold attachApplet
  rw [Supervising.run_look]
  split
  · exact .inl ⟨.appletAttached, rfl⟩
  · next hnone =>
    rw [Supervising.run_lift_bind]
    rcases newKernel_cases s.config.kernel host m with ⟨e, hkernel⟩ | ⟨kernel, joined, hkernel, hjoins⟩ <;> rw [hkernel]
    · exact .inl ⟨.kernel e, rfl⟩
    · refine .inr ⟨_, joined, _, rfl, Option.not_isSome_iff_eq_none.1 hnone, rfl, hjoins, ?_, ?_⟩
      · exact (ServerSet.new_busy (R := SamePace) kernel).bind (fun _ => log_placid _ _) joined
      · exact (ServerSet.new_busy (R := StayStopped) kernel).bind (fun _ => log_placid _ _) joined

/-- Starting services gives the active context another set; after that only the journal changes. -/
theorem startServices_run (s : Supervisor) (m : Machine) :
    (startServices.run s m).1.2 = s.setActive (s.active.start s.config.ignoreMissingServices m).1.1 ∧
      ∀ (R : Machine → Machine → Prop) [Placid R],
        R (s.active.start s.config.ignoreMissingServices m).2 (startServices.run s m).2 := by
  unfold startServices
  rw [Supervising.run_look, Supervising.run_lift_bind, Supervising.run_bind]
  dsimp only
  split
  · exact ⟨rfl, fun R _ => log_placid (R := R) _ _ _⟩
  · exact ⟨rfl, fun R _ => refl _⟩

/-- Stopping the services stops the active set and empties it. -/
theorem stopServices_run (s : Supervisor) (m : Machine) :
    stopServices.run s m = (((), s.setActive s.active.emptied), (s.active.stop m).2) := by
  unfold stopServices
  rw [Supervising.run_look, Supervising.run_lift_bind, s.active.stop_yields m]
  rfl

/-- Changing the mode changes no context, and of the machine only the journal. -/
theorem changeDockedMode_run (asked : Bool) (s : Supervisor) (m : Machine) :
    ∃ docked performance events m', (changeDockedMode asked).run s m = (((), { s with docked, performance, events }), m') ∧
      ∀ (R : Machine → Machine → Prop) [Placid R], R m m' := by
  unfold changeDockedMode
  rw [Supervising.run_look]
  split
  · exact ⟨_, _, _, _, rfl, fun R _ => log_placid (R := R) _ _ _⟩
  · exact ⟨s.docked, s.performance, s.events, m, rfl, fun R _ => refl m⟩

/-- The kernels are paused or resumed one after the other. -/
theorem setPaused_run (paused : Bool) (s : Supervisor) (m : Machine) : (setPaused paused).run s m =
    (((), { s with paused }), s.sets.foldl (fun m set => (toggle set.kernel paused m).2) m) := by
  rcases s with ⟨config, main, _ | applet, layout, events, docked, performance, paused', isShutDown⟩
  · cases paused <;> rfl
  · cases paused <;> rfl

end Supervisor

end Microkernel
