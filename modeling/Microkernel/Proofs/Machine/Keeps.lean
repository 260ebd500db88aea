import Mathlib.Order.Defs.Unbundled
import Microkernel.Machine.Registries

/-!
# What programs leave alone

`Keeps R p` says that every run of the program `p` leads to a machine that stands in the relation `R` to the one it began with. For a
preorder it is enough that every part of a program keeps it (`Keeps.bind`). `SameOwners` is such a relation: it is kept by everything
that only signals, sends, answers, opens or closes.
-/

namespace Microkernel

variable {α β : Type}

/-! ## Runs -/

namespace Update

/-- One program behind another. -/
theorem run_bind (p : Update α) (f : α → Update β) (s : Machine) : (p >>= f) s = f (p s).1 (p s).2 := rfl

/-- A program that begins with a look at the machine. -/
theorem run_look (f : Machine → Update β) (s : Machine) : (get >>= f : Update β) s = f s s := rfl

/-- A loop runs its body for one item after the other. -/
theorem run_forIn (f : α → Update Unit) (l : List α) (s : Machine) : (forIn l PUnit.unit fun a _ => do
    f a
    pure (ForInStep.yield PUnit.unit) : Update PUnit) s = (⟨⟩, l.foldl (fun s a => (f a s).2) s) := by
  induction l generalizing s with
  | nil => rfl
  | cons a rest ih =>
    rw [List.forIn_cons]
    exact ih (f a s).2

end Update

namespace Action

/-- A program that begins with a look at the machine. -/
theorem run_look (f : Machine → Action β) (s : Machine) : (get >>= f : Action β).run s = (f s).run s := rfl

/-- An answer alone leaves the machine as it is. -/
theorem run_pure (a : α) (s : Machine) : (pure a : Action α).run s = (.ok a, s) := rfl

/-- A program that can fail behind one that cannot. -/
theorem run_lift_bind (p : Update α) (f : α → Action β) (s : Machine) :
    (liftM p >>= f : Action β).run s = (f (p s).1).run (p s).2 := rfl

/-- A program behind another runs where the other left off, unless that failed. -/
theorem run_bind (p : Action α) (f : α → Action β) (s : Machine) : (p >>= f).run s =
    match p.run s with
    | (.ok a, s) => (f a).run s
    | (.error e, s) => (.error e, s) := by
  rw [ExceptT.run_bind]
  change (StateT.bind p.run _ : Update _) s = _
  unfold StateT.bind
  rcases p.run s with ⟨_ | a, s'⟩ <;> rfl

/-- A program that is caught if it fails. -/
theorem run_tryCatch (p : Action α) (f : KernelError → Action α) (s : Machine) : (tryCatch p f).run s =
    match p.run s with
    | (.ok a, s) => (.ok a, s)
    | (.error e, s) => (f e).run s := by
  rw [ExceptT.run_tryCatch]
  change (StateT.bind p.run _ : Update _) s = _
  unfold StateT.bind
  rcases p.run s with ⟨_ | a, s'⟩ <;> rfl

/-- What was found out before leaves the machine as it is. -/
theorem run_except (x : Except KernelError α) (s : Machine) : (liftM x : Action α).run s = (x, s) := by
  cases x <;> rfl

/-- A program goes on with what was found out before, or fails with it. -/
theorem run_except_bind (x : Except KernelError α) (f : α → Action β) (s : Machine) : (liftM x >>= f : Action β).run s =
    match x with
    | .ok a => (f a).run s
    | .error e => (.error e, s) := by
  rw [run_bind, run_except]
  cases x <;> rfl

end Action

/-! ## Programs that keep a relation -/

/-- Every run of the program leads to a machine in the relation. -/
def Keeps (R : Machine → Machine → Prop) (p : Update α) : Prop := ∀ s, R s (p s).2

namespace Keeps

variable {R : Machine → Machine → Prop}

/-- A change of the machine. -/
theorem modify {f : Machine → Machine} (h : ∀ s, R s (f s)) : Keeps R (modify f) := h

/-- A program that begins with a look at the machine; what it does then may depend on what it saw. -/
theorem look {f : Machine → Update β} (h : ∀ s, R s (f s s).2) : Keeps R (get >>= f) := h

/-- A weaker relation is kept as well. -/
theorem mono {S : Machine → Machine → Prop} {p : Update α} (hp : Keeps R p) (h : ∀ s t, R s t → S s t) : Keeps S p :=
  fun s => h _ _ (hp s)

variable [IsPreorder Machine R]

/-- An answer alone keeps every preorder. -/
theorem pure (a : α) : Keeps R (pure a) := fun s => refl s

/-- A look keeps every preorder. -/
theorem get : Keeps R get := fun s => refl s

/-- Programs one behind the other keep what both of them keep. -/
theorem bind {p : Update α} {f : α → Update β} (hp : Keeps R p) (hf : ∀ a, Keeps R (f a)) : Keeps R (p >>= f) :=
  fun s => IsTrans.trans _ _ _ (hp s) (hf _ _)

/-- What is made of an answer does not matter. -/
theorem map {p : Update α} (hp : Keeps R p) (f : α → β) : Keeps R (f <$> p) := hp.bind fun a => pure (f a)

/-- A loop keeps what its body keeps for the items it goes over. -/
theorem forIn_mem {l : List α} {f : α → PUnit → Update (ForInStep PUnit)} (hf : ∀ a ∈ l, ∀ u, Keeps R (f a u)) :
    Keeps R (forIn l PUnit.unit f) := by
  induction l with
  | nil => exact pure _
  | cons a rest ih =>
    rw [List.forIn_cons]
    refine (hf a List.mem_cons_self _).bind fun step => ?_
    cases step with
    | done u => exact pure u
    | yield u => exact ih fun a ha => hf a (List.mem_cons_of_mem _ ha)

/-- A loop keeps what its body keeps. -/
theorem forIn {l : List α} {f : α → PUnit → Update (ForInStep PUnit)} (hf : ∀ a u, Keeps R (f a u)) :
    Keeps R (forIn l PUnit.unit f) := forIn_mem fun a _ u => hf a u

/-! ### Programs that can fail -/

/-- An answer alone keeps every preorder, also where programs can fail. -/
theorem run_pure (a : α) : Keeps R (ExceptT.run (Pure.pure a : Action α)) := pure _

/-- A failure keeps every preorder. -/
theorem run_throw (e : KernelError) : Keeps R (ExceptT.run (throw e : Action α)) := pure _

/-- Behind a failure nothing happens. -/
theorem run_throw_bind (e : KernelError) (f : α → Action β) : Keeps R (throw e >>= f : Action β).run := fun s => refl s

/-- What was found out before keeps every preorder. -/
theorem run_except (x : Except KernelError α) : Keeps R (ExceptT.run (liftM x : Action α)) := by
  cases x with
  | ok a => exact run_pure a
  | error e => exact run_throw e

/-- A program that cannot fail keeps what it keeps. -/
theorem run_lift {p : Update α} (hp : Keeps R p) : Keeps R (ExceptT.run (liftM p : Action α)) := hp.map _

/-- Programs one behind the other keep what both keep, if the second one is reached. -/
theorem run_bind {p : Action α} {f : α → Action β} (hp : Keeps R p.run) (hf : ∀ a, Keeps R (f a).run) :
    Keeps R (p >>= f).run := by
  rw [ExceptT.run_bind]
  refine hp.bind fun result => ?_
  cases result with
  | ok a => exact hf a
  | error e => exact pure _

/-- A program and what catches its failure keep what both of them keep. -/
theorem run_tryCatch {p : Action α} {f : KernelError → Action α} (hp : Keeps R p.run) (hf : ∀ e, Keeps R (f e).run) :
    Keeps R (tryCatch p f).run := by
  intro s
  rw [Action.run_tryCatch]
  have h := hp s
  rcases hrun : p.run s with ⟨e | a, s'⟩ <;> rw [hrun] at h
  · exact IsTrans.trans _ _ _ h (hf e s')
  · exact h

/-- A loop of programs that can fail keeps what its body keeps. -/
theorem run_forIn {l : List α} {f : α → PUnit → Action (ForInStep PUnit)} (hf : ∀ a u, Keeps R (f a u).run) :
    Keeps R (ExceptT.run (ForIn.forIn l PUnit.unit f)) := by
  induction l with
  | nil => exact run_pure _
  | cons a rest ih =>
    rw [List.forIn_cons]
    refine run_bind (hf a _) fun step => ?_
    cases step with
    | done u => exact run_pure u
    | yield u => exact ih

/-- Programs that are run for the items of a list keep what each of them keeps. -/
theorem run_mapM {l : List α} {f : α → Action β} (hf : ∀ a, Keeps R (f a).run) : Keeps R (l.mapM f).run := by
  induction l with
  | nil => exact run_pure _
  | cons a rest ih =>
    rw [List.mapM_cons]
    exact run_bind (hf a) fun _ => run_bind ih fun _ => run_pure _

/-- Whether a program failed does not matter. -/
theorem forget {p : Action α} (hp : Keeps R p.run) : Keeps R (Action.forget p) := hp.bind fun _ => pure _

end Keeps

/-! ## Owners -/

/-- The machines have the same kernels, processes, threads, servers, services, registries and memory objects. -/
structure SameOwners (s t : Machine) : Prop where
  kernels : t.kernels = s.kernels
  processes : t.processes = s.processes
  threads : t.threads = s.threads
  servers : t.servers = s.servers
  services : t.services = s.services
  registries : t.registries = s.registries
  allocations : t.allocations = s.allocations
  sharedMemories : t.sharedMemories = s.sharedMemories
  transferMemories : t.transferMemories = s.transferMemories

instance : IsPreorder Machine SameOwners where
  refl _ := by constructor <;> rfl
  trans _ _ _ h h' := ⟨h'.1.trans h.1, h'.2.trans h.2, h'.3.trans h.3, h'.4.trans h.4, h'.5.trans h.5, h'.6.trans h.6,
    h'.7.trans h.7, h'.8.trans h.8, h'.9.trans h.9⟩

namespace Machine

/-! ### Telling and waking -/

/-- The journal is no owner's. -/
theorem log_keeps (level : Level) (text : String) : Keeps SameOwners (log level text) :=
  fun _ => by constructor <;> rfl

theorem traceStep_keeps (value : TraceValue) : Keeps SameOwners (traceStep value) :=
  fun _ => by constructor <;> rfl

/-- A new number is no owner's. -/
theorem freshId_keeps : Keeps SameOwners freshId := fun _ => by constructor <;> rfl

/-- Waking is a matter of parkers. -/
theorem wake_keeps (l : WaitList) : Keeps SameOwners (wake l) := fun _ => by constructor <;> rfl

/-! ### Events -/

/-- Events own nothing. -/
theorem setEvent_keeps (id : RecordId) (e : Event) : Keeps SameOwners (setEvent id e) :=
  fun _ => by constructor <;> rfl

theorem newEvent_keeps (mode : ResetMode) : Keeps SameOwners (newEvent mode) :=
  freshId_keeps.bind fun _ => (setEvent_keeps _ _).bind fun _ => .pure _

theorem signalEvent_keeps (id : RecordId) : Keeps SameOwners (signalEvent id) :=
  Keeps.get.bind fun _ => (setEvent_keeps _ _).bind fun _ => Keeps.get.bind fun _ => wake_keeps _

/-! ### Requests and sessions -/

/-- Requests own nothing. -/
theorem setRequest_keeps (id : RecordId) (r : SessionRequest) : Keeps SameOwners (setRequest id r) :=
  fun _ => by constructor <;> rfl

/-- Sessions own nothing, though their ports may. -/
theorem setSession_keeps (id : RecordId) (x : Session) : Keeps SameOwners (setSession id x) :=
  fun _ => by constructor <;> rfl

/-- Ports own nothing. -/
theorem setPort_keeps (id : RecordId) (p : Port) : Keeps SameOwners (setPort id p) :=
  fun _ => by constructor <;> rfl

/-- A completed request leaves all owners alone. -/
theorem completeRequest_keeps (id : RecordId) (result : Except KernelError Unit) :
    Keeps SameOwners (completeRequest id result) := by
  refine Keeps.get.bind fun s => ?_
  dsimp only
  split
  · exact (setRequest_keeps _ _).bind fun _ => wake_keeps _
  · exact .pure _

/-- A new session is owned by nobody. -/
theorem newSession_keeps (port : Option RecordId) : Keeps SameOwners (newSession port) := by
  refine freshId_keeps.bind fun session => (setSession_keeps _ _).bind fun _ => ?_
  refine freshId_keeps.bind fun server => freshId_keeps.bind fun client => ?_
  exact (Keeps.modify fun s => by constructor <;> rfl).bind fun _ => .pure _

/-- The end of a client side leaves all owners alone. -/
theorem closeClientSession_keeps (client : RecordId) : Keeps SameOwners (closeClientSession client) := by
  refine Keeps.get.bind fun s => Keeps.get.bind fun s' => ?_
  split
  · exact (setSession_keeps _ _).bind fun _ => wake_keeps _
  · exact .pure _

/-- The end of a server side leaves all owners alone. -/
theorem closeServerSession_keeps (server : RecordId) : Keeps SameOwners (closeServerSession server) := by
  refine Keeps.get.bind fun s => Keeps.get.bind fun s' => ?_
  split
  · refine (setSession_keeps _ _).bind fun _ => ?_
    refine Keeps.bind (.forIn fun request _ => (completeRequest_keeps _ _).bind fun _ => .pure _) fun _ => ?_
    split
    · exact Keeps.get.bind fun _ => (setPort_keeps _ _).bind fun _ => wake_keeps _
    · exact wake_keeps _
  · exact .pure _

/-! ### Ports -/

/-- A new port is owned by nobody, until it gets a name. -/
theorem newPort_keeps (name : String) (maxSessions : Nat) : Keeps SameOwners (newPort name maxSessions) := by
  refine freshId_keeps.bind fun port => (setPort_keeps _ _).bind fun _ => ?_
  refine freshId_keeps.bind fun server => freshId_keeps.bind fun client => ?_
  exact (Keeps.modify fun s => by constructor <;> rfl).bind fun _ => .pure _

/-- A connection leaves all owners alone, or fails. -/
theorem connectPort_keeps (clientPort : RecordId) : Keeps SameOwners (connectPort clientPort).run := by
  refine .run_bind (.run_lift .get) fun s => .run_bind (.run_lift .get) fun s' => ?_
  refine .run_bind (.run_except _) fun port => .run_bind (.run_lift (newSession_keeps _)) fun ends => ?_
  exact .run_bind (.run_lift (setPort_keeps _ _)) fun _ => .run_bind (.run_lift (wake_keeps _)) fun _ => .run_pure _

/-- The end of a port leaves all owners alone. -/
theorem closePort_keeps (serverPort : RecordId) : Keeps SameOwners (closePort serverPort) := by
  refine Keeps.get.bind fun s => Keeps.get.bind fun s' => ?_
  split
  · refine (setPort_keeps _ _).bind fun _ => ?_
    refine Keeps.bind (.forIn fun server _ => (closeServerSession_keeps _).bind fun _ => .pure _) fun _ => ?_
    exact Keeps.get.bind fun _ => wake_keeps _
  · exact .pure _

/-! ### Handle counts -/

/-- A binding that begins is counted beside the owners. -/
theorem handleOpened_keeps (object : KernelObject) : Keeps SameOwners (handleOpened object) :=
  fun _ => by constructor <;> rfl

/-- A binding that is gone may take a session or a port with it, and no owner. -/
theorem handleClosed_keeps (object : KernelObject) : Keeps SameOwners (handleClosed object) := by
  refine Keeps.get.bind fun s => (Keeps.modify fun s => by constructor <;> rfl).bind fun _ => ?_
  split
  · split
    · exact closeClientSession_keeps _
    · exact closeServerSession_keeps _
    · exact closePort_keeps _
    · exact .pure _
  · exact .pure _

end Machine

end Microkernel
