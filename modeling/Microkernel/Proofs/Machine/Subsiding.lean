import Microkernel.Proofs.Machine.Handles
import Microkernel.Proofs.Machine.HostCalls
import Microkernel.Proofs.Memory.Regions

/-!
# Subsiding

A machine subsides to one that has nothing the first does not have: no object, handle, thread, mapping or member of a process set
(`Subsides`). Whatever ends a thread or a process makes a machine subside, as long as its guests take no calls (`Simple`); so does
settling.
-/

namespace Microkernel

/-- Guest code that takes no calls. -/
def Thread.IsPlain (t : Thread) : Prop := t.body = .guest ∧ (t.activity = .none ∨ t.activity = .starting ∨ t.activity = .idle)

/-- An object that closing its last handle does nothing to. -/
def KernelObject.isPlain : KernelObject → Bool
  | event _ | sharedMemory _ | transferMemory _ | process _ | thread _ => true
  | serverPort _ | clientPort _ | serverSession _ | clientSession _ => false

/-- If the process is terminated, it has no handle and no mapping. -/
def Process.Drained (p : Process) : Prop :=
  p.state = .terminated → p.handles.objects = [] ∧ p.handles.count = 0 ∧ p.space.mappings = []

/-! ## Handle tables -/

namespace HandleTable

variable {α : Type} {t t' : HandleTable α} {handle : Handle} {object o : α}

/-- The objects of a table are those in its slots. -/
theorem mem_objects : o ∈ t.objects ↔ ∃ (i : Nat) (e : Entry α), t.slots[i]? = some (some e) ∧ e.object = o := by
  unfold objects
  rw [List.mem_map]
  constructor
  · rintro ⟨b, hb, rfl⟩
    obtain ⟨i, e, he, rfl⟩ := (mem_bindings t b).1 hb
    exact ⟨i, e, he, rfl⟩
  · rintro ⟨i, e, he, rfl⟩
    exact ⟨_, (mem_bindings t _).2 ⟨i, e, he, rfl⟩, rfl⟩

/-- Closing a handle of any table gives the object bound to it, and binds nothing. -/
theorem close_ok (h : t.close handle = .ok (object, t')) :
    object ∈ t.objects ∧ (∀ o ∈ t'.objects, o ∈ t.objects) ∧ t'.count = t.count - 1 := by
  unfold close at h
  cases hr : t.resolve handle with
  | none =>
    rw [hr] at h
    cases h
  | some o =>
    rw [hr] at h
    obtain ⟨rfl, rfl⟩ := Prod.mk.inj (Except.ok.inj h)
    refine ⟨?_, fun o ho => ?_, rfl⟩
    · unfold resolve at hr
      split at hr
      · split at hr
        · next entry he =>
          split at hr
          · obtain rfl := Option.some.inj hr
            have hslot : t.slots[handle.index]? = some (some entry) := Option.join_eq_some_iff.1 he
            exact mem_objects.2 ⟨_, entry, hslot, rfl⟩
          · cases hr
        · cases hr
      · cases hr
    · obtain ⟨i, e, he, rfl⟩ := mem_objects.1 ho
      refine mem_objects.2 ⟨i, e, ?_, rfl⟩
      dsimp only at he
      rw [Array.set!_eq_setIfInBounds, Array.getElem?_setIfInBounds] at he
      split at he
      · split at he <;> cases he
      · exact he

/-- A handle that is made for an object binds no other. -/
theorem generate_ok (h : t.generate object = .ok (handle, t')) :
    (∀ o ∈ t'.objects, o = object ∨ o ∈ t.objects) ∧ t'.count = t.count + 1 := by
  unfold generate at h
  dsimp only at h
  split at h
  · cases h
  · split at h
    · obtain ⟨-, rfl⟩ := Prod.mk.inj (Except.ok.inj h)
      refine ⟨fun o ho => ?_, rfl⟩
      obtain ⟨i, e, he, rfl⟩ := mem_objects.1 ho
      dsimp only at he
      rw [Array.set!_eq_setIfInBounds, Array.getElem?_setIfInBounds] at he
      split at he
      · split at he
        · obtain rfl := Option.some.inj (Option.some.inj he)
          exact .inl rfl
        · cases he
      · exact .inr (mem_objects.2 ⟨i, e, he, rfl⟩)
    · obtain ⟨-, rfl⟩ := Prod.mk.inj (Except.ok.inj h)
      refine ⟨fun o ho => ?_, rfl⟩
      obtain ⟨i, e, he, rfl⟩ := mem_objects.1 ho
      dsimp only at he
      rw [Array.getElem?_push] at he
      split at he
      · obtain rfl := Option.some.inj (Option.some.inj he)
        exact .inl rfl
      · exact .inr (mem_objects.2 ⟨i, e, he, rfl⟩)

end HandleTable

/-! ## What does not grow -/

/-- The kernels have the same regions and memory, and the second has no other members than the first. -/
structure Kernel.Subsides (k k' : Kernel) : Prop where
  region : ∀ kind, k'.region kind = k.region kind
  complete : k.Complete → k'.Complete
  memory : k'.host.memory = k.host.memory
  member : ∀ (pid : Nat) (id : RecordId), k'.processes[pid]? = some id → k.processes[pid]? = some id
  namedPorts : k'.namedPorts = k.namedPorts

instance : IsPreorder Kernel Kernel.Subsides where
  refl _ := ⟨fun _ => rfl, fun h => h, rfl, fun _ _ h => h, rfl⟩
  trans _ _ _ h h' := ⟨fun kind => (h'.region kind).trans (h.region kind), fun hc => h'.complete (h.complete hc),
    h'.memory.trans h.memory, fun pid id hm => h.member pid id (h'.member pid id hm), h'.namedPorts.trans h.namedPorts⟩

/-- What the second process has, the first has too. -/
structure Process.Subsides (p q : Process) : Prop where
  object : ∀ o ∈ q.handles.objects, o ∈ p.handles.objects
  thread : ∀ t ∈ q.threads, t ∈ p.threads
  mapping : ∀ m ∈ q.space.mappings, ∃ m₀ ∈ p.space.mappings, ∃ permission, m = { m₀ with permission }
  drained : p.Drained → q.Drained

instance : IsPreorder Process Process.Subsides where
  refl _ := ⟨fun _ h => h, fun _ h => h, fun m hm => ⟨m, hm, m.permission, rfl⟩, fun h => h⟩
  trans _ _ _ h h' := by
    refine ⟨fun o ho => h.object o (h'.object o ho), fun t ht => h.thread t (h'.thread t ht), fun m hm => ?_,
      fun hd => h'.drained (h.drained hd)⟩
    obtain ⟨m₁, hm₁, permission, rfl⟩ := h'.mapping m hm
    obtain ⟨m₀, hm₀, _, rfl⟩ := h.mapping m₁ hm₁
    exact ⟨m₀, hm₀, permission, rfl⟩

/-- A process that is drained as it is terminated. -/
theorem Process.subsides_terminated (p : Process) :
    p.Subsides { p with handles := p.handles.drain.2, space := {}, state := .terminated } where
  object _ ho := nomatch ho
  thread _ ht := ht
  mapping _ hm := nomatch hm
  drained _ _ := ⟨rfl, rfl, rfl⟩

namespace Machine

/-- There are no sessions, ports, servers and services. -/
def Bare (s : Machine) : Prop :=
  s.ports = {} ∧ s.serverPorts = {} ∧ s.clientPorts = {} ∧ s.sessions = {} ∧ s.serverSessions = {} ∧ s.clientSessions = {} ∧
    s.requests = {} ∧ s.services = {} ∧ s.servers = {} ∧ s.registries = {} ∧ ∀ k, (s.kernel k).namedPorts = {}

/-- What the second machine has, the first has too, with the same pages. -/
structure Subsides (s t : Machine) : Prop where
  nextId : t.nextId = s.nextId
  allocation : ∀ id : AllocationId, t.allocations[id]? = s.allocations[id]?
  kernel : ∀ k, (s.kernel k).Subsides (t.kernel k)
  process : ∀ id, (s.process id).Subsides (t.process id)
  thread : ∀ id, (s.thread id).IsPlain → (t.thread id).IsPlain
  object : ∀ o, t.has o = true → s.has o = true
  kernelOf : ∀ id, t.has (.process id) = true → (t.process id).kernel = (s.process id).kernel
  processOf : ∀ id, t.has (.thread id) = true → (t.thread id).process = (s.thread id).process
  shared : ∀ (id : RecordId) m, t.sharedMemories[id]? = some m → s.sharedMemories[id]? = some m
  transfer : ∀ (id : RecordId) m, t.transferMemories[id]? = some m →
    ∃ m₀, s.transferMemories[id]? = some m₀ ∧ m.pages = m₀.pages ∧ m.backing = m₀.backing
  held : ∀ id ∈ t.held, id ∈ s.held
  bare : s.Bare → t.Bare

instance : IsPreorder Machine Subsides where
  refl _ := ⟨rfl, fun _ => rfl, fun _ => refl _, fun _ => refl _, fun _ h => h, fun _ h => h, fun _ _ => rfl, fun _ _ => rfl,
    fun _ _ h => h, fun _ m h => ⟨m, h, rfl, rfl⟩, fun _ h => h, fun h => h⟩
  trans _ _ _ h h' := by
    constructor
    case nextId => exact h'.nextId.trans h.nextId
    case allocation => exact fun id => (h'.allocation id).trans (h.allocation id)
    case kernel => exact fun k => IsTrans.trans _ _ _ (h.kernel k) (h'.kernel k)
    case process => exact fun id => IsTrans.trans _ _ _ (h.process id) (h'.process id)
    case thread => exact fun id hp => h'.thread id (h.thread id hp)
    case object => exact fun o ho => h.object o (h'.object o ho)
    case kernelOf => exact fun id hid => (h'.kernelOf id hid).trans (h.kernelOf id (h'.object _ hid))
    case processOf => exact fun id hid => (h'.processOf id hid).trans (h.processOf id (h'.object _ hid))
    case shared => exact fun id m hm => h.shared id m (h'.shared id m hm)
    case transfer =>
      intro id m hm
      obtain ⟨m₁, hm₁, hp₁, hb₁⟩ := h'.transfer id m hm
      obtain ⟨m₀, hm₀, hp₀, hb₀⟩ := h.transfer id m₁ hm₁
      exact ⟨m₀, hm₀, hp₁.trans hp₀, hb₁.trans hb₀⟩
    case held => exact fun id hid => h.held id (h'.held id hid)
    case bare => exact fun hb => h'.bare (h.bare hb)

namespace Subsides

variable {s : Machine}

/-- Telling, waking and counting handles. -/
theorem told (s : Machine) (journal : Array JournalLine) (wakeUps : WakeUps) (handleCounts : Std.TreeMap RecordId Nat) :
    Subsides s { s with journal, wakeUps, handleCounts } :=
  let h := refl (r := Subsides) s
  { nextId := rfl, allocation := h.allocation, kernel := h.kernel, process := h.process, thread := h.thread, object := h.object
    kernelOf := h.kernelOf, processOf := h.processOf, shared := h.shared, transfer := h.transfer, held := h.held
    bare := fun h => h }

/-- With other threads a machine has subsided, if none is new, none has another process, and plain ones are plain still. -/
theorem withThreads {threads : Records Thread} (hplain : ∀ id, (s.thread id).IsPlain → (threads.getD id default).IsPlain)
    (hold : ∀ id, threads.contains id = true →
      s.has (.thread id) = true ∧ (threads.getD id default).process = (s.thread id).process) :
    Subsides s { s with threads } :=
  let h := refl (r := Subsides) s
  { nextId := rfl, allocation := h.allocation, kernel := h.kernel, process := h.process, thread := hplain
    object := fun o ho => by
      cases o
      case thread id => exact (hold id ho).1
      all_goals exact ho
    kernelOf := h.kernelOf, processOf := fun id hid => (hold id hid).2, shared := h.shared, transfer := h.transfer, held := h.held
    bare := fun h => h }

/-- With other processes a machine has subsided, if none is new and each has subsided. -/
theorem withProcesses {processes : Records Process} (hsub : ∀ id, (s.process id).Subsides (processes.getD id default))
    (hold : ∀ id, processes.contains id = true →
      s.has (.process id) = true ∧ (processes.getD id default).kernel = (s.process id).kernel) :
    Subsides s { s with processes } :=
  let h := refl (r := Subsides) s
  { nextId := rfl, allocation := h.allocation, kernel := h.kernel, process := hsub, thread := h.thread
    object := fun o ho => by
      cases o
      case process id => exact (hold id ho).1
      all_goals exact ho
    kernelOf := fun id hid => (hold id hid).2, processOf := h.processOf, shared := h.shared, transfer := h.transfer, held := h.held
    bare := fun h => h }

/-- One thread that becomes another makes a machine subside, if it was there and keeps its process. -/
theorem setThread {id : RecordId} {t : Thread} (hid : s.has (.thread id) = true) (hprocess : t.process = (s.thread id).process)
    (hplain : (s.thread id).IsPlain → t.IsPlain) : Subsides s (Machine.setThread id t s).2 := by
  refine withThreads (fun other ho => ?_) fun other ho => ?_
  · rw [Records.getD_insert]
    split
    · next heq =>
      subst heq
      exact hplain ho
    · exact ho
  · rw [Records.getD_insert]
    split
    · next heq =>
      subst heq
      exact ⟨hid, hprocess⟩
    · next hne => exact ⟨((Records.contains_insert _ _ _ _).1 ho).resolve_left hne, rfl⟩

/-- One process that becomes another makes a machine subside, if it was there and has subsided. -/
theorem setProcess {id : RecordId} {p : Process} (hid : s.has (.process id) = true) (hkernel : p.kernel = (s.process id).kernel)
    (hp : (s.process id).Subsides p) : Subsides s (Machine.setProcess id p s).2 := by
  refine withProcesses (fun other => ?_) fun other ho => ?_
  · rw [Records.getD_insert]
    split
    · next heq =>
      subst heq
      exact hp
    · exact refl _
  · rw [Records.getD_insert]
    split
    · next heq =>
      subst heq
      exact ⟨hid, hkernel⟩
    · next hne => exact ⟨((Records.contains_insert _ _ _ _).1 ho).resolve_left hne, rfl⟩

/-- A kernel that has subsided makes its machine subside. -/
theorem setKernel {id : RecordId} {k : Kernel} (hk : (s.kernel id).Subsides k) : Subsides s (Machine.setKernel id k s).2 :=
  have hkernel (other : RecordId) : (s.kernel other).Subsides ((Machine.setKernel id k s).2.kernel other) := by
    change Kernel.Subsides _ (Machine.kernel { s with kernels := s.kernels.insert id k } other)
    rw [kernel_insert]
    split
    · next heq =>
      subst heq
      exact hk
    · exact refl _
  let h := refl (r := Subsides) s
  { nextId := rfl, allocation := h.allocation, kernel := hkernel, process := h.process, thread := h.thread, object := h.object
    kernelOf := h.kernelOf, processOf := h.processOf, shared := h.shared, transfer := h.transfer, held := h.held
    bare := fun ⟨h1, h2, h3, h4, h5, h6, h7, h8, h9, h10, h11⟩ =>
      ⟨h1, h2, h3, h4, h5, h6, h7, h8, h9, h10, fun k => (hkernel k).namedPorts.trans (h11 k)⟩ }

end Subsides

/-- Where there are no sessions and ports, no object is an end of one. -/
theorem Bare.isPlain {s : Machine} (h : s.Bare) {o : KernelObject} (ho : s.has o = true) : o.isPlain = true := by
  obtain ⟨-, hserverPorts, hclientPorts, -, hserverSessions, hclientSessions, -⟩ := h
  cases o
  case serverPort i => cases (hserverPorts ▸ ho : ({} : Records PortEnd).contains i = true)
  case clientPort i => cases (hclientPorts ▸ ho : ({} : Records PortEnd).contains i = true)
  case serverSession i => cases (hserverSessions ▸ ho : ({} : Records SessionEnd).contains i = true)
  case clientSession i => cases (hclientSessions ▸ ho : ({} : Records SessionEnd).contains i = true)
  all_goals rfl

/-! ## Machines whose guests take no calls -/

/-- The guests take no calls, and what the machine has belongs together. -/
structure Simple (kernel : RecordId) (s : Machine) : Prop where
  thread : ∀ id, (s.thread id).IsPlain
  object : ∀ id, ∀ o ∈ (s.process id).handles.objects, o.isPlain = true
  threadOf : ∀ id, ∀ t ∈ (s.process id).threads, s.has (.thread t) = true
  kernelOf : ∀ id, s.has (.process id) = true → (s.process id).kernel = kernel
  bare : s.Bare

/-- Subsiding keeps a machine simple as long as it does not lose the threads of its processes. -/
theorem Simple.of_subsides {kernel : RecordId} {s t : Machine} (h : Simple kernel s) (hs : Subsides s t)
    (hthread : ∀ id, ∀ th ∈ (t.process id).threads, t.has (.thread th) = true) : Simple kernel t where
  thread id := hs.thread id (h.thread id)
  object id o ho := h.object id o ((hs.process id).object o ho)
  threadOf := hthread
  kernelOf id hid := (hs.kernelOf id hid).trans (h.kernelOf id (hs.object _ hid))
  bare := hs.bare h.bare

/-- From a simple machine that has the objects `known`, to one that has subsided without losing an object. -/
def Calm (kernel : RecordId) (known : KernelObject → Prop) (s t : Machine) : Prop :=
  Simple kernel s → (∀ o, known o → s.has o = true) → Subsides s t ∧ ∀ o, s.has o = true → t.has o = true

namespace Calm

variable {kernel : RecordId} {known : KernelObject → Prop} {s t : Machine}

/-- Calm leads from simple machines to simple ones. -/
theorem simple (h : Calm kernel known s t) (hs : Simple kernel s) (hk : ∀ o, known o → s.has o = true) : Simple kernel t := by
  obtain ⟨hsub, hhas⟩ := h hs hk
  exact hs.of_subsides hsub fun id th hth => hhas _ (hs.threadOf id th ((hsub.process id).thread th hth))

instance : IsPreorder Machine (Calm kernel known) where
  refl s := fun _ _ => ⟨refl s, fun _ h => h⟩
  trans _ _ _ h h' := fun hs hk => by
    obtain ⟨hsub, hhas⟩ := h hs hk
    obtain ⟨hsub', hhas'⟩ := h' (h.simple hs hk) fun o ho => hhas o (hk o ho)
    exact ⟨IsTrans.trans _ _ _ hsub hsub', fun o ho => hhas' o (hhas o ho)⟩

/-- A step that subsides and keeps the objects. -/
theorem of_subsides (h : Simple kernel s → (∀ o, known o → s.has o = true) → Subsides s t)
    (hhas : ∀ o, s.has o = true → t.has o = true) :
    Calm kernel known s t := fun hs hk => ⟨h hs hk, hhas⟩

end Calm

/-! ## Programs -/

section Programs

variable {kernel : RecordId} {known : KernelObject → Prop}

/-- Setting a thread loses no object. -/
theorem has_setThread {s : Machine} {id : RecordId} {t : Thread} {o : KernelObject} (h : s.has o = true) :
    (setThread id t s).2.has o = true := by
  cases o
  case thread other => exact (Records.contains_insert _ _ _ _).2 (.inr h)
  all_goals exact h

/-- Setting a process loses no object. -/
theorem has_setProcess {s : Machine} {id : RecordId} {p : Process} {o : KernelObject} (h : s.has o = true) :
    (setProcess id p s).2.has o = true := by
  cases o
  case process other => exact (Records.contains_insert _ _ _ _).2 (.inr h)
  all_goals exact h

/-- Changing a process that exists makes no object. -/
theorem has_of_setProcess {s : Machine} {id : RecordId} {p : Process} {o : KernelObject} (hid : s.has (.process id) = true)
    (h : (setProcess id p s).2.has o = true) : s.has o = true := by
  cases o
  case process other => exact ((Records.contains_insert _ _ _ _).1 h).elim (fun heq => heq ▸ hid) fun h => h
  all_goals exact h

/-- A process that does not exist has been created and no more. -/
theorem has_process_of_state {s : Machine} {id : RecordId} (h : (s.process id).state ≠ .created) : s.has (.process id) = true := by
  cases hid : s.has (.process id) with
  | true => rfl
  | false =>
    refine absurd ?_ h
    unfold process
    rw [Std.TreeMap.getD_eq_fallback_of_contains_eq_false hid]
    rfl

theorem log_calm (level : Level) (text : String) : Keeps (Calm kernel known) (log level text) :=
  fun s => .of_subsides (fun _ _ => .told s _ s.wakeUps s.handleCounts) fun _ h => h

theorem wake_calm (l : WaitList) : Keeps (Calm kernel known) (wake l) :=
  fun s => .of_subsides (fun _ _ => .told s s.journal _ s.handleCounts) fun _ h => h

theorem wakeOne_calm (parker : ParkerId) : Keeps (Calm kernel known) (wakeOne parker) :=
  fun s => .of_subsides (fun _ _ => .told s s.journal _ s.handleCounts) fun _ h => h

/-- Setting a known thread is calm, if it keeps its process and stays plain. -/
theorem setThread_calm {s : Machine} {id : RecordId} {t : Thread} (hid : known (.thread id))
    (hprocess : t.process = (s.thread id).process) (hplain : (s.thread id).IsPlain → t.IsPlain) :
    Calm kernel known s (setThread id t s).2 :=
  .of_subsides (fun _ hk => .setThread (hk _ hid) hprocess hplain) fun _ => has_setThread

/-- Setting a process that is there is calm, if it has subsided. -/
theorem setProcess_calm {s : Machine} {id : RecordId} {p : Process}
    (hid : (∀ o, known o → s.has o = true) → s.has (.process id) = true) (hkernel : p.kernel = (s.process id).kernel)
    (hp : (s.process id).Subsides p) : Calm kernel known s (setProcess id p s).2 :=
  .of_subsides (fun _ hk => .setProcess (hid hk) hkernel hp) fun _ => has_setProcess

theorem audit_calm (id : RecordId) (event : KernelEvent) : Keeps (Calm kernel known) (audit id event) :=
  fun _ => .of_subsides (fun _ _ => .setKernel ⟨fun _ => rfl, fun h => h, rfl, fun _ _ h => h, rfl⟩) fun _ h => h

/-! ### Threads -/

theorem moveThread_calm {id : RecordId} (hid : known (.thread id)) (event : ThreadEvent) :
    Keeps (Calm kernel known) (moveThread id event) := by
  refine Keeps.look fun s => ?_
  cases (s.thread id).state.next? event with
  | none => exact log_calm _ _ s
  | some state =>
    have hwake : Keeps (Calm kernel known) (do if state = .exited then wake (s.thread id).waiters) := by
      split
      · exact wake_calm _
      · exact .pure _
    exact IsTrans.trans _ (setThread id { s.thread id with state } s).2 _ (setThread_calm hid rfl fun h => h) (hwake _)

/-- A known thread may start, or be idle: neither takes a call. -/
theorem setActivity_calm {id : RecordId} (hid : known (.thread id)) {activity : Activity}
    (h : activity = .none ∨ activity = .starting ∨ activity = .idle) : Keeps (Calm kernel known) (setActivity id activity) :=
  Keeps.look fun _ => setThread_calm hid rfl fun hp => ⟨hp.1, h⟩

theorem startThread_calm {id : RecordId} (hid : known (.thread id)) : Keeps (Calm kernel known) (startThread id) :=
  (moveThread_calm hid _).bind fun _ => setActivity_calm hid (.inr (.inl rfl))

/-- Asking a known thread to exit is calm. -/
theorem requestTermination_calm {id : RecordId} (hid : known (.thread id)) : Keeps (Calm kernel known) (requestTermination id) :=
  Keeps.look fun s => IsTrans.trans _ (setThread id { s.thread id with terminationRequested := true } s).2 _
    (setThread_calm hid rfl fun hp => hp) (wakeOne_calm _ _)

/-! ### Processes -/

/-- A process that moves on is calm, short of its end. -/
theorem moveProcess_calm {s : Machine} {id : RecordId} (hid : (∀ o, known o → s.has o = true) → s.has (.process id) = true)
    {event : ProcessEvent} (he : event ≠ .finishTermination) : Calm kernel known s (moveProcess id event s).2 := by
  rw [moveProcess, Update.run_look]
  cases h : (s.process id).state.next? event with
  | none => exact refl s
  | some state =>
    refine setProcess_calm hid rfl ⟨fun _ ho => ho, fun _ ht => ht, fun m hm => ⟨m, hm, m.permission, rfl⟩, ?_⟩
    intro _ hstate
    dsimp only at hstate
    subst hstate
    cases hs : (s.process id).state <;> cases event <;> simp [hs, ProcessState.next?] at h he

theorem setPaused_calm {id : RecordId} (hid : known (.process id)) (paused : Bool) :
    Keeps (Calm kernel known) (setPaused id paused) :=
  Keeps.look fun _ => setProcess_calm (fun hk => hk _ hid) rfl
    ⟨fun _ ho => ho, fun _ ht => ht, fun m hm => ⟨m, hm, m.permission, rfl⟩, fun h => h⟩

/-- Closing a handle of a plain object counts it and does nothing else. -/
theorem handleClosed_of_plain {o : KernelObject} (h : o.isPlain = true) (s : Machine) :
    (handleClosed o s).2 = { s with handleCounts := s.handleCounts.insert o.id (s.handleCount o.id - 1) } := by
  cases o
  case serverPort | clientPort | serverSession | clientSession => cases h
  all_goals
    unfold handleClosed
    rw [Update.run_look, Update.run_bind, ite_self]
    rfl

/-- Closing plain objects changes handle counts and nothing else. -/
theorem closePlain_run {bindings : List (Handle × KernelObject)} (h : ∀ b ∈ bindings, b.2.isPlain = true) (s : Machine) :
    ∃ handleCounts, ((do for (_, object) in bindings do handleClosed object : Update Unit) s).2 = { s with handleCounts } := by
  induction bindings generalizing s with
  | nil => exact ⟨s.handleCounts, rfl⟩
  | cons b rest ih =>
    obtain ⟨handleCounts, hrest⟩ := ih (fun b hb => h b (List.mem_cons_of_mem _ hb)) (handleClosed b.2 s).2
    refine ⟨handleCounts, ?_⟩
    rw [List.forIn_cons]
    refine Eq.trans hrest ?_
    rw [handleClosed_of_plain (h b List.mem_cons_self)]

/-- The end of a termination drains the process. -/
theorem finishTermination_calm (id : RecordId) : Keeps (Calm kernel known) (finishTermination id) := by
  intro s
  rw [finishTermination, Update.run_look]
  dsimp only
  cases h : (s.process id).state.next? .finishTermination with
  | none => exact refl s
  | some state =>
    obtain ⟨hstate, rfl⟩ := ProcessState.of_finishTermination h
    have hlast (l : WaitList) (text : String) (event : KernelEvent) : Keeps (Calm kernel known) (do
        wake l
        log .info text
        let _ ← audit (s.process id).kernel event) :=
      (wake_calm _).bind fun _ => (log_calm _ _).bind fun _ => (audit_calm _ _).bind fun _ => .pure _
    let released := { s.process id with handles := (s.process id).handles.drain.2, space := {} }
    let t := ((do for (_, object) in (s.process id).handles.drain.1 do handleClosed object : Update Unit)
      (setProcess id released s).2).2
    let u := (setProcess id { t.process id with state := .terminated } t).2
    have hu : Calm kernel known s u := by
      intro hs _
      have hid : s.has (.process id) = true := has_process_of_state (by rw [hstate]; decide)
      have hplain : ∀ b ∈ (s.process id).handles.drain.1, b.2.isPlain = true := fun b hb =>
        hs.object id b.2 (List.mem_map_of_mem hb)
      obtain ⟨handleCounts, ht⟩ : ∃ handleCounts, t = { (setProcess id released s).2 with handleCounts } := closePlain_run hplain _
      have hreleased : t.process id = released := by
        rw [ht]
        exact (process_insert s id id released).trans (if_pos rfl)
      -- both changes of the process together
      have hsame : Subsides s u := by
        have hfinal : Subsides { s with handleCounts } { { s with handleCounts } with
            processes := (s.processes.insert id released).insert id { released with state := .terminated } } := by
          refine Subsides.withProcesses (fun other => ?_) fun other ho => ?_
          · rw [Records.getD_insert, Records.getD_insert]
            split
            · next heq =>
              subst heq
              exact (s.process other).subsides_terminated
            · exact refl (s.process other)
          · rw [Records.getD_insert, Records.getD_insert]
            split
            · next heq =>
              subst heq
              exact ⟨hid, rfl⟩
            · next hne =>
              rw [Records.contains_insert, Records.contains_insert] at ho
              exact ⟨(ho.resolve_left hne).resolve_left hne, rfl⟩
        have hu : u = { { s with handleCounts } with
            processes := (s.processes.insert id released).insert id { released with state := .terminated } } := by
          change (setProcess id { t.process id with state := .terminated } t).2 = _
          rw [hreleased, ht]
          rfl
        rw [hu]
        exact IsTrans.trans _ _ _ (Subsides.told s s.journal s.wakeUps handleCounts) hfinal
      exact ⟨hsame, fun o ho => by
        refine has_setProcess ?_
        rw [ht]
        exact has_setProcess ho⟩
    exact IsTrans.trans _ _ _ hu (hlast (u.process id).waiters s!"Process {(s.process id).name} ({(s.process id).pidText}) terminated"
      (.processTerminated (s.process id).pid) u)

/-- A process that learns that its last thread has exited may end, which is calm. -/
theorem threadExited_calm (id : RecordId) : Keeps (Calm kernel known) (threadExited id) := by
  refine Keeps.look fun s => ?_
  split
  · split
    · next hrunning =>
      have hid : s.has (.process id) = true := has_process_of_state (by rw [hrunning]; decide)
      exact IsTrans.trans _ _ _ (moveProcess_calm (fun _ => hid) (by decide)) (finishTermination_calm id _)
    · exact finishTermination_calm id s
  · exact refl s

/-- The exit of a known thread is calm. -/
theorem exitThread_calm {id : RecordId} (hid : known (.thread id)) (ending : ThreadEnd) :
    Keeps (Calm kernel known) (exitThread id ending) := by
  have hexit (process : RecordId) : Keeps (Calm kernel known) (do
      setActivity id .none
      moveThread id .exit
      moveThread id .finish
      threadExited process) :=
    (setActivity_calm hid (.inl rfl)).bind fun _ => (moveThread_calm hid _).bind fun _ => (moveThread_calm hid _).bind fun _ =>
      threadExited_calm _
  refine Keeps.get.bind fun s => Keeps.get.bind fun s' => ?_
  split
  · exact hexit _
  · exact hexit _
  · exact (log_calm _ _).bind fun _ => hexit _
  · exact (log_calm _ _).bind fun _ => hexit _

/-- A guest thread that takes no calls is stopped by letting it exit. -/
theorem stopThread_calm {id : RecordId} (hid : known (.thread id)) : Keeps (Calm kernel known) (stopThread id) := by
  intro s hs hk
  obtain ⟨hbody, hactivity⟩ := hs.thread id
  have hexit : Keeps (Calm kernel known) (exitThread id .returned) := exitThread_calm hid .returned
  refine (?_ : Calm kernel known s (stopThread id s).2) hs hk
  rw [stopThread, Update.run_look]
  dsimp only
  rw [hbody]
  rcases hactivity with h | h | h <;> rw [h]
  · exact refl s
  · exact (moveThread_calm hid .run).bind (fun _ => hexit) s
  · exact hexit s

/-- A termination of a process whose threads are known. -/
theorem terminateProcess_calm {id : RecordId} (hid : known (.process id)) (caller : Option RecordId) {s : Machine}
    (hknown : ∀ t ∈ (s.process id).threads, known (.thread t)) : Calm kernel known s (terminateProcess id caller s).2 := by
  intro hs hk
  have hmove : Calm kernel known s (moveProcess id .beginTermination s).2 := moveProcess_calm (fun hk => hk _ hid) (by decide)
  have hthreads : ∀ t ∈ ((moveProcess id .beginTermination s).2.process id).threads, known (.thread t) := fun t ht =>
    hknown t (((hmove hs hk).1.process id).thread t ht)
  refine (?_ : Calm kernel known s (terminateProcess id caller s).2) hs hk
  rw [terminateProcess, Update.run_bind]
  refine IsTrans.trans _ _ _ hmove ?_
  generalize moveProcess id .beginTermination s = moved at hthreads ⊢
  split
  · rw [Update.run_look]
    refine ((log_calm _ _).bind fun _ => ?_) moved.2
    refine Keeps.bind (.forIn_mem fun t ht _ => (requestTermination_calm (hthreads t ht)).bind fun _ => .pure _) fun _ => ?_
    refine (setPaused_calm hid false).bind fun _ => Keeps.bind (.forIn_mem fun t ht _ => ?_) fun _ => Keeps.get.bind fun _ => ?_
    · split
      · exact (stopThread_calm (hthreads t ht)).bind fun _ => .pure _
      · exact .pure _
    · dsimp only
      split
      · exact finishTermination_calm _
      · exact .pure _
  · exact refl _

/-! ### Kernels -/

theorem takeThreadId_calm (id : RecordId) : Keeps (Calm kernel known) (takeThreadId id) :=
  fun _ => .of_subsides (fun _ _ => .setKernel ⟨fun _ => rfl, fun h => h, rfl, fun _ _ h => h, rfl⟩) fun _ h => h

/-- Reaping is calm: members only leave. -/
theorem reapTerminated_calm (id : RecordId) : Keeps (Calm kernel known) (reapTerminated id) := by
  refine fun s => .of_subsides (fun _ _ => .setKernel ⟨fun _ => rfl, fun h => h, rfl, fun pid member h => ?_, rfl⟩) fun _ h => h
  exact (Option.filter_eq_some_iff.1 ((getElem?_live s _ pid).symm.trans h)).1

/-! ### Handles and mappings -/

/-- Closing a handle of a known process is calm. -/
theorem closeHandle_calm {id : RecordId} (hid : known (.process id)) (handle : Handle) :
    Keeps (Calm kernel known) (closeHandle id handle).run := by
  intro s hs hk
  refine (?_ : Calm kernel known s ((closeHandle id handle).run s).2) hs hk
  cases hc : (s.process id).handles.close handle with
  | error e =>
    rw [closeHandle_of_error hc]
    exact refl s
  | ok result =>
    obtain ⟨object, handles⟩ := result
    have hrun : ((closeHandle id handle).run s).2 = (handleClosed object (setProcess id { s.process id with handles } s).2).2 := by
      rw [closeHandle, Action.run_look]
      simp only [hc]
      rfl
    obtain ⟨hobject, hobjects, hcount⟩ := HandleTable.close_ok hc
    have hrelease : Calm kernel known s (setProcess id { s.process id with handles } s).2 := by
      refine setProcess_calm (fun hk => hk _ hid) rfl ⟨hobjects, fun _ ht => ht, fun m hm => ⟨m, hm, m.permission, rfl⟩, ?_⟩
      intro hd hstate
      obtain ⟨hnone, hzero, hspace⟩ := hd hstate
      refine ⟨List.eq_nil_iff_forall_not_mem.2 fun o ho => ?_, by rw [hcount, hzero], hspace⟩
      exact absurd (hobjects o ho) (hnone ▸ List.not_mem_nil)
    rw [hrun]
    refine IsTrans.trans _ _ _ hrelease ?_
    rw [handleClosed_of_plain (hs.object id object hobject)]
    exact .of_subsides (fun _ _ => .told _ _ _ _) fun _ h => h

/-- A process whose mappings are fewer, or have other permissions. -/
theorem setSpace_calm {s : Machine} {id : RecordId} {space : AddressSpace}
    (hid : (∀ o, known o → s.has o = true) → s.has (.process id) = true)
    (h : ∀ m ∈ space.mappings, ∃ m₀ ∈ (s.process id).space.mappings, ∃ permission, m = { m₀ with permission }) :
    Calm kernel known s (setSpace id space s).2 := by
  refine setProcess_calm hid rfl ⟨fun _ ho => ho, fun _ ht => ht, h, fun hd hstate => ?_⟩
  obtain ⟨hnone, hzero, hspace⟩ := hd hstate
  refine ⟨hnone, hzero, List.eq_nil_iff_forall_not_mem.2 fun m hm => ?_⟩
  obtain ⟨m₀, hm₀, -⟩ := h m hm
  exact absurd hm₀ (hspace ▸ List.not_mem_nil)

/-- Unmapping an object from a known process is calm. -/
theorem unmapObject_calm {id : RecordId} (hid : known (.process id)) (address size : Nat) (object : RecordId) :
    Keeps (Calm kernel known) (unmapObject id address size object).run := by
  intro s
  rw [unmapObject, Action.run_look, Action.run_except_bind]
  cases hu : (s.process id).space.unmap address size (some object) with
  | error e => exact refl s
  | ok result =>
    refine setSpace_calm (fun hk => hk _ hid) fun m hm => ⟨m, AddressSpace.unmap_ok hu m hm, m.permission, rfl⟩

/-- A process that has a mapping exists. -/
theorem has_process_of_mapping {s : Machine} {id : RecordId} (h : (s.process id).space.mappings ≠ []) :
    s.has (.process id) = true := by
  cases hid : s.has (.process id) with
  | true => rfl
  | false =>
    refine absurd ?_ h
    unfold process
    rw [Std.TreeMap.getD_eq_fallback_of_contains_eq_false hid]
    rfl

theorem setMappingPermission_calm (id : RecordId) (address : Nat) (permission : Permission) :
    Keeps (Calm kernel known) (setMappingPermission id address permission).run := by
  intro s
  rw [setMappingPermission, Action.run_look, Action.run_except_bind]
  cases hp : (s.process id).space.setPermission address permission with
  | error e => exact refl s
  | ok space =>
    obtain ⟨hsome, hall⟩ := AddressSpace.setPermission_ok hp
    exact setSpace_calm (fun _ => has_process_of_mapping hsome) hall

/-! ## Settling -/

/-- A guest thread that takes no calls starts, or exits because it is asked to. -/
theorem runThread_calm {id : RecordId} (hid : known (.thread id)) : Keeps (Calm kernel known) (runThread id) := by
  intro s hs hk
  obtain ⟨hbody, hactivity⟩ := hs.thread id
  refine (?_ : Calm kernel known s (runThread id s).2) hs hk
  rw [runThread, Update.run_look, hbody]
  rcases hactivity with h | h | h <;> rw [h]
  · exact refl s
  · exact (moveThread_calm hid .run).bind (fun _ => setActivity_calm hid (.inr (.inr rfl))) s
  · exact exitThread_calm hid .returned s

end Programs

/-- A thread that can run is there. -/
theorem has_of_nextRunnable? {s : Machine} {id : RecordId} (h : s.nextRunnable? = some id) : s.has (.thread id) = true := by
  obtain ⟨⟨id', t⟩, hfind, rfl⟩ := Option.map_eq_some_iff.1 h
  have hmem := List.mem_of_find?_eq_some hfind
  exact Records.contains_of_getElem? (Std.TreeMap.mem_toList_iff_getElem?_eq_some.1 hmem)

/-- Settling makes a simple machine subside, and loses no object. -/
theorem settle_calm (kernel : RecordId) : Keeps (Calm kernel fun _ => False) settle := by
  suffices h : ∀ fuel, Keeps (Calm kernel fun _ => False) (settleFor fuel) from h settleLimit
  intro fuel
  induction fuel with
  | zero => exact .pure _
  | succ fuel ih =>
    refine Keeps.look fun s => ?_
    cases hnext : s.nextRunnable? with
    | none => exact refl s
    | some id =>
      have hrun : Calm kernel (.thread id = ·) s (runThread id s).2 := runThread_calm rfl s
      have hcalm : Calm kernel (fun _ => False) s (runThread id s).2 := fun hs _ =>
        hrun hs fun o ho => ho ▸ has_of_nextRunnable? hnext
      exact IsTrans.trans _ _ _ hcalm (ih _)

end Machine

end Microkernel
