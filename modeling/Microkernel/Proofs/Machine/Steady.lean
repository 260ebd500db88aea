import Microkernel.Proofs.Machine.MemoryObjects
import Microkernel.Proofs.Machine.Sweeping
import Microkernel.Proofs.Memory.Spaces

/-!
# What maps no memory object

Whatever maps and unmaps no memory object leaves the mappings of objects as they are, in every process that is not terminated by it
(`SameMapped`, `Steady`). That holds of all that hosts ask for, the calls about memory objects apart, and of settling.
-/

namespace Microkernel

namespace AddressSpace

variable {s s' : AddressSpace} {m : Mapping}

/-- The mappings of memory objects. -/
def forObjects (s : AddressSpace) : List Mapping := s.mappings.filter (·.object.isSome)

/-- The mappings for objects are those that have one. -/
theorem mem_forObjects : m ∈ s.forObjects ↔ m ∈ s.mappings ∧ ∃ i, m.object = some i := by
  rw [forObjects, List.mem_filter, Option.isSome_iff_exists]

/-- Memory that is mapped for no object makes no difference to the mappings of objects. -/
theorem forObjects_map (h : s.map m = .ok s') (hm : m.object = none) : s'.forObjects = s.forObjects := by
  rw [forObjects, forObjects, (map_ok h).2]
  induction s.mappings with
  | nil => simp [insert, hm]
  | cons next rest ih =>
    unfold insert
    split
    · simp [hm]
    · rw [List.filter_cons, List.filter_cons, ih]

end AddressSpace

/-! ## Processes -/

/-- The mappings of objects are the same, unless the process has been terminated; then there are none. Other mappings stay. -/
structure SameMapped (id : RecordId) (p q : Process) : Prop where
  ordered : p.space.Ordered → q.space.Ordered
  ended : p.state = .terminated → q.state = .terminated
  objects : q.state = .terminated ∧ q.space.forObjects = [] ∨
    (q.state = .terminated → p.state = .terminated) ∧ q.space.forObjects = p.space.forObjects
  own : q.state = .terminated ∨ ∀ m ∈ p.space.mappings, m.object = none → m ∈ q.space.mappings

namespace SameMapped

variable {id : RecordId} {p q : Process}

instance (id : RecordId) : IsPreorder Process (SameMapped id) where
  refl _ := ⟨fun h => h, fun h => h, .inr ⟨fun h => h, rfl⟩, .inr fun _ hm _ => hm⟩
  trans _ _ _ h h' := by
    refine ⟨fun ho => h'.ordered (h.ordered ho), fun he => h'.ended (h.ended he), ?_, ?_⟩
    · rcases h'.objects with hgone | ⟨hstate, hsame⟩
      · exact .inl hgone
      · rcases h.objects with ⟨hended, hnone⟩ | ⟨hstate', hsame'⟩
        · exact .inl ⟨h'.ended hended, hsame.trans hnone⟩
        · exact .inr ⟨fun he => hstate' (hstate he), hsame.trans hsame'⟩
    · rcases h.own with hended | hown
      · exact .inl (h'.ended hended)
      · exact h'.own.imp_right fun hown' m hm ho => hown' m (hown m hm ho) ho

/-- A process with the same address space and the same state has the same objects mapped. -/
theorem of_eq (hspace : q.space = p.space) (hstate : q.state = p.state) : SameMapped id p q :=
  ⟨fun h => hspace ▸ h, fun h => hstate.trans h, .inr ⟨fun h => hstate.symm.trans h, congrArg _ hspace⟩,
    .inr fun _ hm _ => hspace ▸ hm⟩

/-- A process gets memory that belongs to no object. -/
theorem map {m : Mapping} {space : AddressSpace} (hmap : p.space.map m = .ok space) (hm : m.object = none) :
    SameMapped id p { p with space } :=
  ⟨fun h => h.map hmap, fun h => h, .inr ⟨fun h => h, AddressSpace.forObjects_map hmap hm⟩,
    .inr fun _ ho _ => (AddressSpace.map_ok hmap).2 ▸ AddressSpace.mem_insert.2 (.inr ho)⟩

/-- Neither process has a mapping, and neither is terminated. -/
theorem of_empty (hp : p.space = {}) (hstate : p.state ≠ .terminated) (hq : q.space = {}) (hstate' : q.state ≠ .terminated) :
    SameMapped id p q :=
  ⟨fun _ => hq ▸ AddressSpace.ordered_empty, fun h => absurd h hstate, .inr ⟨fun h => absurd h hstate', by rw [hq, hp]⟩,
    .inr fun _ hm _ => by rw [hp] at hm; cases hm⟩

end SameMapped

instance : Tame SameMapped where
  waited _ _ _ := SameMapped.of_eq rfl rfl
  paused _ _ _ := SameMapped.of_eq rfl rfl
  moved _ p event state he h := by
    have hstate : p.state ≠ .terminated ∧ state ≠ .terminated := by
      cases hp : p.state <;> cases event <;> cases state <;> simp_all [ProcessState.next?]
    exact ⟨fun h => h, fun h => absurd h hstate.1, .inr ⟨fun h => absurd h hstate.2, rfl⟩, .inr fun _ hm _ => hm⟩
  ended _ _ _ := ⟨fun _ => AddressSpace.ordered_empty, fun _ => rfl, .inl ⟨rfl, rfl⟩, .inl rfl⟩

/-- No memory object and no mapping of one has changed, but for those of processes that have been terminated. -/
structure Steady (known : RecordId → Prop) (s t : Machine) : Prop where
  nextId : s.nextId ≤ t.nextId
  process : ∀ id, SameMapped id (s.process id) (t.process id)
  objects : SameObjects known s t

variable {α β : Type} {known : RecordId → Prop}

instance : IsPreorder Machine (Steady known) where
  refl _ := ⟨Nat.le_refl _, fun _ => refl _, refl _⟩
  trans _ _ _ h h' := ⟨Nat.le_trans h.nextId h'.nextId, fun id => IsTrans.trans _ _ _ (h.process id) (h'.process id),
    IsTrans.trans _ _ _ h.objects h'.objects⟩

/-- A frame in which processes keep their objects mapped is steady, if the objects are the same. -/
theorem Frame.steady {s t : Machine} (h : Frame SameMapped s t) (ho : SameObjects known s t) : Steady known s t :=
  ⟨h.nextId, h.process, ho⟩

/-- A program that keeps the mapped objects and the objects is steady. -/
theorem Keeps.steady {p : Update α} (h : Keeps (Frame SameMapped) p) (ho : Keeps (SameObjects known) p) : Keeps (Steady known) p :=
  fun s => (h s).steady (ho s)

namespace Machine

variable {x : Setup} {s t : Machine} {id : RecordId}

/-! ## Programs for one process -/

/-- A handle maps nothing. -/
theorem generateHandle_steady (hid : known id) (object : KernelObject) : Keeps (Steady known) (generateHandle id object).run := by
  refine Keeps.steady (fun s => ?_) (generateHandle_objects hid object)
  rcases generateHandle_cases id object s with ⟨e, journal, hrun⟩ | ⟨handle, handles, -, hrun⟩
  · rw [hrun]
    exact .of_eq (Nat.le_refl _) rfl rfl
  · rw [hrun]
    have hset : Frame SameMapped s (setProcess id { s.process id with handles } s).2 := .setProcess (.of_eq rfl rfl)
    exact IsTrans.trans _ _ _ hset (.of_eq (Nat.le_refl _) rfl rfl)

/-- A handle that is closed unmaps nothing. -/
theorem closeHandle_steady (hid : known id) (handle : Handle) : Keeps (Steady known) (closeHandle id handle).run := by
  refine Keeps.steady (fun s => ?_) (closeHandle_objects hid handle)
  rw [closeHandle, Action.run_look]
  dsimp only
  split
  · next object handles _ =>
    have hset : Frame SameMapped s (setProcess id { s.process id with handles } s).2 := .setProcess (.of_eq rfl rfl)
    exact IsTrans.trans _ _ _ hset (handleClosed_frame object _)
  · exact refl s

/-- Pages are taken for a process and mapped for no object, or given back. -/
theorem claim_frame {R : RecordId → Process → Process → Prop} [∀ id, IsPreorder Process (R id)] (id : RecordId) (n : Nat)
    {program : AllocationId → PageList → Action β} (h : ∀ allocation pages, Keeps (Frame R) (program allocation pages).run) :
    Keeps (Frame R) (do
      let (allocation, pages) ← allocateFor id n
      givingBack allocation (program allocation pages) : Action β).run :=
  .run_bind (allocateFor_frame _ _) fun _ => givingBack_frame _ (h _ _)

/-- Pages that are not an object's are mapped without touching mappings of objects. -/
theorem Maps.frame {allocation : AllocationId} {pages : PageList} {program : Action β} (h : Maps id allocation pages program) :
    Keeps (Frame SameMapped) program.run := by
  intro s
  rcases h s with ⟨e, hrun⟩ | ⟨b, m, space, hrun, hmap, -, -, hobject, -⟩
  · rw [hrun]
    exact refl s
  · rw [hrun]
    exact .setProcess (.map hmap hobject)

/-- Heap memory is mapped beside them. -/
theorem allocateHeap_steady (hid : known id) (size : Nat) (permission : Permission) :
    Keeps (Steady known) (allocateHeap id size permission).run := by
  refine Keeps.steady ?_ (allocateHeap_objects hid size permission)
  unfold allocateHeap
  split
  · exact .run_throw_bind _ _
  · refine .run_bind (wholePages_keeps size) fun size => ?_
    exact claim_frame id _ fun allocation pages => (mapFound_maps id allocation pages permission .normal fun space =>
      space.findFree heapBase heapSize size).frame

/-- Code is mapped beside them. -/
theorem mapCode_steady (hid : known id) (address n : Nat) : Keeps (Steady known) (mapCode id address n).run := by
  refine Keeps.steady ?_ (mapCode_objects hid address n)
  unfold mapCode
  split
  · exact claim_frame id n fun allocation pages => (mapOwned_maps id address allocation pages .readExecute .code).frame
  · exact .run_pure _

/-- A new thread has its page mapped beside the mappings of objects. -/
theorem createThread_steady (hid : known id) (threadId priority : Nat) (type : ThreadType) (body : ThreadBody) :
    Keeps (Steady known) (createThread id threadId priority type body).run := by
  refine Keeps.steady (fun s => ?_) (createThread_objects hid threadId priority type body)
  have hlocal : Keeps (Frame SameMapped) (allocateThreadLocal id).run :=
    claim_frame id 1 fun allocation pages => (mapFound_maps id allocation pages .readWrite .threadLocal fun space =>
      space.findFree threadLocalBase threadLocalSize pageSize).frame
  rcases createThread_run id threadId priority type body s with ⟨e, hrun⟩ | ⟨-, hrun⟩
  · rw [hrun]
    exact refl s
  · rw [hrun]
    have hs := hlocal s
    rcases hrun' : (allocateThreadLocal id).run s with ⟨e | address, t⟩ <;> rw [hrun'] at hs
    · exact hs
    · refine IsTrans.trans _ _ _ hs (IsTrans.trans _ _ _ (freshId_frame t) ?_)
      exact IsTrans.trans _ _ _ (setThread_frame _ _ _) (.setProcess (.of_eq rfl rfl))

/-- A thread more maps its page beside them. -/
theorem addThread_steady (kernel : RecordId) (hid : known id) (priority : Nat) :
    Keeps (Steady known) (addThread kernel id priority).run := by
  refine .run_bind (.run_lift (.steady (takeThreadId_frame _) (takeThreadId_objects _))) fun _ => ?_
  exact .run_bind (createThread_steady hid _ _ _ _) fun _ => .run_lift (.steady (startThread_frame _) (startThread_objects _))

/-! ## Starts -/

/-- A process that is equipped has its pages mapped beside the mappings of objects. -/
theorem StartCall.equip_steady (c : StartCall) (kernel : RecordId) (hid : known id) :
    Keeps (Steady known) (c.equip kernel id).run :=
  .run_bind (mapCode_steady hid _ _) fun _ => .run_bind (.run_lift (.steady (takeThreadId_frame _) (takeThreadId_objects _))) fun _ =>
    createThread_steady hid _ _ _ _

/-- A process that begins to run maps nothing. -/
theorem StartCall.enter_steady (c : StartCall) (kernel thread : RecordId) (hid : known id) :
    Keeps (Steady known) (c.enter kernel id thread) := by
  have hlast (k : Kernel) (text : String) (event : KernelEvent) : Keeps (Steady known) (do
      setKernel kernel k
      log .info text
      let _ ← audit kernel event
      startThread thread) := by
    refine Keeps.bind (fun s => ⟨Nat.le_refl _, fun _ => refl _, setKernel_objects _ _ s⟩) fun _ => ?_
    refine (Keeps.steady (log_frame _ _) (log_objects _ _)).bind fun _ => ?_
    refine (Keeps.steady (audit_frame _ _) (audit_objects _ _)).bind fun _ => ?_
    exact .steady (startThread_frame _) (startThread_objects _)
  refine (Keeps.steady (moveProcess_frame id (by decide)) (moveProcess_objects hid _)).bind fun _ => ?_
  refine Keeps.bind (fun s => ⟨Nat.le_refl _, fun _ => refl _, reapTerminated_objects _ s⟩) fun _ => ?_
  refine Keeps.get.bind fun s => Keeps.get.bind fun s' => ?_
  dsimp only
  split
  · exact (Keeps.steady (setPaused_frame id true) (setPaused_objects hid true)).bind fun _ => hlast _ _ _
  · exact hlast _ _ _

/-- A new process has nothing mapped. -/
theorem createProcess_steady (kernel : RecordId) (name : String) (programId : Nat) (flags : ProcessFlags)
    (capabilities : Capabilities) (hnew : s.process s.nextId = default) :
    Steady (· = s.nextId) s (createProcess kernel name programId flags capabilities s).2 := by
  obtain ⟨-, hc⟩ := createProcess_creates kernel name programId flags capabilities s
  refine ⟨hc.nextId ▸ Nat.le_succ _, fun id => ?_, createProcess_objects _ _ _ _ _ s⟩
  by_cases hid : id = s.nextId
  · subst hid
    have hspace : ((createProcess kernel name programId flags capabilities s).2.process s.nextId).space = {} :=
      congrArg Process.space ((process_insert s s.nextId s.nextId _).trans (if_pos rfl))
    exact .of_empty (by rw [hnew]; rfl) (by rw [hnew]; decide) hspace (by rw [hc.state]; decide)
  · rw [hc.process id hid]
    exact refl _

/-- A process that is dropped is the only one that is gone. -/
theorem process_discardProcess (id other : RecordId) (s : Machine) :
    (discardProcess id s).2.process other = if other = id then default else s.process other := by
  rw [discardProcess_run, process, processes_freed]
  exact Records.getD_erase _ _ _ _

/-- A process that was made on the way can be dropped again. -/
theorem discardProcess_steady (h : Steady known s t) (hid : s.process id = default) : Steady known s (discardProcess id t).2 := by
  refine ⟨Nat.le_trans h.nextId (discardProcess_frame id t).nextId, fun other => ?_,
    IsTrans.trans _ _ _ h.objects (discardProcess_objects id t)⟩
  rw [process_discardProcess]
  split
  · next heq =>
    rw [heq, hid]
    exact refl _
  · exact h.process other

/-- A start maps no object: the process that is made is new, and it is dropped if it cannot be equipped. -/
theorem StartCall.start_steady (c : StartCall) (kernel : RecordId) (hnew : s.process s.nextId = default) :
    Steady (· = s.nextId) s ((c.start kernel).run s).2 := by
  cases ha : c.admitted? (s.kernel kernel) with
  | none =>
    obtain ⟨e, journal, hrun⟩ := start_of_refused ha
    rw [hrun]
    exact ⟨Nat.le_refl _, fun _ => refl _, .of_eq rfl rfl rfl⟩
  | some capabilities =>
    have hcreate : Steady (· = s.nextId) s (c.create kernel capabilities s).2 := createProcess_steady _ _ _ _ _ hnew
    have hnext : (c.create kernel capabilities s).1 = s.nextId := (createProcess_creates _ _ _ _ _ s).1
    have hequip : Keeps (Steady (· = s.nextId)) (c.equip kernel s.nextId).run := c.equip_steady kernel rfl
    have hequip := hequip (c.create kernel capabilities s).2
    rw [start_of_admitted ha, hnext, makeThread, Action.run_tryCatch]
    generalize (c.create kernel capabilities s).2 = created at hcreate hequip ⊢
    rcases hrun : (c.equip kernel s.nextId).run created with ⟨e | thread, t⟩ <;> rw [hrun] at hequip
    · exact discardProcess_steady (IsTrans.trans _ _ _ hcreate hequip) hnew
    · have henter : Keeps (Steady (· = s.nextId)) (c.enter kernel s.nextId thread) := c.enter_steady kernel thread rfl
      exact IsTrans.trans _ _ _ hcreate (IsTrans.trans _ _ _ hequip (henter t))

/-! ## Ends -/

/-- What makes a machine subside makes no process. -/
theorem Subsides.sameObjects (hs : Subsides s t) (h : SameObjects known s t) : SameObjects (fun _ => False) s t :=
  ⟨h.sharedMemories, h.transferMemories, fun id hid => .inl (hs.object (.process id) hid)⟩

/-- A process that is terminated loses its mappings of objects, and no other process does. -/
theorem terminateProcess_steady (h : Orderly x s) (hid : s.has (.process id) = true) (caller : Option RecordId) :
    Steady (fun _ => False) s (terminateProcess id caller s).2 := by
  have hk : ∀ o : KernelObject, s.has o = true → s.has o = true := fun _ ho => ho
  have hcalm : Calm x.kernel (s.has · = true) s (terminateProcess id caller s).2 :=
    terminateProcess_calm hid caller fun th hth => h.simple.threadOf id th hth
  exact (terminateProcess_frame id caller s).steady
    ((hcalm h.simple hk).1.sameObjects (terminateProcess_objects id caller s))

/-- A guest thread that takes no calls starts, or exits because it is asked to. -/
theorem runThread_steady (hplain : (s.thread id).IsPlain) : Steady (fun _ => True) s (runThread id s).2 := by
  obtain ⟨hbody, hactivity⟩ := hplain
  rw [runThread, Update.run_look, hbody]
  rcases hactivity with h | h | h <;> rw [h]
  · exact refl s
  · have hobjects : Keeps (SameObjects fun _ => True) (moveThread id .run >>= fun _ => setActivity id .idle) :=
      (moveThread_objects id .run).bind fun _ => setActivity_objects id .idle
    exact Keeps.steady ((moveThread_frame id .run).bind fun _ => setActivity_frame id .idle) hobjects s
  · exact (exitThread_frame id .returned s).steady (exitThread_objects id .returned s)

/-- When a machine settles, only processes that terminate lose theirs. -/
theorem settle_steady (h : Orderly x s) : Steady (fun _ => False) s (settle s).2 := by
  have hall (fuel : Nat) {s : Machine} (h : Simple x.kernel s) : Steady (fun _ => True) s (settleFor fuel s).2 := by
    induction fuel generalizing s with
    | zero => exact refl s
    | succ fuel ih =>
      rw [settleFor, Update.run_look]
      cases hnext : s.nextRunnable? with
      | none => exact refl s
      | some id =>
        have hcalm : Calm x.kernel (.thread id = ·) s (runThread id s).2 := runThread_calm rfl s
        have hsimple := hcalm.simple h fun o ho => ho ▸ has_of_nextRunnable? hnext
        exact IsTrans.trans _ _ _ (runThread_steady (h.thread id)) (ih hsimple)
  have hsettled := hall settleLimit h.simple
  have hsub := (settle_calm x.kernel s h.simple fun _ ho => nomatch ho).1
  exact ⟨hsettled.nextId, hsettled.process, hsub.sameObjects hsettled.objects⟩

end Machine

end Microkernel
