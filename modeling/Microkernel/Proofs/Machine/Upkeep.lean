import Microkernel.Proofs.Machine.Orderly

/-!
# Starting a process keeps a machine orderly

Pages that are taken for a mapping either get mapped or go back at once (`claim_builds`). A process that cannot be made shares nothing
yet (`Private`) and gives back all that it has, so an orderly machine stays orderly (`StartCall.start_orderly`).
-/

namespace Microkernel.Machine

variable {α β : Type} {x : Setup} {s t : Machine} {id : RecordId}

/-! ## Giving something to a process -/

/-- A mapping that a process may get: at a page border, of pages whose allocations exist. What is mapped for no object, nobody else
has. -/
structure Admits (s : Machine) (m : Mapping) : Prop where
  address : pageSize ∣ m.address
  size : m.size = m.pages.size
  secured : s.Secured m.pages m.backing
  heap : m.state = .normal → m.object = none
  own : m.object = none → ∀ a ∈ m.backing, s.Unheld a

/-- A process gets handles of objects that exist, and a mapping. -/
theorem Orderly.setProcess (h : Orderly x s) (new : Mapping) (hid : s.has (.process id) = true) {p : Process}
    (hkernel : p.kernel = (s.process id).kernel) (hthreads : p.threads = (s.process id).threads)
    (hobjects : ∀ o ∈ p.handles.objects, o ∈ (s.process id).handles.objects ∨ s.has o = true)
    (hmappings : ∀ m ∈ p.space.mappings, m ∈ (s.process id).space.mappings ∨ m = new ∧ s.Admits new) :
    Orderly x (setProcess id p s).2 := by
  have hprocess (other : RecordId) : (Machine.setProcess id p s).2.process other = if other = id then p else s.process other :=
    process_insert s id other p
  -- a mapping or an object is one of those that the process gets, or was there before
  have hmapped {other : RecordId} {m : Mapping} (hm : m ∈ ((Machine.setProcess id p s).2.process other).space.mappings) :
      m ∈ (s.process other).space.mappings ∨ other = id ∧ m = new ∧ s.Admits new := by
    rw [hprocess] at hm
    split at hm
    · next heq =>
      subst heq
      exact (hmappings m hm).imp_right fun hnew => ⟨rfl, hnew⟩
    · exact .inl hm
  have hobject {other : RecordId} {o : KernelObject} (ho : o ∈ ((Machine.setProcess id p s).2.process other).handles.objects) :
      o ∈ (s.process other).handles.objects ∨ s.has o = true := by
    rw [hprocess] at ho
    split at ho
    · next heq =>
      subst heq
      exact hobjects o ho
    · exact .inl ho
  have hrest (other : RecordId) : ((Machine.setProcess id p s).2.process other).threads = (s.process other).threads ∧
      ((Machine.setProcess id p s).2.process other).kernel = (s.process other).kernel := by
    rw [hprocess]
    split
    · next heq => exact heq ▸ ⟨hthreads, hkernel⟩
    · exact ⟨rfl, rfl⟩
  constructor
  case stocked => exact h.stocked.of_same (Nat.le_refl _) (fun _ => rfl) (fun _ => rfl) (fun hc => hc) rfl
  case backed =>
    refine h.backed.grow (fun _ _ _ _ _ => rfl) (fun pages backing hh => ?_) (fun other m hm => ?_) (fun other m hm => ?_) ?_
    · cases hh with
      | mapping hm => exact (hmapped hm).imp .mapping fun ⟨_, heq, hnew⟩ => heq ▸ hnew.secured.of_same fun _ _ => rfl
      | shared hm => exact .inl (.shared hm)
      | transfer hm => exact .inl (.transfer hm)
    · exact (hmapped hm).elim (h.backed.paged other m) fun ⟨_, heq, hnew⟩ => heq ▸ ⟨hnew.address, hnew.size⟩
    · exact (hmapped hm).elim (h.backed.heap other m) fun ⟨_, heq, hnew⟩ => heq ▸ hnew.heap
    · intro other other' m m' hm hm' ho ho' a ha ha'
      rcases hmapped hm with hold | ⟨rfl, rfl, hnew⟩ <;> rcases hmapped hm' with hold' | ⟨rfl, rfl, hnew'⟩
      · exact h.backed.own other other' m m' hold hold' ho ho' a ha ha'
      · exact absurd ha (hnew'.own ho' a ha' _ _ (.mapping hold))
      · exact absurd ha' (hnew.own ho a ha _ _ (.mapping hold'))
      · exact ⟨rfl, m'.permission, rfl⟩
  case numbered =>
    exact h.numbered.grow (Nat.le_refl _) (fun _ hid => hid.2) (fun _ ho => .inl (has_of_setProcess hid ho)) (fun _ _ _ hm => .inl hm)
      (fun other o ho => (hobject ho).imp_right (h.numbered.object o)) (fun _ hid => .inl ⟨hid, rfl⟩) fun _ hid => .inl hid
  case simple =>
    refine ⟨h.simple.thread, fun other o ho => ?_, fun other th hth => ?_,
      fun other ho => (hrest other).2.trans (h.simple.kernelOf other (has_of_setProcess hid ho)), h.simple.bare⟩
    · exact (hobject ho).elim (h.simple.object other o) h.simple.bare.isPlain
    · exact has_setProcess (h.simple.threadOf other th ((hrest other).1 ▸ hth))

/-- One process has another address space, and the others have their own. -/
theorem process_setSpace (s : Machine) (id other : RecordId) (space : AddressSpace) :
    (setSpace id space s).2.process other = if other = id then { s.process other with space } else s.process other := by
  refine (process_insert s id other _).trans ?_
  split
  · next heq => rw [heq]
  · rfl

/-- A process gets a mapping of pages whose allocations exist; what is mapped for no object, nobody else has. -/
theorem Orderly.map (h : Orderly x s) (hid : s.has (.process id) = true) {m : Mapping} {space : AddressSpace}
    (hmap : (s.process id).space.map m = .ok space) (hsize : m.size = m.pages.size) (hsecured : s.Secured m.pages m.backing)
    (hheap : m.state = .normal → m.object = none) (hown : m.object = none → ∀ a ∈ m.backing, s.Unheld a) :
    Orderly x (setSpace id space s).2 := by
  obtain ⟨haddress, hspace⟩ := AddressSpace.map_ok hmap
  refine h.setProcess m hid rfl rfl (fun _ ho => .inl ho) fun m' hm' => ?_
  dsimp only at hm'
  rw [hspace, AddressSpace.mem_insert] at hm'
  rcases hm' with rfl | hold
  · exact .inr ⟨rfl, haddress, hsize, hsecured, hheap, hown⟩
  · exact .inl hold

/-! ## Sparing memory objects -/

/-- The bytes of the pages of memory objects are the same. -/
def Untouched (x : Setup) (s t : Machine) : Prop :=
  ∀ pages, s.IsObject pages → ∀ place ∈ pages.places, t.byteAt x.kernel place = s.byteAt x.kernel place

/-- Bytes depend on the memory of the host alone. -/
theorem Untouched.of_memory (hm : (t.kernel x.kernel).host.memory = (s.kernel x.kernel).host.memory) : Untouched x s t :=
  fun _ _ place _ => congrArg (·.byteAt place) hm

/-- The memory objects are the same, and so are the bytes of their pages. -/
structure Spares (x : Setup) (s t : Machine) : Prop where
  shared : t.sharedMemories = s.sharedMemories
  transfer : t.transferMemories = s.transferMemories
  bytes : Untouched x s t

instance : IsPreorder Machine (Spares x) where
  refl _ := ⟨rfl, rfl, fun _ _ _ _ => rfl⟩
  trans _ _ _ h h' := by
    refine ⟨h'.shared.trans h.shared, h'.transfer.trans h.transfer, fun pages ho place hp => ?_⟩
    refine (h'.bytes pages ?_ place hp).trans (h.bytes pages ho place hp)
    rwa [IsObject, h.shared, h.transfer]

/-- What follows on sparing objects leaves their bytes alone as well. -/
theorem Spares.untouched {u : Machine} (h : Spares x s t) (h' : Untouched x t u) : Untouched x s u := by
  intro pages ho place hp
  refine (h' pages ?_ place hp).trans (h.bytes pages ho place hp)
  rwa [IsObject, h.shared, h.transfer]

/-- Memory objects and bytes are spared where neither objects nor memory change. -/
theorem Spares.of_memory (hs : t.sharedMemories = s.sharedMemories) (ht : t.transferMemories = s.transferMemories)
    (hm : (t.kernel x.kernel).host.memory = (s.kernel x.kernel).host.memory) : Spares x s t :=
  ⟨hs, ht, .of_memory hm⟩

/-- What is taken is not what an object has. -/
theorem Draws.spares {kind : RegionKind} {pages : PageList} (h : Orderly x s) (hd : Draws x kind pages s t) : Spares x s t := by
  refine ⟨hd.sharedMemories, hd.transferMemories, fun other ho place hp => hd.bytes place fun hin => ?_⟩
  obtain ⟨backing, hholder⟩ := ho.holder
  obtain ⟨i, hi, a, ha, hplace⟩ := (h.backed.covered _ _ hholder).exists_of_place hp
  have hne : i ≠ s.nextId := Nat.ne_of_lt (h.stocked.old i a ha)
  exact hne (hd.orderly.stocked.eq_of_place ((hd.others i hne).trans ha) hd.allocation hplace hin)

/-- Giving pages back changes a kernel and the allocations. -/
theorem freeAllocation_rest (a : AllocationId) (s : Machine) :
    ∃ kernels allocations, (freeAllocation a s).2 = { s with kernels, allocations } := by
  rw [freeAllocation_run]
  split
  · exact ⟨_, _, rfl⟩
  · exact ⟨s.kernels, s.allocations, rfl⟩

/-- Freeing pages writes nothing. -/
theorem memory_freeAllocation (a : AllocationId) (s : Machine) (kernel : RecordId) :
    ((freeAllocation a s).2.kernel kernel).host.memory = (s.kernel kernel).host.memory := by
  rw [freeAllocation_run]
  split
  · refine (congrArg (·.host.memory) (kernel_insert s _ kernel _)).trans ?_
    split
    · next heq => rw [heq]
    · rfl
  · rfl

/-- Freeing pages spares memory objects and their bytes. -/
theorem freeAllocation_spares (a : AllocationId) (s : Machine) : Spares x s (freeAllocation a s).2 := by
  have hmemory := memory_freeAllocation a s x.kernel
  obtain ⟨kernels, allocations, hfree⟩ := freeAllocation_rest a s
  rw [hfree] at hmemory ⊢
  exact .of_memory rfl rfl hmemory

/-! ## Building a process -/

/-- Nobody else keeps the allocations of a process alive. -/
def Private (s : Machine) (id : RecordId) : Prop :=
  ∀ m ∈ (s.process id).space.mappings, ∀ a ∈ m.backing,
    (∀ other, other ≠ id → ∀ m' ∈ (s.process other).space.mappings, a ∉ m'.backing) ∧
    (∀ (i : RecordId) m', s.sharedMemories[i]? = some m' → m'.allocation ≠ a) ∧
    ∀ (i : RecordId) m', s.transferMemories[i]? = some m' → a ∉ m'.backing

/-- From an orderly machine in which the process exists to another one; what the process alone had it still has alone. -/
def Builds (x : Setup) (id : RecordId) (s t : Machine) : Prop :=
  Orderly x s → s.has (.process id) = true →
    Orderly x t ∧ t.has (.process id) = true ∧ (s.Private id → t.Private id) ∧ Spares x s t

instance : IsPreorder Machine (Builds x id) where
  refl _ := fun h hid => ⟨h, hid, fun hp => hp, refl _⟩
  trans _ _ _ h h' := fun hs hid => by
    obtain ⟨ht, hid', hp, hspares⟩ := h hs hid
    obtain ⟨hu, hid'', hp', hspares'⟩ := h' ht hid'
    exact ⟨hu, hid'', fun h => hp' (hp h), IsTrans.trans _ _ _ hspares hspares'⟩

/-- What a process alone had it still has alone after the machine has subsided. -/
theorem Subsides.private (hs : Subsides s t) (h : s.Private id) : t.Private id := by
  intro m hm a ha
  obtain ⟨m₀, hm₀, permission, rfl⟩ := (hs.process id).mapping m hm
  obtain ⟨hother, hshared, htransfer⟩ := h m₀ hm₀ a ha
  refine ⟨fun other hne m' hm' ha' => ?_, fun i m' hm' => hshared i m' (hs.shared i m' hm'), fun i m' hm' ha' => ?_⟩
  · obtain ⟨m₁, hm₁, permission', rfl⟩ := (hs.process other).mapping m' hm'
    exact hother other hne m₁ hm₁ ha'
  · obtain ⟨m₁, hm₁, -, hbacking⟩ := hs.transfer i m' hm'
    exact htransfer i m₁ hm₁ (hbacking ▸ ha')

/-- A process that gets pages which nobody has still shares none. -/
theorem Private.map (h : s.Private id) {m : Mapping} {space : AddressSpace} (hmap : (s.process id).space.map m = .ok space)
    (hunheld : ∀ a ∈ m.backing, s.Unheld a) : (setSpace id space s).2.Private id := by
  intro m' hm' a ha
  have hothers (other : RecordId) (hne : other ≠ id) (m₁ : Mapping)
      (hm₁ : m₁ ∈ ((setSpace id space s).2.process other).space.mappings) : m₁ ∈ (s.process other).space.mappings := by
    rwa [process_setSpace, if_neg hne] at hm₁
  rw [process_setSpace, if_pos rfl] at hm'
  dsimp only at hm'
  rw [(AddressSpace.map_ok hmap).2, AddressSpace.mem_insert] at hm'
  rcases hm' with rfl | hm'
  · have hno := hunheld a ha
    refine ⟨fun other hne m₁ hm₁ => hno _ _ (.mapping (hothers other hne m₁ hm₁)), fun i m₁ hm₁ heq => ?_,
      fun i m₁ hm₁ => hno _ _ (.transfer hm₁)⟩
    exact hno _ _ (.shared hm₁) (heq ▸ List.mem_singleton_self _)
  · obtain ⟨hother, hshared, htransfer⟩ := h m' hm' a ha
    exact ⟨fun other hne m₁ hm₁ => hother other hne m₁ (hothers other hne m₁ hm₁), hshared, htransfer⟩

/-- Calm changes of a process build on it, if memory objects stay. -/
theorem Calm.builds (h : Calm x.kernel (· = .process id) s t) (hs : t.sharedMemories = s.sharedMemories)
    (ht : t.transferMemories = s.transferMemories) : Builds x id s t := by
  intro ho hid
  have hk : ∀ o, o = .process id → s.has o = true := fun o ho => ho ▸ hid
  obtain ⟨hsub, hhas⟩ := h ho.simple hk
  exact ⟨ho.of_calm h hk, hhas _ hid, hsub.private, .of_memory hs ht (hsub.kernel x.kernel).memory⟩

/-- The program maps pages of an allocation into a process, or does nothing. -/
def Maps (id : RecordId) (allocation : AllocationId) (pages : PageList) (program : Action β) : Prop :=
  ∀ s, (∃ e, program.run s = (.error e, s)) ∨ ∃ b m space, program.run s = (.ok b, (setSpace id space s).2) ∧
    (s.process id).space.map m = .ok space ∧ m.size = m.pages.size ∧ m.pages = pages ∧ m.object = none ∧ m.backing = [allocation]

/-- Owned pages are mapped, or nothing is. -/
theorem mapOwned_maps (id : RecordId) (address : Nat) (allocation : AllocationId) (pages : PageList) (permission : Permission)
    (state : MemoryState) : Maps id allocation pages (mapOwned id address allocation pages permission state) := by
  intro s
  rw [mapOwned, Action.run_look, Action.run_except_bind]
  dsimp only
  cases hmap : (s.process id).space.map { Mapping.ofPages address pages permission state with backing := [allocation] } with
  | error e => exact .inl ⟨e, rfl⟩
  | ok space => exact .inr ⟨(), _, space, rfl, hmap, rfl, rfl, rfl, rfl⟩

/-- Owned pages are mapped at an address that is looked for first, or nothing is. -/
theorem mapFound_maps (id : RecordId) (allocation : AllocationId) (pages : PageList) (permission : Permission) (state : MemoryState)
    (find : AddressSpace → Except KernelError Nat) : Maps id allocation pages (do
      let address ← find ((← get).process id).space
      mapOwned id address allocation pages permission state
      return address) := by
  intro s
  rw [Action.run_look, Action.run_except_bind]
  cases find (s.process id).space with
  | error e => exact .inl ⟨e, rfl⟩
  | ok address =>
    dsimp only
    rw [Action.run_bind]
    rcases mapOwned_maps id address allocation pages permission state s with ⟨e, hrun⟩ | ⟨b, m, space, hrun, hrest⟩
    · rw [hrun]
      exact .inl ⟨e, rfl⟩
    · rw [hrun]
      exact .inr ⟨address, m, space, rfl, hrest⟩

/-- Pages are taken for a process and mapped, or given back. -/
theorem claim_builds (id : RecordId) (n : Nat) {program : AllocationId → PageList → Action β}
    (hprogram : ∀ allocation pages, Maps id allocation pages (program allocation pages)) :
    Keeps (Builds x id) (do
      let (allocation, pages) ← allocateFor id n
      givingBack allocation (program allocation pages) : Action β).run := by
  intro s h hid
  have hallocate : (allocateFor id n).run s = (allocatePages x.kernel (s.process id).region n).run s := by
    rw [allocateFor, Action.run_look]
    dsimp only
    rw [h.simple.kernelOf id hid]
  rw [Action.run_bind, hallocate]
  rcases allocatePages_cases h (s.process id).region n with ⟨e, t, hrun, ht, hsub, hhas, hs, htr⟩ | ⟨pages, t, hrun, hd⟩
  · rw [hrun]
    dsimp only
    exact ⟨ht, (hhas _).trans hid, hsub.private, .of_memory hs htr (hsub.kernel x.kernel).memory⟩
  · rw [hrun]
    dsimp only
    have hid' : t.has (.process id) = true := (hd.has _).trans hid
    have hprocess (other : RecordId) : t.process other = s.process other := by
      unfold process
      rw [hd.processes]
    have hprivate (hp : s.Private id) : t.Private id := by
      unfold Private
      simp only [hprocess, hd.sharedMemories, hd.transferMemories]
      exact hp
    rw [givingBack, Action.run_tryCatch]
    rcases hprogram s.nextId pages t with ⟨e, hfail⟩ | ⟨b, m, space, hok, hmap, hsize, rfl, hobject, hbacking⟩
    · rw [hfail]
      refine ⟨freeAllocation_orderly hd.orderly hd.unheld, ?_⟩
      have hspares : Spares x s (freeAllocation s.nextId t).2 := IsTrans.trans _ _ _ (hd.spares h) (freeAllocation_spares _ t)
      obtain ⟨kernels, allocations, hfree⟩ := freeAllocation_rest s.nextId t
      change (freeAllocation s.nextId t).2.has _ = true ∧
        (_ → (freeAllocation s.nextId t).2.Private id) ∧ Spares x s (freeAllocation s.nextId t).2
      rw [hfree] at hspares ⊢
      exact ⟨hid', hprivate, hspares⟩
    · rw [hok]
      have hunheld (a : AllocationId) (ha : a ∈ m.backing) : t.Unheld a := by
        rw [hbacking] at ha
        exact List.mem_singleton.1 ha ▸ hd.unheld
      refine ⟨hd.orderly.map hid' hmap hsize (hbacking ▸ hd.secured) (fun _ => hobject) fun _ => hunheld, has_setProcess hid',
        fun hp => (hprivate hp).map hmap hunheld, IsTrans.trans _ _ _ (hd.spares h) (.of_memory rfl rfl rfl)⟩

/-- Rounding up to pages leaves the machine as it is. -/
theorem wholePages_keeps {R : Machine → Machine → Prop} [IsPreorder Machine R] (size : Nat) : Keeps R (wholePages size).run := by
  unfold wholePages
  split
  · exact .run_pure _
  · exact .run_throw _

/-- Heap memory builds on its process. -/
theorem allocateHeap_builds (id : RecordId) (size : Nat) (permission : Permission) :
    Keeps (Builds x id) (allocateHeap id size permission).run := by
  unfold allocateHeap
  split
  · exact .run_throw_bind _ _
  · refine .run_bind (wholePages_keeps size) fun size => ?_
    exact claim_builds id _ fun allocation pages => mapFound_maps id allocation pages permission .normal fun space =>
      space.findFree heapBase heapSize size

/-- Code builds on its process. -/
theorem mapCode_builds (id : RecordId) (address n : Nat) : Keeps (Builds x id) (mapCode id address n).run := by
  unfold mapCode
  split
  · exact claim_builds id n fun allocation pages => mapOwned_maps id address allocation pages .readExecute .code
  · exact .run_pure _

/-- The page of a thread builds on its process. -/
theorem allocateThreadLocal_builds (id : RecordId) : Keeps (Builds x id) (allocateThreadLocal id).run :=
  claim_builds id 1 fun allocation pages => mapFound_maps id allocation pages .readWrite .threadLocal fun space =>
    space.findFree threadLocalBase threadLocalSize pageSize

/-- Makes a thread and gives it to its process. -/
def attachThread (process threadId priority : Nat) (type : ThreadType) (body : ThreadBody) (messageAddress : Nat) :
    Update RecordId := do
  let id ← freshId
  setThread id { threadId, process, priority, type, messageAddress, body }
  let p := (← get).process process
  setProcess process { p with threads := p.threads ++ [id] }
  return id

/-- A thread of a process that is not terminating is made once its message buffer is. -/
theorem createThread_run (process threadId priority : Nat) (type : ThreadType) (body : ThreadBody) (s : Machine) :
    (∃ e, (createThread process threadId priority type body).run s = (.error e, s)) ∨
    (s.process process).state.isTerminating = false ∧ (createThread process threadId priority type body).run s =
      match (allocateThreadLocal process).run s with
      | (.ok messageAddress, t) =>
        (.ok (attachThread process threadId priority type body messageAddress t).1,
          (attachThread process threadId priority type body messageAddress t).2)
      | (.error e, t) => (.error e, t) := by
  rw [createThread, Action.run_look]
  dsimp only
  split
  · exact .inl ⟨_, rfl⟩
  · next hstate =>
    split
    · exact .inl ⟨_, rfl⟩
    · refine .inr ⟨Bool.eq_false_iff.2 hstate, ?_⟩
      rw [Action.run_bind]
      rcases (allocateThreadLocal process).run s with ⟨e | address, t⟩ <;> rfl

/-- A thread of guest code that is about to start. -/
theorem attachThread_orderly (h : Orderly x s) (hid : s.has (.process id) = true) (threadId priority : Nat) (type : ThreadType)
    (messageAddress : Nat) : Orderly x (attachThread id threadId priority type .guest messageAddress s).2 ∧
      ∀ o, (attachThread id threadId priority type .guest messageAddress s).2.has o = true ↔
        o = .thread s.nextId ∨ s.has o = true := by
  let thread : Thread := { threadId, process := id, priority, type, messageAddress, body := .guest }
  let p : Process := { s.process id with threads := (s.process id).threads ++ [s.nextId] }
  have hrun : (attachThread id threadId priority type .guest messageAddress s).2 =
    { s with nextId := s.nextId + 1, threads := s.threads.insert s.nextId thread, processes := s.processes.insert id p } := rfl
  rw [hrun]
  have hprocess (other : RecordId) : (s.processes.insert id p).getD other default = if other = id then p else s.process other :=
    Records.getD_insert _ _ _ _ _
  have hthread (other : RecordId) : (s.threads.insert s.nextId thread).getD other default =
      if other = s.nextId then thread else s.thread other := Records.getD_insert _ _ _ _ _
  have hhas (o : KernelObject) : has { s with
      nextId := s.nextId + 1, threads := s.threads.insert s.nextId thread, processes := s.processes.insert id p } o = true ↔
        o = .thread s.nextId ∨ s.has o = true := by
    cases o
    case thread other =>
      refine (Records.contains_insert _ _ _ _).trans (or_congr_left ?_)
      exact ⟨congrArg _, KernelObject.thread.inj⟩
    case process other =>
      refine (Records.contains_insert _ _ _ _).trans ⟨fun ho => .inr (ho.elim (fun heq => heq ▸ hid) fun h => h), fun ho => ?_⟩
      exact .inr (ho.resolve_left (fun heq => by cases heq))
    all_goals exact ⟨.inr, fun ho => ho.resolve_left fun heq => by cases heq⟩
  refine ⟨?_, hhas⟩
  have hrest (other : RecordId) : ((s.processes.insert id p).getD other default).space = (s.process other).space ∧
      ((s.processes.insert id p).getD other default).handles = (s.process other).handles ∧
      ((s.processes.insert id p).getD other default).kernel = (s.process other).kernel := by
    rw [hprocess]
    split
    · next heq =>
      subst heq
      exact ⟨rfl, rfl, rfl⟩
    · exact ⟨rfl, rfl, rfl⟩
  constructor
  case stocked => exact h.stocked.of_same (Nat.le_succ _) (fun _ => rfl) (fun _ => rfl) (fun hc => hc) rfl
  case backed =>
    exact h.backed.add rfl (fun other => congrArg AddressSpace.mappings (hrest other).1) (fun _ _ hm => .inl hm) fun _ _ hm => .inl hm
  case numbered =>
    have hnew : ∀ o : KernelObject, o = .thread s.nextId → NoAllocation { s with
        nextId := s.nextId + 1, threads := s.threads.insert s.nextId thread, processes := s.processes.insert id p } o.id :=
      fun o ho => ho ▸ ⟨Nat.lt_succ_self _, h.stocked.fresh⟩
    refine h.numbered.grow (Nat.le_succ _) (fun _ hid => hid.2) (fun o ho => ((hhas o).1 ho).symm.imp_right (hnew o))
      (fun _ _ _ hm => .inl hm) (fun other o ho => .inl ((hrest other).2.1 ▸ ho)) (fun other ho => ?_) fun _ hid => .inl hid
    by_cases heq : other = s.nextId
    · right
      have howner : ((s.threads.insert s.nextId thread).getD other default).process = id :=
        congrArg Thread.process ((hthread other).trans (if_pos heq))
      change NoAllocation _ ((s.threads.insert s.nextId thread).getD other default).process
      rw [howner]
      exact (h.numbered.object (.process id) hid).of_same (Nat.le_succ _) fun _ hid => hid.2
    · exact .inl ⟨((hhas _).1 ho).resolve_left fun h => heq (KernelObject.thread.inj h),
        congrArg Thread.process ((hthread other).trans (if_neg heq))⟩
  case simple =>
    constructor
    case thread =>
      intro other
      refine (congrArg Thread.IsPlain (hthread other)).mpr ?_
      split
      · exact ⟨rfl, .inl rfl⟩
      · exact h.simple.thread other
    case object => exact fun other o ho => h.simple.object other o ((hrest other).2.1 ▸ ho)
    case threadOf =>
      intro other th hth
      rw [hhas]
      have hth : th ∈ (if other = id then p else s.process other).threads := hprocess other ▸ hth
      split at hth
      · rcases List.mem_append.1 hth with hth | hth
        · exact .inr (h.simple.threadOf id th hth)
        · exact .inl (congrArg _ (List.mem_singleton.1 hth))
      · exact .inr (h.simple.threadOf other th hth)
    case kernelOf =>
      intro other ho
      refine (hrest other).2.2.trans (h.simple.kernelOf other (((hhas _).1 ho).resolve_left fun heq => by cases heq))
    case bare => exact h.simple.bare

/-- A thread that is attached is there, and all else that was. -/
theorem has_attachThread (process threadId priority : Nat) (type : ThreadType) (body : ThreadBody) (messageAddress : Nat)
    (s : Machine) :
    (attachThread process threadId priority type body messageAddress s).2.has
      (.thread (attachThread process threadId priority type body messageAddress s).1) = true :=
  (Records.contains_insert _ _ _ _).2 (.inl rfl)

/-- A thread that is created is there. -/
theorem createThread_builds (id threadId priority : Nat) (type : ThreadType) (s : Machine) :
    Builds x id s ((createThread id threadId priority type .guest).run s).2 ∧
    ∀ thread, ((createThread id threadId priority type .guest).run s).1 = .ok thread →
      ((createThread id threadId priority type .guest).run s).2.has (.thread thread) = true := by
  rcases createThread_run id threadId priority type .guest s with ⟨e, hrun⟩ | ⟨-, hrun⟩
  · rw [hrun]
    exact ⟨refl s, fun _ h => nomatch h⟩
  · have hbuilds := allocateThreadLocal_builds (x := x) id s
    rw [hrun]
    rcases hlocal : (allocateThreadLocal id).run s with ⟨e | address, t⟩ <;> rw [hlocal] at hbuilds
    · exact ⟨hbuilds, fun _ h => nomatch h⟩
    · constructor
      · refine IsTrans.trans _ t _ hbuilds fun ht hid => ?_
        obtain ⟨hattach, hhas⟩ := attachThread_orderly ht hid threadId priority type address
        refine ⟨hattach, (hhas _).2 (.inr hid), fun hp => ?_, .of_memory rfl rfl rfl⟩
        have hspace (other : RecordId) :
            ((attachThread id threadId priority type .guest address t).2.process other).space = (t.process other).space := by
          refine (congrArg Process.space (process_insert t id other _)).trans ?_
          split
          · next heq => exact heq ▸ rfl
          · rfl
        unfold Private
        simp only [hspace]
        exact hp
      · intro thread hok
        obtain rfl := Except.ok.inj hok
        exact has_attachThread _ _ _ _ _ _ t

/-! ## Dropping a process -/

/-- The machine after allocations were given back one after the other. -/
def freed (s : Machine) (allocations : List AllocationId) : Machine := allocations.foldl (fun s a => (freeAllocation a s).2) s

/-- Allocations are given back the same way whatever the processes are. -/
theorem freed_processes (allocations : List AllocationId) (processes : Records Process) (s : Machine) :
    { s.freed allocations with processes } = freed { s with processes } allocations := by
  induction allocations generalizing s with
  | nil => rfl
  | cons a rest ih =>
    have hone : { (freeAllocation a s).2 with processes } = (freeAllocation a { s with processes }).2 := by
      unfold freeAllocation
      rw [Update.run_look, Update.run_look]
      cases s.allocations[a]? <;> rfl
    exact (ih (freeAllocation a s).2).trans (congrArg (freed · rest) hone)

/-- Allocations that nobody keeps alive can be given back. -/
theorem freed_orderly {allocations : List AllocationId} (h : Orderly x s) (hno : ∀ a ∈ allocations, s.Unheld a) :
    Orderly x (s.freed allocations) := by
  induction allocations generalizing s with
  | nil => exact h
  | cons a rest ih =>
    refine ih (freeAllocation_orderly h (hno a List.mem_cons_self)) fun a' ha' pages backing hh => ?_
    have hh : (freeAllocation a s).2.Holder pages backing := hh
    obtain ⟨kernels, allocations, hfree⟩ := freeAllocation_rest a s
    rw [hfree] at hh
    exact hno a' (List.mem_cons_of_mem _ ha') pages backing (hh.of_same rfl rfl rfl)

/-- Giving allocations back changes kernels and allocations alone. -/
theorem freed_rest (freed : List AllocationId) (s : Machine) :
    ∃ kernels allocations, s.freed freed = { s with kernels, allocations } := by
  induction freed generalizing s with
  | nil => exact ⟨s.kernels, s.allocations, rfl⟩
  | cons a rest ih =>
    obtain ⟨kernels, allocations, hone⟩ := freeAllocation_rest a s
    obtain ⟨kernels', allocations', hrest⟩ := ih (freeAllocation a s).2
    refine ⟨kernels', allocations', hrest.trans ?_⟩
    rw [hone]

/-- Giving allocations back changes no process. -/
theorem processes_freed (allocations : List AllocationId) (s : Machine) : (s.freed allocations).processes = s.processes := by
  obtain ⟨kernels, allocations, hfreed⟩ := freed_rest allocations s
  rw [hfreed]

/-- A process that is dropped gives back what its mappings kept. -/
theorem discardProcess_run (id : RecordId) (s : Machine) : (discardProcess id s).2 =
    freed { s with processes := s.processes.erase id } ((s.process id).space.mappings.flatMap Mapping.backing) := by
  rw [← freed_processes, discardProcess, Update.run_look, Update.run_bind, Update.run_forIn]
  simp only [Update.run_forIn]
  have hfreed : (s.process id).space.mappings.foldl
      (fun s m => m.backing.foldl (fun s a => (freeAllocation a s).2) s) s = s.freed _ := List.foldl_flatMap.symm
  rw [hfreed, ← processes_freed ((s.process id).space.mappings.flatMap Mapping.backing) s]
  rfl

/-- Giving allocations back writes nothing. -/
theorem memory_freed (allocations : List AllocationId) (s : Machine) (kernel : RecordId) :
    ((s.freed allocations).kernel kernel).host.memory = (s.kernel kernel).host.memory := by
  induction allocations generalizing s with
  | nil => rfl
  | cons a rest ih => exact (ih (freeAllocation a s).2).trans (memory_freeAllocation a s kernel)

/-- Dropping a process writes nothing. -/
theorem memory_discardProcess (id : RecordId) (s : Machine) (kernel : RecordId) :
    ((discardProcess id s).2.kernel kernel).host.memory = (s.kernel kernel).host.memory := by
  rw [discardProcess_run]
  exact memory_freed _ _ kernel

/-- Dropping a process that shares nothing gives back all that it has. -/
theorem discardProcess_orderly (h : Orderly x s) (hp : s.Private id) : Orderly x (discardProcess id s).2 := by
  have hprocess (other : RecordId) : (s.processes.erase id).getD other default = if other = id then default else s.process other :=
    Records.getD_erase _ _ _ _
  have herase : Subsides s { s with processes := s.processes.erase id } := by
    refine .withProcesses (fun other => ?_) fun other ho => ?_
    · rw [hprocess]
      split
      · exact ⟨fun _ ho => (nomatch ho), fun _ ht => (nomatch ht), fun _ hm => (nomatch hm), fun _ hstate => (nomatch hstate)⟩
      · exact refl _
    · obtain ⟨hne, ho⟩ := (Records.contains_erase _ _ _).1 ho
      rw [hprocess, if_neg hne]
      exact ⟨ho, rfl⟩
  rw [discardProcess_run]
  refine freed_orderly (h.of_subsides herase fun other th hth => h.simple.threadOf other th ((herase.process other).thread th hth)) ?_
  intro a ha pages backing hh
  obtain ⟨m, hm, ham⟩ := List.mem_flatMap.1 ha
  obtain ⟨hother, hshared, htransfer⟩ := hp m hm a ham
  cases hh with
  | @mapping other m' hm' =>
    have hm' : m' ∈ (if other = id then default else s.process other).space.mappings := hprocess other ▸ hm'
    split at hm'
    · cases hm'
    · next hne => exact hother other hne m' hm'
  | shared hm' => exact fun ha' => hshared _ _ hm' (List.mem_singleton.1 ha').symm
  | transfer hm' => exact htransfer _ _ hm'

/-! ## Starting a process -/

/-- The next number names no object. -/
theorem Orderly.not_has_nextId (h : Orderly x s) {o : KernelObject} (ho : s.has o = true) : o.id ≠ s.nextId :=
  Nat.ne_of_lt (h.numbered.object o ho).1

/-- A process that has nothing yet. -/
theorem addProcess_orderly (h : Orderly x s) {p : Process} (hkernel : p.kernel = x.kernel) (hobjects : p.handles.objects = [])
    (hthreads : p.threads = []) (hspace : p.space.mappings = []) {t : Machine}
    (ht : t = { s with nextId := s.nextId + 1, processes := s.processes.insert s.nextId p }) :
    Orderly x t ∧ t.has (.process s.nextId) = true ∧ t.Private s.nextId := by
  subst ht
  have hprocess (other : RecordId) :
      (s.processes.insert s.nextId p).getD other default = if other = s.nextId then p else s.process other :=
    Records.getD_insert _ _ _ _ _
  have hempty : (s.process s.nextId).space.mappings = [] :=
    Classical.byContradiction fun hsome => h.not_has_nextId (has_process_of_mapping hsome) rfl
  have hhas {o : KernelObject} (ho : has { s with
      nextId := s.nextId + 1, processes := s.processes.insert s.nextId p } o = true) : o = .process s.nextId ∨ s.has o = true := by
    cases o
    case process other => exact ((Records.contains_insert _ _ _ _).1 ho).imp_left (congrArg _)
    all_goals exact .inr ho
  refine ⟨?_, (Records.contains_insert _ _ _ _).2 (.inl rfl), fun m hm => ?_⟩
  · constructor
    case stocked => exact h.stocked.of_same (Nat.le_succ _) (fun _ => rfl) (fun _ => rfl) (fun hc => hc) rfl
    case backed =>
      refine h.backed.add rfl (fun other => ?_) (fun _ _ hm => .inl hm) fun _ _ hm => .inl hm
      refine (congrArg (·.space.mappings) (hprocess other)).trans ?_
      split
      · next heq => rw [heq, hspace, hempty]
      · rfl
    case numbered =>
      have hnew : ∀ o : KernelObject, o = .process s.nextId → NoAllocation { s with
          nextId := s.nextId + 1, processes := s.processes.insert s.nextId p } o.id :=
        fun o ho => ho ▸ ⟨Nat.lt_succ_self _, h.stocked.fresh⟩
      refine h.numbered.grow (Nat.le_succ _) (fun _ hid => hid.2) (fun o ho => (hhas ho).symm.imp_right (hnew o))
        (fun _ _ _ hm => .inl hm) (fun other o ho => .inl ?_) (fun _ ho => .inl ⟨ho, rfl⟩) fun _ hid => .inl hid
      have ho : o ∈ (if other = s.nextId then p else s.process other).handles.objects := hprocess other ▸ ho
      split at ho
      · rw [hobjects] at ho
        cases ho
      · exact ho
    case simple =>
      constructor
      case thread => exact h.simple.thread
      case object =>
        intro other o ho
        have ho : o ∈ (if other = s.nextId then p else s.process other).handles.objects := hprocess other ▸ ho
        split at ho
        · rw [hobjects] at ho
          cases ho
        · exact h.simple.object other o ho
      case threadOf =>
        intro other th hth
        have hth : th ∈ (if other = s.nextId then p else s.process other).threads := hprocess other ▸ hth
        split at hth
        · rw [hthreads] at hth
          cases hth
        · exact h.simple.threadOf other th hth
      case kernelOf =>
        intro other ho
        refine (congrArg Process.kernel (hprocess other)).trans ?_
        split
        · exact hkernel
        · next hne => exact h.simple.kernelOf other ((hhas ho).resolve_left fun heq => hne (KernelObject.process.inj heq))
      case bare => exact h.simple.bare
  · have hm : m ∈ (if s.nextId = s.nextId then p else s.process s.nextId).space.mappings := hprocess s.nextId ▸ hm
    rw [if_pos rfl, hspace] at hm
    cases hm

/-- A kernel whose counters have gone on. -/
theorem takePid_subsides (k : Kernel) (isApplication : Bool) (order : Nat) :
    k.Subsides { (k.takePid isApplication).2 with nextCreationOrder := order } := by
  unfold Kernel.takePid
  split <;> exact ⟨fun _ => rfl, fun h => h, rfl, fun _ _ h => h, rfl⟩

/-- A new process has the next number, and the machine stays orderly. -/
theorem createProcess_orderly (h : Orderly x s) (name : String) (programId : Nat) (flags : ProcessFlags)
    (capabilities : Capabilities) :
    Orderly x (createProcess x.kernel name programId flags capabilities s).2 ∧
    (createProcess x.kernel name programId flags capabilities s).2.has (.process s.nextId) = true ∧
    (createProcess x.kernel name programId flags capabilities s).2.Private s.nextId := by
  have hcount : Subsides s (setKernel x.kernel { ((s.kernel x.kernel).takePid flags.isApplication).2 with
      nextCreationOrder := ((s.kernel x.kernel).takePid flags.isApplication).2.nextCreationOrder + 1 } s).2 :=
    .setKernel (takePid_subsides _ _ _)
  refine addProcess_orderly (h.of_subsides hcount h.simple.threadOf) rfl ?_ rfl rfl rfl
  rfl

/-- A new process spares memory objects and their bytes. -/
theorem createProcess_spares (name : String) (programId : Nat) (flags : ProcessFlags) (capabilities : Capabilities) (s : Machine) :
    Spares x s (createProcess x.kernel name programId flags capabilities s).2 := by
  have hkernel := kernel_insert s x.kernel x.kernel { ((s.kernel x.kernel).takePid flags.isApplication).2 with
    nextCreationOrder := ((s.kernel x.kernel).takePid flags.isApplication).2.nextCreationOrder + 1 }
  exact .of_memory rfl rfl ((congrArg (·.host.memory) (hkernel.trans (if_pos rfl))).trans (takePid_subsides _ _ _).memory)

/-- The equipment of a process: its code, its thread-local page and its thread. -/
theorem StartCall.equip_builds (c : StartCall) (hbody : c.body = .guest) (id : RecordId) (s : Machine) :
    Builds x id s ((c.equip x.kernel id).run s).2 ∧
    ∀ thread, ((c.equip x.kernel id).run s).1 = .ok thread → ((c.equip x.kernel id).run s).2.has (.thread thread) = true := by
  have hcode := mapCode_builds (x := x) id c.creation.codeAddress.toNat c.creation.codePages.toNat s
  rw [equip, Action.run_bind, hbody]
  rcases hrun : (mapCode id c.creation.codeAddress.toNat c.creation.codePages.toNat).run s with ⟨e | u, t⟩ <;> rw [hrun] at hcode
  · exact ⟨hcode, fun _ h => nomatch h⟩
  · dsimp only
    rw [Action.run_lift_bind]
    obtain ⟨hthread, hhas⟩ :=
      createThread_builds (x := x) id (takeThreadId x.kernel t).1 c.priority .guest (takeThreadId x.kernel t).2
    exact ⟨IsTrans.trans _ _ _ hcode (IsTrans.trans _ _ _ ((takeThreadId_calm x.kernel t).builds rfl rfl) hthread), hhas⟩

/-- A process that exists becomes a member of the process set. -/
theorem addMember_orderly (h : Orderly x s) (hid : s.has (.process id) = true) (pid : Nat) : Orderly x (setKernel x.kernel
    { s.kernel x.kernel with processes := (s.kernel x.kernel).processes.insert pid id } s).2 := by
  let k := { s.kernel x.kernel with processes := (s.kernel x.kernel).processes.insert pid id }
  have hkernel (other : RecordId) : (setKernel x.kernel k s).2.kernel other = if other = x.kernel then k else s.kernel other :=
    kernel_insert s x.kernel other k
  have hself : (setKernel x.kernel k s).2.kernel x.kernel = k := (hkernel _).trans (if_pos rfl)
  constructor
  case stocked =>
    exact h.stocked.of_same (Nat.le_refl _) (fun _ => rfl) (fun kind => congrArg (·.region kind) hself)
      (fun hc => (congrArg Kernel.Complete hself).mpr hc) (congrArg (·.host.memory.size) hself)
  case backed => exact h.backed.add rfl (fun _ => rfl) (fun _ _ hm => .inl hm) fun _ _ hm => .inl hm
  case numbered =>
    refine h.numbered.grow (Nat.le_refl _) (fun _ hid => hid.2) (fun _ ho => .inl ho) (fun other pid' member hm => ?_)
      (fun _ _ ho => .inl ho) (fun _ ho => .inl ⟨ho, rfl⟩) fun _ hid => .inl hid
    have hm : (if other = x.kernel then k else s.kernel other).processes[pid']? = some member := hkernel other ▸ hm
    split at hm
    · next heq =>
      have hm : ((s.kernel x.kernel).processes.insert pid id)[pid']? = some member := hm
      rw [Std.TreeMap.getElem?_insert] at hm
      split at hm
      · exact .inr (Option.some.inj hm ▸ h.numbered.object (.process id) hid)
      · exact .inl (heq ▸ hm)
    · exact .inl hm
  case simple =>
    obtain ⟨h1, h2, h3, h4, h5, h6, h7, h8, h9, h10, h11⟩ := h.simple.bare
    refine ⟨h.simple.thread, h.simple.object, h.simple.threadOf, h.simple.kernelOf,
      h1, h2, h3, h4, h5, h6, h7, h8, h9, h10, fun other => ?_⟩
    refine (congrArg Kernel.namedPorts (hkernel other)).trans ?_
    split
    · exact h11 x.kernel
    · exact h11 other

/-- Joining the process set, which has nothing to do with memory. -/
theorem StartCall.join_orderly (c : StartCall) {thread : RecordId} (h : Orderly x s) (hid : s.has (.process id) = true)
    (hthread : s.has (.thread thread) = true) : Orderly x (c.join x.kernel id thread s).2 ∧
      ((c.join x.kernel id thread s).2.kernel x.kernel).host.memory = (s.kernel x.kernel).host.memory := by
  have hlast (pid : Nat) (text : String) (event : KernelEvent) (t : Machine) (ht : Orderly x t) (hid : t.has (.process id) = true)
      (hthread : t.has (.thread thread) = true) {u : Machine} (hu : u = ((do
        setKernel x.kernel { t.kernel x.kernel with processes := (t.kernel x.kernel).processes.insert pid id }
        log .info text
        let _ ← audit x.kernel event
        startThread thread : Update Unit) t).2) :
      Orderly x u ∧ (u.kernel x.kernel).host.memory = (t.kernel x.kernel).host.memory := by
    subst hu
    have hannounce : Keeps (Calm x.kernel (· = .thread thread)) (do
        log .info text
        let _ ← audit x.kernel event
        startThread thread) := (log_calm _ _).bind fun _ => (audit_calm _ _).bind fun _ => startThread_calm rfl
    have hmember := addMember_orderly ht hid pid
    have hk : ∀ o, o = .thread thread → (setKernel x.kernel { t.kernel x.kernel with
        processes := (t.kernel x.kernel).processes.insert pid id } t).2.has o = true := fun o ho => ho ▸ hthread
    refine ⟨hmember.of_calm (hannounce _) hk, ((hannounce _ hmember.simple hk).1.kernel x.kernel).memory.trans ?_⟩
    exact congrArg (·.host.memory) ((kernel_insert t x.kernel x.kernel _).trans (if_pos rfl))
  rw [join, Update.run_look, Update.run_look]
  dsimp only
  split
  · refine hlast _ _ _ (setPaused id true s).2 ?_ (has_setProcess hid) (has_setProcess hthread) rfl
    exact h.of_calm_for (setPaused_calm rfl true s) hid
  · exact hlast _ _ _ s h hid hthread rfl

/-- A process that begins to run keeps the machine orderly. -/
theorem StartCall.enter_orderly (c : StartCall) {thread : RecordId} (h : Orderly x s) (hid : s.has (.process id) = true)
    (hthread : s.has (.thread thread) = true) : Orderly x (c.enter x.kernel id thread s).2 ∧
      ((c.enter x.kernel id thread s).2.kernel x.kernel).host.memory = (s.kernel x.kernel).host.memory := by
  have hk : ∀ o : KernelObject, s.has o = true → s.has o = true := fun _ ho => ho
  have hcalm : Calm x.kernel (s.has · = true) s (reapTerminated x.kernel (moveProcess id .start s).2).2 :=
    IsTrans.trans _ _ _ (moveProcess_calm (fun _ => hid) (by decide)) (reapTerminated_calm x.kernel _)
  obtain ⟨hsub, hhas⟩ := hcalm h.simple hk
  obtain ⟨hjoined, hmemory⟩ := c.join_orderly (h.of_calm hcalm hk) (hhas _ hid) (hhas _ hthread)
  exact ⟨hjoined, hmemory.trans (hsub.kernel x.kernel).memory⟩

/-- A process is made and started, or not made at all; the memory objects keep their bytes. -/
theorem StartCall.start_orderly (c : StartCall) (hbody : c.body = .guest) (h : Orderly x s) :
    Orderly x ((c.start x.kernel).run s).2 ∧ Untouched x s ((c.start x.kernel).run s).2 := by
  cases ha : c.admitted? (s.kernel x.kernel) with
  | none =>
    obtain ⟨e, journal, hrun⟩ := start_of_refused ha
    rw [hrun]
    exact ⟨h.of_subsides (.told s journal s.wakeUps s.handleCounts) h.simple.threadOf, fun _ _ _ _ => rfl⟩
  | some capabilities =>
    obtain ⟨hcreated, hid, hprivate⟩ :=
      createProcess_orderly h c.creation.name c.creation.programId.toNat c.creation.flags capabilities
    have hcreate : Spares x s (c.create x.kernel capabilities s).2 := createProcess_spares _ _ _ _ s
    have hnext : (c.create x.kernel capabilities s).1 = s.nextId := (createProcess_creates _ _ _ _ _ s).1
    obtain ⟨hbuilds, hthread⟩ := c.equip_builds hbody s.nextId (c.create x.kernel capabilities s).2
    obtain ⟨hequipped, hid, hprivate, hspares⟩ := hbuilds hcreated hid
    rw [start_of_admitted ha, hnext, makeThread, Action.run_tryCatch]
    rcases hrun : (c.equip x.kernel s.nextId).run (c.create x.kernel capabilities s).2 with ⟨e | thread, t⟩ <;>
      rw [hrun] at hequipped hid hthread hprivate hspares
    · refine ⟨discardProcess_orderly hequipped (hprivate ‹_›), hcreate.untouched (hspares.untouched (.of_memory ?_))⟩
      exact memory_discardProcess s.nextId t x.kernel
    · obtain ⟨hentered, hmemory⟩ := c.enter_orderly hequipped hid (hthread thread rfl)
      exact ⟨hentered, hcreate.untouched (hspares.untouched (.of_memory hmemory))⟩

end Microkernel.Machine
