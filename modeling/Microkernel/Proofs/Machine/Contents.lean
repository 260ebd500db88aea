import Microkernel.Proofs.Machine.MemoryRuns

/-!
# What calls leave of memory objects

Whatever hosts and guests ask for, memory objects keep their pages, and heap memory stays mapped as long as its process has its
mappings (`Sustains`). No call changes a byte of a memory object: pages that are taken are cleared, but they are not those of an object
(`Untouched`). Both hold of every move (`Move.after_sustains`).
-/

namespace Microkernel.Machine

/-- The kernel and the pages of a memory object. -/
def memory? (s : Machine) : KernelObject → Option (RecordId × PageList)
  | .sharedMemory i => s.sharedMemories[i]?.map fun b => (b.kernel, b.pages)
  | .transferMemory i => s.transferMemories[i]?.map fun b => (b.kernel, b.pages)
  | _ => none

variable {x : Setup} {s t : Machine} {kernel id memory : RecordId}

/-- What has the memory of an object is an object. -/
theorem isObject_of_memory? {o : KernelObject} {k : RecordId} {pages : PageList} (h : s.memory? o = some (k, pages)) :
    s.IsObject pages := by
  cases o
  case sharedMemory i =>
    obtain ⟨b, hb, heq⟩ := Option.map_eq_some_iff.1 h
    exact .inl ⟨i, b, hb, congrArg Prod.snd heq⟩
  case transferMemory i =>
    obtain ⟨b, hb, heq⟩ := Option.map_eq_some_iff.1 h
    exact .inr ⟨i, b, hb, congrArg Prod.snd heq⟩
  all_goals cases h

/-- Machines with the same memory objects have the same memory behind them. -/
theorem memory?_congr (hs : t.sharedMemories = s.sharedMemories) (ht : t.transferMemories = s.transferMemories) (o : KernelObject) :
    t.memory? o = s.memory? o := by
  cases o
  case sharedMemory i => rw [memory?, memory?, hs]
  case transferMemory i => rw [memory?, memory?, ht]
  all_goals rfl

/-- Transfer memory that has another list or permission. -/
theorem memory?_setTransferMemory {i : RecordId} {b : TransferMemory} (b' : TransferMemory) (hb : s.transferMemories[i]? = some b)
    (hkernel : b'.kernel = b.kernel) (hpages : b'.pages = b.pages) (o : KernelObject) :
    (setTransferMemory i b' s).2.memory? o = s.memory? o := by
  cases o
  case transferMemory j =>
    refine (congrArg (Option.map _) (Records.getElem?_insert s.transferMemories i j b')).trans ?_
    split
    · next heq =>
      rw [heq, memory?, hb, Option.map_some, Option.map_some, hkernel, hpages]
    · rfl
  all_goals rfl

/-! ## What stays -/

/-- Memory objects keep their pages, new ones belong to the kernel, and heap memory stays mapped in processes that have their
mappings. -/
structure Sustains (kernel : RecordId) (s t : Machine) : Prop where
  nextId : s.nextId ≤ t.nextId
  memory : ∀ o m, t.memory? o = some m → s.memory? o = some m ∨ s.nextId ≤ o.id ∧ m.1 = kernel
  retains : ∀ id < s.nextId, t.Retains id → s.Retains id
  own : ∀ id < s.nextId, t.Retains id → ∀ m ∈ (s.process id).space.mappings, m.object = none → m ∈ (t.process id).space.mappings

instance : IsPreorder Machine (Sustains kernel) where
  refl _ := ⟨Nat.le_refl _, fun _ _ h => .inl h, fun _ _ h => h, fun _ _ _ _ hm _ => hm⟩
  trans s t u h h' := by
    constructor
    case nextId => exact Nat.le_trans h.nextId h'.nextId
    case memory =>
      intro o m hm
      rcases h'.memory o m hm with hm | ⟨hnew, hkernel⟩
      · exact h.memory o m hm
      · exact .inr ⟨Nat.le_trans h.nextId hnew, hkernel⟩
    case retains =>
      exact fun id hid hu => h.retains id hid (h'.retains id (Nat.lt_of_lt_of_le hid h.nextId) hu)
    case own =>
      intro id hid hu m hm ho
      have hid' := Nat.lt_of_lt_of_le hid h.nextId
      exact h'.own id hid' hu m (h.own id hid (h'.retains id hid' hu) m hm ho) ho

/-- What makes no memory object sustains those that there are. -/
theorem Sustains.steady (hs : Steady (s.nextId ≤ ·) s t) : Sustains kernel s t where
  nextId := hs.nextId
  memory o _ hm := .inl ((memory?_congr hs.objects.sharedMemories hs.objects.transferMemories o).symm.trans hm)
  retains _ hid ht := hs.retains hid ht
  own id _ ht := (hs.process id).own.resolve_left ht.2

/-- What only lets go of records sustains what is left. -/
theorem Sustains.sheds (h : Sheds s t) : Sustains kernel s t where
  nextId := Nat.le_of_eq h.nextId.symm
  memory o m hm := by
    left
    cases o
    case sharedMemory i =>
      obtain ⟨b, hb, rfl⟩ := Option.map_eq_some_iff.1 hm
      exact congrArg (Option.map _) (h.shared i b hb)
    case transferMemory i =>
      obtain ⟨b, hb, rfl⟩ := Option.map_eq_some_iff.1 hm
      exact congrArg (Option.map _) (h.transfer i b hb)
    all_goals cases hm
  retains id _ ht := by
    obtain ⟨hold, hsame⟩ := h.kept id ht.1
    exact ⟨hold, hsame ▸ ht.2⟩
  own id _ ht _ hm _ := (h.kept id ht.1).2 ▸ hm

/-- A process gets another address space, in which its heap memory is. -/
theorem Sustains.remaps {space : AddressSpace} (h : Remaps id space s t) (hm : ∀ o, t.memory? o = s.memory? o)
    (hown : ∀ m ∈ (s.process id).space.mappings, m.object = none → m ∈ space.mappings) : Sustains kernel s t where
  nextId := Nat.le_of_eq h.nextId.symm
  memory o m ho := .inl ((hm o).symm.trans ho)
  retains _ _ ht := h.retains_iff.1 ht
  own other _ _ m hmem ho := by
    by_cases heq : other = id
    · subst heq
      rw [h.space_self]
      exact hown m hmem ho
    · rwa [h.space_of_ne heq]

/-- A memory object is made. -/
theorem Sustains.addObject {sharedMemories : Records SharedMemory} {transferMemories : Records TransferMemory}
    (ht : t = { s with nextId := s.nextId + 1, sharedMemories, transferMemories })
    (hm : ∀ o m, t.memory? o = some m → s.memory? o = some m ∨ s.nextId ≤ o.id ∧ m.1 = kernel) : Sustains kernel s t := by
  subst ht
  exact ⟨Nat.le_succ _, hm, fun _ _ h => h, fun _ _ _ _ hm _ => hm⟩

/-! ## Calls about memory objects -/

/-- New shared memory is one more object, on pages that were free. -/
theorem newSharedMemory_sustains (h : Orderly x s) (kind : RegionKind) (size : Nat) (ownerPermission userPermission : Permission) :
    Sustains x.kernel s ((newSharedMemory x.kernel kind size ownerPermission userPermission).run s).2 ∧
      Untouched x s ((newSharedMemory x.kernel kind size ownerPermission userPermission).run s).2 := by
  unfold newSharedMemory wholePages
  split
  · next size' _ =>
    rw [Action.run_bind, Action.run_pure]
    dsimp only
    rw [Action.run_bind]
    have hsteady : Steady (fun _ => False) s ((allocatePages x.kernel kind (size' / pageSize)).run s).2 :=
      (allocatePages_frame x.kernel kind _ s).steady (allocatePages_objects x.kernel kind _ s)
    have hsustains : Sustains x.kernel s ((allocatePages x.kernel kind (size' / pageSize)).run s).2 :=
      .steady (hsteady.of_known fun _ hid => nomatch hid)
    rcases allocatePages_cases h kind (size' / pageSize) with ⟨e, t, hrun, -, hsub, -⟩ | ⟨pages, t, hrun, hd⟩ <;>
      rw [hrun] at hsustains ⊢
    · exact ⟨hsustains, .of_memory (hsub.kernel x.kernel).memory⟩
    · refine ⟨IsTrans.trans _ _ _ hsustains (.addObject rfl fun o m hm => ?_), (hd.spares h).bytes⟩
      cases o
      case sharedMemory i =>
        obtain ⟨b, hb, rfl⟩ := Option.map_eq_some_iff.1 hm
        have hb := (Records.getElem?_insert _ _ _ _).symm.trans hb
        split at hb
        · next heq => exact .inr ⟨Nat.le_of_eq heq.symm, Option.some.inj hb ▸ rfl⟩
        · exact .inl (congrArg (Option.map _) hb)
      all_goals exact .inl hm
  · exact ⟨refl _, fun _ _ _ _ => rfl⟩

/-- Heap memory that is lent becomes one more object, and stays mapped. -/
theorem lendHeap_sustains (h : Orderly x s) (hid : s.has (.process id) = true) (address size : Nat) (permission : Permission) :
    Sustains x.kernel s ((lendHeap id address size permission).run s).2 ∧
      Untouched x s ((lendHeap id address size permission).run s).2 := by
  rcases lendHeap_cases id address size permission s with ⟨e, hrun⟩ | ⟨pages, backing, -, hrun⟩ <;> rw [hrun]
  · exact ⟨refl _, fun _ _ _ _ => rfl⟩
  · refine ⟨.addObject rfl fun o m hm => ?_, fun _ _ _ _ => rfl⟩
    cases o
    case transferMemory i =>
      obtain ⟨b, hb, rfl⟩ := Option.map_eq_some_iff.1 hm
      have hb := (Records.getElem?_insert _ _ _ _).symm.trans hb
      split at hb
      · next heq => exact .inr ⟨Nat.le_of_eq heq.symm, Option.some.inj hb ▸ h.simple.kernelOf id hid⟩
      · exact .inl (congrArg (Option.map _) hb)
    all_goals exact .inl hm

/-- Mapping leaves all other mappings. -/
theorem mem_of_map {space space' : AddressSpace} {new : Mapping} (h : space.map new = .ok space') :
    ∀ m ∈ space.mappings, m.object = none → m ∈ space'.mappings :=
  fun _ hm _ => (AddressSpace.map_ok h).2 ▸ AddressSpace.mem_insert.2 (.inr hm)

/-- Mapping shared memory changes no object. -/
theorem mapShared_sustains (hid : s.has (.process id) = true) (address size : Nat) (asked : Permission) :
    Sustains kernel s ((mapShared memory id address size asked).run s).2 ∧
      Untouched x s ((mapShared memory id address size asked).run s).2 := by
  rcases mapShared_cases memory id address size asked s with ⟨e, hrun⟩ | ⟨permission, -, hrun⟩ <;> rw [hrun]
  · exact ⟨refl _, fun _ _ _ _ => rfl⟩
  · rcases mapObject_cases id address size _ s with ⟨e, hrun⟩ | ⟨address', space, -, hmap, hrun⟩ <;> rw [hrun]
    · exact ⟨refl _, fun _ _ _ _ => rfl⟩
    · exact ⟨.remaps (Remaps.setSpace hid space) (fun _ => rfl) (mem_of_map hmap), fun _ _ _ _ => rfl⟩

/-- Mapping transfer memory changes its list, and neither its pages nor their bytes. -/
theorem mapTransfer_sustains (hmemory : s.has (.transferMemory memory) = true) (hid : s.has (.process id) = true) (address size : Nat)
    (asked : Permission) : Sustains kernel s ((mapTransfer memory id address size asked).run s).2 ∧
      Untouched x s ((mapTransfer memory id address size asked).run s).2 := by
  rcases mapTransfer_cases memory id address size asked s with ⟨e, hrun⟩ | ⟨permission, -, hrun⟩ <;> rw [hrun]
  · exact ⟨refl _, fun _ _ _ _ => rfl⟩
  · rw [Action.run_bind]
    rcases mapObject_cases id address size _ s with ⟨e, hrun⟩ | ⟨address', space, -, hmap, hrun⟩ <;> rw [hrun]
    · exact ⟨refl _, fun _ _ _ _ => rfl⟩
    · refine ⟨.remaps ((Remaps.setSpace hid space).setTransferMemory memory _) (fun o => ?_) (mem_of_map hmap), fun _ _ _ _ => rfl⟩
      let b := s.transferMemory memory
      have hb : (setSpace id space s).2.transferMemories[memory]? = some b := Records.getElem?_of_contains hmemory default
      exact memory?_setTransferMemory { b with mappings := b.mappings ++ [(id, address')] } hb rfl rfl o

/-- Unmapping an object leaves heap memory mapped. -/
theorem mem_of_unmap {space space' : AddressSpace} {address size object : Nat} {removed : Mapping} (ho : space.Ordered)
    (h : space.unmap address size (some object) = .ok (removed, space')) :
    ∀ m ∈ space.mappings, m.object = none → m ∈ space'.mappings := by
  intro m hm hnone
  obtain ⟨hremoved, haddress, hobject, hrest⟩ := AddressSpace.unmap_spec h
  rw [hrest, List.mem_filter]
  refine ⟨hm, decide_eq_true fun heq => ?_⟩
  rw [ho.eq_of_address hm hremoved (heq.trans haddress.symm), hobject] at hnone
  cases hnone

/-- Unmapping shared memory takes no heap memory from its process. -/
theorem unmapShared_sustains (hg : Granted s) (hid : s.has (.process id) = true) (address size : Nat) :
    Sustains kernel s ((unmapShared memory id address size).run s).2 := by
  rw [unmapShared]
  rcases unmapObject_cases id address size memory s with ⟨e, hrun⟩ | ⟨m, space, hunmap, hrun⟩ <;> rw [hrun]
  · exact refl _
  · exact .remaps (Remaps.setSpace hid space) (fun _ => rfl) (mem_of_unmap (hg.ordered id) hunmap)

/-- Unmapping transfer memory takes none either. -/
theorem unmapTransfer_sustains (hg : Granted s) (hmemory : s.has (.transferMemory memory) = true) (hid : s.has (.process id) = true)
    (address size : Nat) : Sustains kernel s ((unmapTransfer memory id address size).run s).2 := by
  rw [unmapTransfer, Action.run_bind]
  rcases unmapObject_cases id address size memory s with ⟨e, hrun⟩ | ⟨m, space, hunmap, hrun⟩ <;> rw [hrun]
  · exact refl _
  · refine .remaps ((Remaps.setSpace hid space).setTransferMemory memory _) (fun o => ?_) (mem_of_unmap (hg.ordered id) hunmap)
    let b := s.transferMemory memory
    have hb : (setSpace id space s).2.transferMemories[memory]? = some b := Records.getElem?_of_contains hmemory default
    exact memory?_setTransferMemory { b with mappings := b.mappings.filter (· ≠ (id, address)) } hb rfl rfl o

/-- Another permission for transfer memory changes neither its pages nor what heap memory is mapped. -/
theorem protectTransfer_sustains (hg : Granted s) (hmemory : s.has (.transferMemory memory) = true) (permission : Permission) :
    Sustains kernel s ((protectTransfer memory permission).run s).2 := by
  rcases protectTransfer_cases memory permission s with ⟨-, hrun⟩ | ⟨t, -, hrun, ht⟩ <;> rw [hrun]
  · exact refl _
  · have hb := Records.getElem?_of_contains hmemory default
    have hprocess := ht.process
    have hretains {id : RecordId} (hid : t.Retains id) : s.Retains id := by
      refine ⟨(ht.contains id).symm.trans hid.1, fun hended => hid.2 ?_⟩
      rw [hprocess]
      exact hended
    constructor
    case nextId => exact Nat.le_of_eq ht.nextId.symm
    case memory =>
      intro o m hm
      let b := s.transferMemory memory
      rw [memory?_congr ht.sharedMemories ht.transferMemories,
        memory?_setTransferMemory { b with permission, mappings := s.present b.mappings } hb rfl rfl] at hm
      exact .inl hm
    case retains => exact fun _ _ hid => hretains hid
    case own =>
      intro id _ hid m hm ho
      rw [hprocess]
      refine AddressSpace.mem_withPermission.2 ⟨m, hm, (if_neg fun hin => ?_).symm⟩
      cases ho.symm.trans ((hg.mem_present_iff hb (hretains hid) hm).1 hin)

/-! ## Calls -/

/-- What subsides keeps the bytes of memory. -/
theorem Untouched.of_calm {known : KernelObject → Prop} (h : Orderly x s) (hc : Calm x.kernel known s t)
    (hk : ∀ o, known o → s.has o = true) : Untouched x s t :=
  .of_memory (((hc h.simple hk).1.kernel x.kernel).memory)

/-- Whatever a host asks for, memory objects keep their pages and bytes, and heap memory stays mapped. -/
theorem HostCall.perform_sustains (h : Orderly x s) (hg : Granted s) (call : HostCall) :
    Sustains x.kernel s (call.perform x.kernel s).2 ∧ Untouched x s (call.perform x.kernel s).2 := by
  have hk : ∀ o : KernelObject, s.has o = true → s.has o = true := fun _ ho => ho
  rw [perform, Update.run_look]
  split
  · next hobjects =>
    have hhas := List.all_eq_true.1 hobjects
    have hfirst {o : KernelObject} {rest : List KernelObject} (heq : call.objects = o :: rest) : s.has o = true :=
      hhas o (heq ▸ List.mem_cons_self)
    have hsecond {o o' : KernelObject} {rest : List KernelObject} (heq : call.objects = o :: o' :: rest) : s.has o' = true :=
      hhas o' (heq ▸ List.mem_cons_of_mem _ List.mem_cons_self)
    have hsteady (hcall : call.isAboutObjects = false) : Sustains x.kernel s (call.run x.kernel s).2 :=
      .steady (run_steady h hobjects hcall)
    cases call with
    | start call => exact ⟨hsteady rfl, (StartCall.start_orderly _ rfl h).2⟩
    | addThread process priority => exact ⟨hsteady rfl, (addThread_orderly h (hfirst rfl) priority).2⟩
    | newEvent mode => exact ⟨hsteady rfl, fun _ _ _ _ => rfl⟩
    | generateHandle process object =>
      refine ⟨hsteady rfl, ?_⟩
      change Untouched x s ((Machine.generateHandle process object).run s).2
      rcases generateHandle_cases process object s with ⟨e, journal, hrun⟩ | ⟨handle, handles, -, hrun⟩ <;> rw [hrun] <;>
        exact fun _ _ _ _ => rfl
    | closeHandle process handle => exact ⟨hsteady rfl, .of_calm h (closeHandle_calm (hfirst rfl) handle s) hk⟩
    | allocateHeap process size permission =>
      exact ⟨hsteady rfl, (allocateHeap_builds process size permission s h (hfirst rfl)).2.2.2.bytes⟩
    | newSharedMemory region size ownerPermission userPermission =>
      exact newSharedMemory_sustains h region size ownerPermission userPermission
    | mapShared memory process address size asked => exact mapShared_sustains (hsecond rfl) address size asked
    | unmapShared memory process address size =>
      exact ⟨unmapShared_sustains hg (hsecond rfl) address size,
        .of_calm h (unmapObject_calm (hsecond rfl) address size memory s) hk⟩
    | lendHeap process address size permission => exact lendHeap_sustains h (hfirst rfl) address size permission
    | mapTransfer memory process address size asked => exact mapTransfer_sustains (hfirst rfl) (hsecond rfl) address size asked
    | unmapTransfer memory process address size =>
      exact ⟨unmapTransfer_sustains hg (hfirst rfl) (hsecond rfl) address size,
        .of_calm h (unmapTransfer_calm (hfirst rfl) (hsecond rfl) address size s) hk⟩
    | protectTransfer memory permission =>
      exact ⟨protectTransfer_sustains hg (hfirst rfl) permission,
        .of_calm h (protectTransfer_calm (hfirst rfl) permission s) hk⟩
    | terminate process =>
      refine ⟨hsteady rfl, .of_calm h ?_ hk⟩
      exact terminateProcess_calm (hfirst rfl) none fun th hth => h.simple.threadOf process th hth
    | reap => exact ⟨hsteady rfl, .of_calm h (reapTerminated_calm x.kernel s) hk⟩
  · exact ⟨refl _, fun _ _ _ _ => rfl⟩

/-! ## Rest -/

/-- Letting go of dead records changes no byte. -/
theorem memory_sweep (h : Orderly x s) : ((sweep s).2.kernel x.kernel).host.memory = (s.kernel x.kernel).host.memory := by
  rw [h.simple.bare.sweep_run]
  exact memory_freed _ s x.kernel

/-- Coming to rest, a machine drops objects and processes, and changes no memory. -/
theorem quiesce_sustains (h : Orderly x s) (hg : Granted s) : Sustains x.kernel s (quiesce s).2 ∧
    ((quiesce s).2.kernel x.kernel).host.memory = (s.kernel x.kernel).host.memory := by
  suffices hfor : ∀ fuel {s : Machine}, Orderly x s → Granted s → Sustains x.kernel s (quiesceFor fuel s).2 ∧
      ((quiesceFor fuel s).2.kernel x.kernel).host.memory = (s.kernel x.kernel).host.memory from hfor _ h hg
  intro fuel
  induction fuel with
  | zero => exact fun _ _ => ⟨refl _, rfl⟩
  | succ fuel ih =>
    intro s h hg
    have hk : ∀ o : KernelObject, False → s.has o = true := fun _ ho => nomatch ho
    have hsettled : Orderly x (settle s).2 := h.of_calm (settle_calm x.kernel s) hk
    have hsteady : Steady (s.nextId ≤ ·) s (settle s).2 := (settle_steady h).of_known fun _ hid => nomatch hid
    have hmemory := ((settle_calm x.kernel s h.simple hk).1.kernel x.kernel).memory
    have hswept : Sustains x.kernel s (sweep (settle s).2).2 :=
      IsTrans.trans _ _ _ (.steady hsteady) (.sheds (sweep_sheds hsettled))
    have hswept' := (memory_sweep hsettled).trans hmemory
    rw [quiesceFor, Update.run_bind, Update.run_bind]
    split
    · obtain ⟨hrest, hrest'⟩ := ih (sweep_orderly hsettled) ((hg.steady hsteady).sheds (sweep_sheds hsettled))
      exact ⟨IsTrans.trans _ _ _ hswept hrest, hrest'.trans hswept'⟩
    · exact ⟨hswept, hswept'⟩

/-! ## Moves -/

/-- A guest's handle of what it lends is no memory. -/
theorem runCall_sustains (h : Orderly x s) (hg : Granted s) {thread : RecordId} {call : GuestCall} {host : HostCall}
    (hcall : s.hostCall? thread call = some host) (hobjects : host.objects.all s.has = true) :
    Sustains x.kernel s ((runCall thread call).run s).2 ∧ Untouched x s ((runCall thread call).run s).2 := by
  obtain ⟨hsustains, huntouched⟩ := HostCall.perform_sustains h hg host
  generalize ht : (host.perform x.kernel s).2 = t at hsustains huntouched
  rcases runCall_cases hcall hobjects ht with hrun | ⟨id, i, hid, -, hrun⟩ <;> rw [hrun]
  · exact ⟨hsustains, huntouched⟩
  · refine ⟨IsTrans.trans _ _ _ hsustains (.steady ?_), fun pages ho place hp => ?_⟩
    · exact (generateHandle_steady rfl _ _).of_known fun _ heq => heq ▸ hid
    · rw [← huntouched pages ho place hp]
      rcases generateHandle_cases id (.transferMemory i) t with ⟨e, journal, hrun⟩ | ⟨handle, handles, -, hrun⟩ <;> rw [hrun] <;> rfl

/-- No move changes the pages of a memory object or a byte of them, or unmaps heap memory of a process that has its mappings. -/
theorem Move.after_sustains (h : Orderly x s) (hg : Granted s) (move : Move) :
    Sustains x.kernel s (move.after x.kernel s) ∧ Untouched x s (move.after x.kernel s) := by
  cases move with
  | host call => exact HostCall.perform_sustains h hg call
  | guest thread call =>
    unfold after
    dsimp only
    split
    · next hcall =>
      split
      · next hobjects => exact runCall_sustains h hg hcall hobjects
      · exact ⟨refl _, fun _ _ _ _ => rfl⟩
    · exact ⟨refl _, fun _ _ _ _ => rfl⟩
  | rest holds =>
    have hheld : Steady (s.nextId ≤ ·) s { s with held := (holds.filter s.has).map KernelObject.id } :=
      .of_eq (Nat.le_refl _) rfl rfl rfl
    obtain ⟨hsustains, hmemory⟩ := quiesce_sustains (h.hold holds) (hg.steady hheld)
    exact ⟨IsTrans.trans _ _ _ (.steady hheld) hsustains, .of_memory hmemory⟩

end Microkernel.Machine
