import Microkernel.Proofs.Machine.Protecting
import Microkernel.Proofs.Machine.PhysicalPages

/-!
# Calls keep grants

Whatever a host asks for, mappings and memory objects stay in agreement (`HostCall.perform_granted`); so they do as a machine settles
and lets records go (`quiesce_granted`).
-/

namespace Microkernel

namespace Steady

variable {known : RecordId → Prop} {s t : Machine}

/-- Known processes that exist have not been made. -/
theorem of_known (h : Steady known s t) (hknown : ∀ id, known id → s.processes.contains id = true) :
    Steady (s.nextId ≤ ·) s t :=
  ⟨h.nextId, h.process, h.objects.sharedMemories, h.objects.transferMemories, fun id hid =>
    .inl ((h.objects.process id hid).elim (fun h => h) (hknown id))⟩

/-- Nothing but what has no mappings and is no memory object has changed. -/
theorem of_eq (hn : s.nextId ≤ t.nextId) (hp : t.processes = s.processes) (hs : t.sharedMemories = s.sharedMemories)
    (ht : t.transferMemories = s.transferMemories) : Steady known s t := by
  refine ⟨hn, fun id => ?_, .of_eq hs ht hp⟩
  rw [Machine.process, Machine.process, hp]
  exact refl _

end Steady

namespace Machine

variable {x : Setup} {s t : Machine} {id memory : RecordId}

/-- A number that has not been given names no process. -/
theorem Orderly.process_nextId (h : Orderly x s) : s.process s.nextId = default := by
  cases hid : s.processes.contains s.nextId with
  | true => exact absurd rfl (h.not_has_nextId (o := .process s.nextId) hid)
  | false =>
    unfold process
    exact Std.TreeMap.getD_eq_fallback_of_contains_eq_false hid

/-! ## New memory objects -/

/-- New shared memory is mapped nowhere. -/
theorem newSharedMemory_granted (h : Orderly x s) (hg : Granted s) (kind : RegionKind) (size : Nat)
    (ownerPermission userPermission : Permission) :
    Granted ((newSharedMemory x.kernel kind size ownerPermission userPermission).run s).2 := by
  unfold newSharedMemory wholePages
  split
  · next size' _ =>
    rw [Action.run_bind, Action.run_pure]
    dsimp only
    rw [Action.run_bind]
    have hsteady : Steady (fun _ => False) s ((allocatePages x.kernel kind (size' / pageSize)).run s).2 :=
      (allocatePages_frame x.kernel kind _ s).steady (allocatePages_objects x.kernel kind _ s)
    have hgranted := hg.steady (hsteady.of_known fun _ hid => nomatch hid)
    rcases allocatePages_cases h kind (size' / pageSize) with ⟨e, t, hrun, -⟩ | ⟨pages, t, hrun, hd⟩ <;>
      rw [hrun] at hgranted ⊢
    · exact hgranted
    · refine hgranted.addObject (fun o ho => hd.orderly.not_has_nextId ho) (fun i b hb => ?_) fun i b hb => .inl hb
      have hb := (Records.getElem?_insert _ _ _ _).symm.trans hb
      split at hb
      · next heq => exact .inr ⟨heq, rfl⟩
      · exact .inl hb
  · exact hg

/-- A range of heap memory is lent under a fresh number, or nothing happens. -/
theorem lendHeap_cases (id : RecordId) (address size : Nat) (permission : Permission) (s : Machine) :
    (∃ e, (lendHeap id address size permission).run s = (.error e, s)) ∨
    ∃ pages backing, (s.process id).space.capture address size = .ok (pages, backing) ∧
      (lendHeap id address size permission).run s = (.ok s.nextId, { s with
        nextId := s.nextId + 1
        transferMemories := s.transferMemories.insert s.nextId
          { kernel := (s.process id).kernel, pages, backing, permission } }) := by
  unfold lendHeap
  split
  · exact .inl ⟨_, rfl⟩
  · rw [Action.run_look, Action.run_except_bind]
    cases (s.process id).space.capture address size with
    | error e => exact .inl ⟨e, rfl⟩
    | ok result => exact .inr ⟨result.1, result.2, rfl, rfl⟩

/-- Heap memory that is lent becomes an object without mappings. -/
theorem lendHeap_granted (h : Orderly x s) (hg : Granted s) (id : RecordId) (address size : Nat) (permission : Permission) :
    Granted ((lendHeap id address size permission).run s).2 := by
  rcases lendHeap_cases id address size permission s with ⟨e, hrun⟩ | ⟨pages, backing, -, hrun⟩ <;> rw [hrun]
  · exact hg
  · refine hg.addObject (fun o ho => h.not_has_nextId ho) (fun i b hb => .inl hb) fun i b hb => ?_
    have hb := (Records.getElem?_insert _ _ _ _).symm.trans hb
    split at hb
    · next heq => exact .inr ⟨heq, Option.some.inj hb ▸ rfl, rfl⟩
    · exact .inl hb

/-! ## Mapping and unmapping -/

/-- Another address space lists nothing else for transfer memory. -/
theorem transferMemories_setSpace (s : Machine) (id : RecordId) (space : AddressSpace) :
    (setSpace id space s).2.transferMemories = s.transferMemories := rfl

/-- A process that is not terminating has its mappings. -/
theorem retains_of_isTerminating (hid : s.has (.process id) = true) (h : (s.process id).state.isTerminating = false) :
    s.Retains id := by
  refine ⟨hid, fun hended => ?_⟩
  rw [hended] at h
  cases h

/-- Shared memory is mapped with its pages, and with no more permission than it grants. -/
theorem mapShared_granted (h : Orderly x s) (hg : Granted s) (hmemory : s.has (.sharedMemory memory) = true)
    (hid : s.has (.process id) = true) (address size : Nat) (asked : Permission) :
    Granted ((mapShared memory id address size asked).run s).2 := by
  have hb := Records.getElem?_of_contains hmemory default
  have hnone := hg.apart memory _ hb
  rcases mapShared_cases memory id address size asked s with ⟨e, hrun⟩ | ⟨permission, hgranted, hrun⟩ <;> rw [hrun]
  · exact hg
  · rcases mapObject_cases id address size _ s with ⟨e, hrun⟩ | ⟨address', space, hstate, hmap, hrun⟩ <;> rw [hrun]
    · exact hg
    · refine hg.mapped (Remaps.setSpace hid space) (retains_of_isTerminating hid hstate) (h.numbered.object _ hid).1 hmap rfl
        (h.numbered.object _ hmemory).1 (fun b hb' => ?_) (fun b hb' => ?_) ?_
      · obtain rfl := Option.some.inj (hb.symm.trans hb')
        exact ⟨rfl, hgranted⟩
      · cases hnone.symm.trans hb'
      · exact .of_none _ hnone (transferMemories_setSpace s id space)

/-- Transfer memory is mapped with its pages, and with no more permission than it grants, and lists the new mapping. -/
theorem mapTransfer_granted (h : Orderly x s) (hg : Granted s) (hmemory : s.has (.transferMemory memory) = true)
    (hid : s.has (.process id) = true) (address size : Nat) (asked : Permission) :
    Granted ((mapTransfer memory id address size asked).run s).2 := by
  have hb := Records.getElem?_of_contains hmemory default
  rcases mapTransfer_cases memory id address size asked s with ⟨e, hrun⟩ | ⟨permission, hgranted, hrun⟩ <;> rw [hrun]
  · exact hg
  · rw [Action.run_bind]
    rcases mapObject_cases id address size _ s with ⟨e, hrun⟩ | ⟨address', space, hstate, hmap, hrun⟩ <;> rw [hrun]
    · exact hg
    · refine hg.mapped ((Remaps.setSpace hid space).setTransferMemory memory _) (retains_of_isTerminating hid hstate)
        (h.numbered.object _ hid).1 hmap rfl (h.numbered.object _ hmemory).1 (fun b hb' => ?_) (fun b hb' => ?_) ?_
      · cases (hg.apart memory b hb').symm.trans hb
      · obtain rfl := Option.some.inj (hb.symm.trans hb')
        exact ⟨rfl, hgranted⟩
      · exact .set (· ++ [(id, address')]) hb (transferMemories_setSpace s id space) rfl rfl rfl

/-- The mapping of an object is removed, or nothing happens. -/
theorem unmapObject_cases (id : RecordId) (address size : Nat) (object : RecordId) (s : Machine) :
    (∃ e, (unmapObject id address size object).run s = (.error e, s)) ∨
    ∃ m space, (s.process id).space.unmap address size (some object) = .ok (m, space) ∧
      (unmapObject id address size object).run s = (.ok (), (setSpace id space s).2) := by
  rw [unmapObject, Action.run_look, Action.run_except_bind]
  cases (s.process id).space.unmap address size (some object) with
  | error e => exact .inl ⟨e, rfl⟩
  | ok result => exact .inr ⟨result.1, result.2, rfl, rfl⟩

/-- Shared memory that is unmapped leaves the others mapped. -/
theorem unmapShared_granted (hg : Granted s) (hmemory : s.has (.sharedMemory memory) = true) (hid : s.has (.process id) = true)
    (address size : Nat) : Granted ((unmapShared memory id address size).run s).2 := by
  have hnone := hg.apart memory _ (Records.getElem?_of_contains hmemory default)
  rw [unmapShared]
  rcases unmapObject_cases id address size memory s with ⟨e, hrun⟩ | ⟨m, space, hunmap, hrun⟩ <;> rw [hrun]
  · exact hg
  · refine hg.unmapped (Remaps.setSpace hid space) hunmap ?_
    exact .of_none _ hnone (transferMemories_setSpace s id space)

/-- Transfer memory that is unmapped no longer lists the mapping. -/
theorem unmapTransfer_granted (hg : Granted s) (hmemory : s.has (.transferMemory memory) = true) (hid : s.has (.process id) = true)
    (address size : Nat) : Granted ((unmapTransfer memory id address size).run s).2 := by
  have hb := Records.getElem?_of_contains hmemory default
  rw [unmapTransfer, Action.run_bind]
  rcases unmapObject_cases id address size memory s with ⟨e, hrun⟩ | ⟨m, space, hunmap, hrun⟩ <;> rw [hrun]
  · exact hg
  · refine hg.unmapped ((Remaps.setSpace hid space).setTransferMemory memory _) hunmap ?_
    exact .set (·.filter (· ≠ (id, address))) hb (transferMemories_setSpace s id space) rfl rfl rfl

/-- With another permission for transfer memory its mappings get it as well. -/
theorem protectTransfer_granted (hg : Granted s) (hmemory : s.has (.transferMemory memory) = true) (permission : Permission) :
    Granted ((protectTransfer memory permission).run s).2 := by
  rcases protectTransfer_cases memory permission s with ⟨-, hrun⟩ | ⟨t, -, hrun, ht⟩ <;> rw [hrun]
  · exact hg
  · exact (hg.protect (Records.getElem?_of_contains hmemory default) ht).2

/-! ## Calls -/

/-- The calls that make, map, unmap and protect memory objects. -/
def HostCall.isAboutObjects : HostCall → Bool
  | newSharedMemory _ _ _ _ | mapShared _ _ _ _ _ | unmapShared _ _ _ _ | lendHeap _ _ _ _ | mapTransfer _ _ _ _ _
  | unmapTransfer _ _ _ _ | protectTransfer _ _ => true
  | _ => false

/-- All other calls leave memory objects and their mappings alone. -/
theorem HostCall.run_steady (h : Orderly x s) {call : HostCall} (hobjects : call.objects.all s.has = true)
    (hcall : call.isAboutObjects = false) : Steady (s.nextId ≤ ·) s (call.run x.kernel s).2 := by
  have hfirst {process : RecordId} {rest : List KernelObject} (heq : call.objects = .process process :: rest) :
      s.has (.process process) = true := List.all_eq_true.1 hobjects _ (heq ▸ List.mem_cons_self)
  have hfor {process : RecordId} {t : Machine} (hid : s.has (.process process) = true) (hs : Steady (process = ·) s t) :
      Steady (s.nextId ≤ ·) s t := hs.of_known fun _ heq => heq ▸ hid
  cases call with
  | start call =>
    have hs := StartCall.start_steady { call with body := .guest } x.kernel h.process_nextId
    refine ⟨hs.nextId, hs.process, hs.objects.sharedMemories, hs.objects.transferMemories, fun id hid => ?_⟩
    exact (hs.objects.process id hid).imp_right fun heq => Nat.le_of_eq heq.symm
  | addThread process priority => exact hfor (hfirst rfl) (addThread_steady x.kernel rfl priority s)
  | newEvent mode => exact .of_eq (Nat.le_succ _) rfl rfl rfl
  | generateHandle process object => exact hfor (hfirst rfl) (generateHandle_steady rfl object s)
  | closeHandle process handle => exact hfor (hfirst rfl) (closeHandle_steady rfl handle s)
  | allocateHeap process size permission => exact hfor (hfirst rfl) (allocateHeap_steady rfl size permission s)
  | terminate process => exact (terminateProcess_steady h (hfirst rfl) none).of_known fun _ hid => nomatch hid
  | reap => exact .of_eq (Nat.le_refl _) rfl rfl rfl
  | _ => cases hcall

/-- Mappings and objects stay in agreement, whatever a host asks for. -/
theorem HostCall.perform_granted (h : Orderly x s) (hg : Granted s) (call : HostCall) : Granted (call.perform x.kernel s).2 := by
  rw [perform, Update.run_look]
  split
  · next hobjects =>
    have hhas := List.all_eq_true.1 hobjects
    have hfirst {o : KernelObject} {rest : List KernelObject} (heq : call.objects = o :: rest) : s.has o = true :=
      hhas o (heq ▸ List.mem_cons_self)
    have hsecond {o o' : KernelObject} {rest : List KernelObject} (heq : call.objects = o :: o' :: rest) : s.has o' = true :=
      hhas o' (heq ▸ List.mem_cons_of_mem _ List.mem_cons_self)
    cases call with
    | newSharedMemory region size ownerPermission userPermission =>
      exact newSharedMemory_granted h hg region size ownerPermission userPermission
    | mapShared memory process address size asked => exact mapShared_granted h hg (hfirst rfl) (hsecond rfl) address size asked
    | unmapShared memory process address size => exact unmapShared_granted hg (hfirst rfl) (hsecond rfl) address size
    | lendHeap process address size permission => exact lendHeap_granted h hg process address size permission
    | mapTransfer memory process address size asked => exact mapTransfer_granted h hg (hfirst rfl) (hsecond rfl) address size asked
    | unmapTransfer memory process address size => exact unmapTransfer_granted hg (hfirst rfl) (hsecond rfl) address size
    | protectTransfer memory permission => exact protectTransfer_granted hg (hfirst rfl) permission
    | _ => exact hg.steady (run_steady h hobjects rfl)
  · exact hg

/-! ## Rest -/

/-- Some processes and memory objects have been dropped. -/
structure Sheds (s t : Machine) : Prop where
  nextId : t.nextId = s.nextId
  process : ∀ id, t.process id = s.process id ∨ t.process id = default
  kept : ∀ id, t.processes.contains id = true → s.processes.contains id = true ∧ t.process id = s.process id
  shared : ∀ (i : RecordId) b, t.sharedMemories[i]? = some b → s.sharedMemories[i]? = some b
  transfer : ∀ (i : RecordId) b, t.transferMemories[i]? = some b → s.transferMemories[i]? = some b

/-- A sweep only drops processes and objects. -/
theorem sweep_sheds (h : Orderly x s) : Sheds s (sweep s).2 := by
  obtain ⟨kernels, allocations, hrest⟩ := freed_rest (dead (.ofList s.references) s.allocations) s
  rw [h.simple.bare.sweep_run, hrest]
  generalize Std.TreeSet.ofList s.references = live
  have hprocess (id : RecordId) : (dropDead live s { s with kernels, allocations }).process id =
      if live.contains id || !s.processes.contains id then s.process id else default := getD_kept _
  refine ⟨rfl, fun id => ?_, fun id hid => ?_, fun _ _ => getElem?_kept_of_some, fun _ _ => getElem?_kept_of_some⟩
  · rw [hprocess]
    split
    · exact .inl rfl
    · exact .inr rfl
  · obtain ⟨hold, hlive⟩ := contains_kept hid
    refine ⟨hold, (hprocess id).trans (if_pos ?_)⟩
    rw [hlive hold, Bool.true_or]

/-- Dropping keeps mappings and objects in agreement. -/
theorem Granted.sheds (hg : Granted s) (h : Sheds s t) : Granted t := by
  have hmem {id : RecordId} {m : Mapping} (hm : m ∈ (t.process id).space.mappings) : m ∈ (s.process id).space.mappings := by
    rcases h.process id with hsame | hgone
    · exact hsame ▸ hm
    · rw [hgone] at hm
      cases hm
  constructor
  case ordered =>
    intro id
    rcases h.process id with hsame | hgone
    · exact hsame ▸ hg.ordered id
    · exact hgone ▸ AddressSpace.ordered_empty
  case ended =>
    intro id hended
    rcases h.process id with hsame | hgone
    · exact hsame ▸ hg.ended id (hsame ▸ hended)
    · rw [hgone] at hended
      cases hended
  case shared => exact fun id m hm i b ho hb => hg.shared id m (hmem hm) i b ho (h.shared i b hb)
  case transfer => exact fun id m hm i b ho hb => hg.transfer id m (hmem hm) i b ho (h.transfer i b hb)
  case listed =>
    intro i b hb id address ht
    obtain ⟨hold, hsame⟩ := h.kept id ht.1
    have hs : s.Retains id := ⟨hold, hsame ▸ ht.2⟩
    unfold IsMapped
    rw [hsame]
    exact hg.listed i b (h.transfer i b hb) id address hs
  case once => exact fun i b hb => hg.once i b (h.transfer i b hb)
  case old => exact fun i b hb e he => h.nextId ▸ hg.old i b (h.transfer i b hb) e he
  case oldObject => exact fun id m hm i ho => h.nextId ▸ hg.oldObject id m (hmem hm) i ho
  case apart =>
    intro i b hb
    cases ht : t.transferMemories[i]? with
    | none => rfl
    | some c => cases (hg.apart i b (h.shared i b hb)).symm.trans (h.transfer i c ht)

/-- Mappings and objects stay in agreement while a machine comes to rest. -/
theorem quiesce_granted (h : Orderly x s) (hg : Granted s) : Granted (quiesce s).2 := by
  suffices hfor : ∀ fuel {s : Machine}, Orderly x s → Granted s → Granted (quiesceFor fuel s).2 from hfor _ h hg
  intro fuel
  induction fuel with
  | zero => exact fun _ hg => hg
  | succ fuel ih =>
    intro s h hg
    have hsettled : Orderly x (settle s).2 := h.of_calm (settle_calm x.kernel s) fun _ ho => nomatch ho
    have hg : Granted (settle s).2 := hg.steady ((settle_steady h).of_known fun _ hid => nomatch hid)
    have hswept : Granted (sweep (settle s).2).2 := hg.sheds (sweep_sheds hsettled)
    rw [quiesceFor, Update.run_bind, Update.run_bind]
    split
    · exact ih (sweep_orderly hsettled) hswept
    · exact hswept

end Machine

end Microkernel
