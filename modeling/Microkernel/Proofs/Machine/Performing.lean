import Microkernel.Proofs.Machine.Upkeep
import Microkernel.Proofs.Memory.Shown

/-!
# Calls keep a machine orderly

Whatever a host asks for, an orderly machine stays orderly (`HostCall.perform_orderly`). A call makes a process, adds one object or
one mapping of pages whose allocations exist, or makes the machine subside.
-/

namespace Microkernel.Machine

variable {x : Setup} {s t : Machine} {id : RecordId}

/-! ## Threads -/

/-- A thread more takes pages for its own, clears them, and touches no object. -/
theorem addThread_orderly (h : Orderly x s) (hid : s.has (.process id) = true) (priority : Nat) :
    Orderly x ((addThread x.kernel id priority).run s).2 ∧ Untouched x s ((addThread x.kernel id priority).run s).2 := by
  obtain ⟨htaken, hid, -, htake⟩ := (takeThreadId_calm x.kernel s).builds rfl rfl h hid
  obtain ⟨hbuilds, hthread⟩ := createThread_builds (x := x) id (takeThreadId x.kernel s).1 priority .guest (takeThreadId x.kernel s).2
  obtain ⟨hcreated, -, -, hspares⟩ := hbuilds htaken hid
  rw [addThread, Action.run_lift_bind, Action.run_bind]
  rcases hrun : (createThread id (takeThreadId x.kernel s).1 priority .guest .guest).run (takeThreadId x.kernel s).2 with
    ⟨e | thread, t⟩ <;> rw [hrun] at hcreated hthread hspares
  · exact ⟨hcreated, htake.untouched hspares.bytes⟩
  · have hcalm : Calm x.kernel (.thread thread = ·) t (startThread thread t).2 := startThread_calm rfl t
    have hsub := (hcalm hcreated.simple fun o ho => ho ▸ hthread thread rfl).1
    refine ⟨hcreated.of_calm_for hcalm (hthread thread rfl), htake.untouched (hspares.untouched (.of_memory ?_))⟩
    exact (hsub.kernel x.kernel).memory

/-! ## Objects -/

/-- A new object, which has pages of allocations that exist or no pages. -/
theorem addObject_orderly (h : Orderly x s) {events : Records Event} {sharedMemories : Records SharedMemory}
    {transferMemories : Records TransferMemory}
    (ht : t = { s with nextId := s.nextId + 1, events, sharedMemories, transferMemories })
    (hobject : ∀ o, t.has o = true → s.has o = true ∨ o.id = s.nextId)
    (hshared : ∀ (i : RecordId) m, sharedMemories[i]? = some m → s.sharedMemories[i]? = some m ∨ s.Secured m.pages [m.allocation])
    (htransfer : ∀ (i : RecordId) m, transferMemories[i]? = some m → s.transferMemories[i]? = some m ∨ s.Secured m.pages m.backing) :
    Orderly x t := by
  subst ht
  constructor
  case stocked => exact h.stocked.of_same (Nat.le_succ _) (fun _ => rfl) (fun _ => rfl) (fun hc => hc) rfl
  case backed => exact h.backed.add rfl (fun _ => rfl) hshared htransfer
  case numbered =>
    refine h.numbered.grow (Nat.le_succ _) (fun _ hid => hid.2) (fun o ho => (hobject o ho).imp_right fun heq => ?_)
      (fun _ _ _ hm => .inl hm) (fun _ _ ho => .inl ho) (fun _ ho => .inl ⟨ho, rfl⟩) fun _ hid => .inl hid
    rw [heq]
    exact ⟨Nat.lt_succ_self _, h.stocked.fresh⟩
  case simple => exact ⟨h.simple.thread, h.simple.object, h.simple.threadOf, h.simple.kernelOf, h.simple.bare⟩

/-- A new event takes a number and no pages. -/
theorem newEvent_orderly (h : Orderly x s) (mode : ResetMode) : Orderly x (newEvent mode s).2 := by
  refine addObject_orderly h rfl (fun o ho => ?_) (fun _ _ hm => .inl hm) fun _ _ hm => .inl hm
  cases o
  case event i => exact ((Records.contains_insert _ _ _ _).1 ho).symm
  all_goals exact .inl ho

/-- Shared memory is made of pages that were free. -/
theorem newSharedMemory_orderly (h : Orderly x s) (kind : RegionKind) (size : Nat) (ownerPermission userPermission : Permission) :
    Orderly x ((newSharedMemory x.kernel kind size ownerPermission userPermission).run s).2 := by
  unfold newSharedMemory wholePages
  split
  · next size' _ =>
    rw [Action.run_bind, Action.run_pure]
    dsimp only
    rw [Action.run_bind]
    rcases allocatePages_cases h kind (size' / pageSize) with ⟨e, t, hrun, ht, -⟩ | ⟨pages, t, hrun, hd⟩
    · rw [hrun]
      exact ht
    · rw [hrun]
      refine addObject_orderly hd.orderly rfl (fun o ho => ?_) (fun i m hm => ?_) fun _ _ hm => .inl hm
      · cases o
        case sharedMemory i => exact ((Records.contains_insert _ _ _ _).1 ho).symm
        all_goals exact .inl ho
      · have hm := (Records.getElem?_insert _ _ _ _).symm.trans hm
        split at hm
        · obtain rfl := Option.some.inj hm
          exact .inr hd.secured
        · exact .inl hm
  · exact h

/-- What a process has pages of, it can lend: the allocations are lent with the pages. -/
theorem lendHeap_orderly (h : Orderly x s) (id : RecordId) (address size : Nat) (permission : Permission) :
    Orderly x ((lendHeap id address size permission).run s).2 := by
  unfold lendHeap
  split
  · exact h
  · rw [Action.run_look, Action.run_except_bind]
    cases hcapture : (s.process id).space.capture address size with
    | error e => exact h
    | ok result =>
      have hc := AddressSpace.capture_captures (h.backed.paged id) hcapture
      refine addObject_orderly h rfl (fun o ho => ?_) (fun _ _ hm => .inl hm) fun i m hm => ?_
      · cases o
        case transferMemory i => exact ((Records.contains_insert _ _ _ _).1 ho).symm
        all_goals exact .inl ho
      · have hm := (Records.getElem?_insert _ _ _ _).symm.trans hm
        split at hm
        · obtain rfl := Option.some.inj hm
          refine .inr ⟨⟨fun a ha => ?_, fun page hp => ?_⟩, ?_⟩
          · obtain ⟨m, hm, ham⟩ := (hc.backing a ha).resolve_left List.not_mem_nil
            exact (h.backed.covered _ _ (.mapping hm)).1 a ham
          · obtain ⟨m, hm, hpm, hkept⟩ := (hc.pages page hp).resolve_left List.not_mem_nil
            obtain ⟨a, ha, hrest⟩ := (h.backed.covered _ _ (.mapping hm)).2 page hpm
            exact ⟨a, hkept a ha, hrest⟩
          · refine (AddressSpace.capture_chain (h.backed.paged id) hcapture).1.nodup
              (fun m hm _ => (h.backed.secured _ _ (.mapping hm)).once) fun m hm m' hm' hstate hstate' place hp hp' => ?_
            obtain ⟨permission, rfl⟩ := h.heap_eq hm hm' hstate hstate' hp hp'
            rfl
        · exact .inl hm

/-! ## Handles -/

/-- A process gets a handle of an object, or a refusal is told. -/
theorem generateHandle_cases (id : RecordId) (object : KernelObject) (s : Machine) :
    (∃ e journal, (generateHandle id object).run s = (.error e, { s with journal })) ∨
    ∃ handle handles, (s.process id).handles.generate object = .ok (handle, handles) ∧
      (generateHandle id object).run s = (.ok handle, (handleOpened object (setProcess id { s.process id with handles } s).2).2) := by
  rw [generateHandle, Action.run_look]
  dsimp only
  cases hg : (s.process id).handles.generate object with
  | ok result => exact .inr ⟨result.1, result.2, rfl, rfl⟩
  | error e =>
    left
    cases e with
    | outOfHandles capacity => exact ⟨_, _, rfl⟩
    | _ => exact ⟨_, s.journal, rfl⟩

/-- A handle keeps alive what it names, which is there. -/
theorem generateHandle_orderly (h : Orderly x s) (hid : s.has (.process id) = true) {object : KernelObject}
    (hobject : s.has object = true) : Orderly x ((generateHandle id object).run s).2 := by
  rcases generateHandle_cases id object s with ⟨e, journal, hrun⟩ | ⟨handle, handles, hok, hrun⟩
  · rw [hrun]
    exact h.of_subsides (.told s journal s.wakeUps s.handleCounts) h.simple.threadOf
  · rw [hrun]
    let p : Process := { s.process id with handles }
    have hp : Orderly x (setProcess id p s).2 := by
      refine h.setProcess default hid rfl rfl (fun o ho => ?_) fun m hm => .inl hm
      rcases (HandleTable.generate_ok hok).1 o ho with rfl | hold
      · exact .inr hobject
      · exact .inl hold
    exact hp.of_subsides (.told _ (setProcess id p s).2.journal (setProcess id p s).2.wakeUps _) hp.simple.threadOf

/-! ## Memory objects -/

/-- Pages of an object are mapped into a process that is not terminating, or nothing happens. -/
theorem mapObject_cases (id : RecordId) (address size : Nat) (m : Mapping) (s : Machine) :
    (∃ e, (mapObject id address size m).run s = (.error e, s)) ∨
    ∃ address' space, (s.process id).state.isTerminating = false ∧
      (s.process id).space.map { m with address := address' } = .ok space ∧
      (mapObject id address size m).run s = (.ok address', (setSpace id space s).2) := by
  have hlast (address' : Nat) : (∃ e, ExceptT.run (do
        let space ← (s.process id).space.map { m with address := address' }
        setSpace id space
        return address' : Action Nat) s = (.error e, s)) ∨
      ∃ space, (s.process id).space.map { m with address := address' } = .ok space ∧ ExceptT.run (do
        let space ← (s.process id).space.map { m with address := address' }
        setSpace id space
        return address' : Action Nat) s = (.ok address', (setSpace id space s).2) := by
    rw [Action.run_except_bind]
    cases (s.process id).space.map { m with address := address' } with
    | error e => exact .inl ⟨e, rfl⟩
    | ok space => exact .inr ⟨space, rfl, rfl⟩
  rw [mapObject, Action.run_look]
  dsimp only
  split
  · exact .inl ⟨_, rfl⟩
  · next hstate =>
    rw [Bool.not_eq_true] at hstate
    split
    · rw [Action.run_except_bind]
      cases (s.process id).space.findFree aliasBase aliasSize size with
      | error e => exact .inl ⟨e, rfl⟩
      | ok address' => exact (hlast address').imp_right fun ⟨space, hmap, hrun⟩ => ⟨address', space, hstate, hmap, hrun⟩
    · exact (hlast address).imp_right fun ⟨space, hmap, hrun⟩ => ⟨address, space, hstate, hmap, hrun⟩

/-- Mapping pages whose allocations exist for an object. -/
theorem mapObject_orderly (h : Orderly x s) (hid : s.has (.process id) = true) (address size : Nat) {m : Mapping}
    (hobject : m.object ≠ none) (hstate : m.state ≠ .normal) (hsize : m.size = m.pages.size)
    (hsecured : s.Secured m.pages m.backing) :
    Orderly x ((mapObject id address size m).run s).2 := by
  rcases mapObject_cases id address size m s with ⟨e, hrun⟩ | ⟨address', space, -, hmap, hrun⟩
  · rw [hrun]
    exact h
  · rw [hrun]
    exact h.map hid hmap hsize hsecured (fun hnormal => absurd hnormal hstate) fun hnone => absurd hnone hobject

/-- Mapping shared memory fails and changes nothing, or adds one mapping of its pages. -/
theorem mapShared_cases (memory process address size : Nat) (asked : Permission) (s : Machine) :
    (∃ e, (mapShared memory process address size asked).run s = (.error e, s)) ∨
    ∃ permission, permission.isSubsetOf (s.sharedMemory memory).userPermission = true ∧
      (mapShared memory process address size asked).run s = (mapObject process address size
        { Mapping.ofPages address (s.sharedMemory memory).pages permission .shared with
          object := some memory, backing := [(s.sharedMemory memory).allocation] }).run s := by
  rw [mapShared, Action.run_look]
  dsimp only
  split
  · exact .inl ⟨_, rfl⟩
  · next hgranted =>
    rw [Bool.not_eq_true', Bool.not_eq_false] at hgranted
    split
    · exact .inl ⟨_, rfl⟩
    · exact .inr ⟨_, hgranted, rfl⟩

/-- Mapping shared memory lets one more mapping have pages that the object keeps. -/
theorem mapShared_orderly (h : Orderly x s) {memory : RecordId} (hmemory : s.has (.sharedMemory memory) = true)
    (hid : s.has (.process id) = true) (address size : Nat) (asked : Permission) :
    Orderly x ((mapShared memory id address size asked).run s).2 := by
  rcases mapShared_cases memory id address size asked s with ⟨e, hrun⟩ | ⟨permission, -, hrun⟩
  · rw [hrun]
    exact h
  · rw [hrun]
    exact mapObject_orderly h hid address size (by simp) (by simp [Mapping.ofPages]) rfl
      (h.backed.secured _ _ (.shared (Records.getElem?_of_contains hmemory default)))

/-- Transfer memory that is mapped elsewhere, or with another permission, has the same pages. -/
theorem setTransferMemory_calm {kernel : RecordId} {known : KernelObject → Prop} {i : RecordId} {m : TransferMemory}
    (hi : known (.transferMemory i)) (hpages : m.pages = (s.transferMemory i).pages)
    (hbacking : m.backing = (s.transferMemory i).backing) :
    Calm kernel known s (setTransferMemory i m s).2 := by
  have hhas {o : KernelObject} (ho : s.has o = true) : (setTransferMemory i m s).2.has o = true := by
    cases o
    case transferMemory other => exact (Records.contains_insert _ _ _ _).2 (.inr ho)
    all_goals exact ho
  refine .of_subsides (fun _ hk => ?_) fun _ => hhas
  have hsame := refl (r := Subsides) s
  exact
    { nextId := rfl, allocation := hsame.allocation, kernel := hsame.kernel, process := hsame.process, thread := hsame.thread
      object := fun o ho => by
        cases o
        case transferMemory other =>
          rcases (Records.contains_insert _ _ _ _).1 ho with heq | ho
          · exact heq ▸ hk _ hi
          · exact ho
        all_goals exact ho
      kernelOf := hsame.kernelOf, processOf := hsame.processOf, shared := hsame.shared
      transfer := fun other m' hm' => by
        have hlook := (Records.getElem?_insert _ _ _ _).symm.trans hm'
        split at hlook
        · next heq =>
          obtain rfl := Option.some.inj hlook
          have hold := Records.getElem?_of_contains (hk _ hi) default
          exact ⟨_, heq ▸ hold, hpages, hbacking⟩
        · exact ⟨m', hlook, rfl, rfl⟩
      held := hsame.held, bare := fun h => h }

/-- Mapping transfer memory fails and changes nothing, or adds one mapping and lists it. -/
theorem mapTransfer_cases (memory process address size : Nat) (asked : Permission) (s : Machine) :
    (∃ e, (mapTransfer memory process address size asked).run s = (.error e, s)) ∨
    ∃ permission, permission.isSubsetOf (s.transferMemory memory).permission = true ∧
      (mapTransfer memory process address size asked).run s = ExceptT.run (do
        let address ← mapObject process address size
          { Mapping.ofPages address (s.transferMemory memory).pages permission .transfer with
            object := some memory, backing := (s.transferMemory memory).backing }
        setTransferMemory memory { s.transferMemory memory with
          mappings := (s.transferMemory memory).mappings ++ [(process, address)] }
        return address : Action Nat) s := by
  rw [mapTransfer, Action.run_look]
  dsimp only
  split
  · exact .inl ⟨_, rfl⟩
  · next hgranted =>
    rw [Bool.not_eq_true', Bool.not_eq_false] at hgranted
    split
    · exact .inl ⟨_, rfl⟩
    · exact .inr ⟨_, hgranted, rfl⟩

/-- Mapping transfer memory lets one more mapping have pages that the object keeps. -/
theorem mapTransfer_orderly (h : Orderly x s) {memory : RecordId} (hmemory : s.has (.transferMemory memory) = true)
    (hid : s.has (.process id) = true) (address size : Nat) (asked : Permission) :
    Orderly x ((mapTransfer memory id address size asked).run s).2 := by
  rcases mapTransfer_cases memory id address size asked s with ⟨e, hrun⟩ | ⟨permission, -, hrun⟩
  · rw [hrun]
    exact h
  · rw [hrun, Action.run_bind]
    let m : Mapping := { Mapping.ofPages address (s.transferMemory memory).pages permission .transfer with
      object := some memory, backing := (s.transferMemory memory).backing }
    have hmapped : Orderly x ((mapObject id address size m).run s).2 :=
      mapObject_orderly h hid address size (by simp [m]) (by simp [m, Mapping.ofPages]) rfl
        (h.backed.secured _ _ (.transfer (Records.getElem?_of_contains hmemory default)))
    rcases mapObject_cases id address size m s with ⟨e, hrun⟩ | ⟨address', space, -, -, hrun⟩
    · rw [hrun]
      exact h
    · rw [hrun] at hmapped ⊢
      exact hmapped.of_calm_for (setTransferMemory_calm rfl rfl rfl) hmemory

section

variable {kernel : RecordId} {known : KernelObject → Prop}

/-- Unmapping transfer memory takes nobody's pages but those of the mapping. -/
theorem unmapTransfer_calm {memory : RecordId} (hmemory : known (.transferMemory memory)) (hid : known (.process id))
    (address size : Nat) : Keeps (Calm kernel known) (unmapTransfer memory id address size).run :=
  .run_bind (unmapObject_calm hid address size memory) fun _ => fun _ => setTransferMemory_calm hmemory rfl rfl

/-- Another permission for transfer memory changes nobody's pages. -/
theorem protectTransfer_calm {memory : RecordId} (hmemory : known (.transferMemory memory)) (permission : Permission) :
    Keeps (Calm kernel known) (protectTransfer memory permission).run := by
  unfold protectTransfer
  split
  · exact .run_throw_bind _ _
  · intro s
    rw [Action.run_look, Action.run_lift_bind]
    have hset : Calm kernel known s (setTransferMemory memory { s.transferMemory memory with
        permission, mappings := (s.transferMemory memory).mappings.filter fun m => s.processes.contains m.1 } s).2 :=
      setTransferMemory_calm hmemory rfl rfl
    refine IsTrans.trans _ _ _ hset ?_
    have hone (m : RecordId × Nat) : Keeps (Calm kernel known) (Action.forget (setMappingPermission m.1 m.2 permission)) :=
      .forget (setMappingPermission_calm m.1 m.2 permission)
    refine (Keeps.run_bind (.run_forIn fun m _ => ?_) fun _ => .run_pure _) _
    exact .run_bind (.run_lift (hone m)) fun _ => .run_pure _

end

/-! ## Calls -/

/-- An orderly machine stays orderly, whatever it is asked for. -/
theorem HostCall.perform_orderly (h : Orderly x s) (call : HostCall) : Orderly x (call.perform x.kernel s).2 := by
  have hk : ∀ o : KernelObject, s.has o = true → s.has o = true := fun _ ho => ho
  rw [perform, Update.run_look]
  split
  · next hobjects =>
    rw [List.all_eq_true] at hobjects
    have hfirst {o : KernelObject} {rest : List KernelObject} (heq : call.objects = o :: rest) : s.has o = true :=
      hobjects o (heq ▸ List.mem_cons_self)
    have hsecond {o o' : KernelObject} {rest : List KernelObject} (heq : call.objects = o :: o' :: rest) : s.has o' = true :=
      hobjects o' (heq ▸ List.mem_cons_of_mem _ List.mem_cons_self)
    cases call with
    | start call => exact (StartCall.start_orderly _ rfl h).1
    | addThread process priority => exact (addThread_orderly h (hfirst rfl) priority).1
    | newEvent mode => exact newEvent_orderly h mode
    | generateHandle process object => exact generateHandle_orderly h (hfirst rfl) (hsecond rfl)
    | closeHandle process handle => exact h.of_calm (closeHandle_calm (hfirst rfl) handle s) hk
    | allocateHeap process size permission => exact (allocateHeap_builds process size permission s h (hfirst rfl)).1
    | newSharedMemory region size ownerPermission userPermission =>
      exact newSharedMemory_orderly h region size ownerPermission userPermission
    | mapShared memory process address size asked => exact mapShared_orderly h (hfirst rfl) (hsecond rfl) address size asked
    | unmapShared memory process address size => exact h.of_calm (unmapObject_calm (hsecond rfl) address size memory s) hk
    | lendHeap process address size permission => exact lendHeap_orderly h process address size permission
    | mapTransfer memory process address size asked => exact mapTransfer_orderly h (hfirst rfl) (hsecond rfl) address size asked
    | unmapTransfer memory process address size => exact h.of_calm (unmapTransfer_calm (hfirst rfl) (hsecond rfl) address size s) hk
    | protectTransfer memory permission => exact h.of_calm (protectTransfer_calm (hfirst rfl) permission s) hk
    | terminate process =>
      exact h.of_calm (terminateProcess_calm (hfirst rfl) none fun th hth => h.simple.threadOf process th hth) hk
    | reap => exact h.of_calm (reapTerminated_calm x.kernel s) hk
  · exact h

end Microkernel.Machine
