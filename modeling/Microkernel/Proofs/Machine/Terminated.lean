import Microkernel.Proofs.Machine.PhysicalPages
import Microkernel.Proofs.Machine.ProcessIds

/-!
# Terminated processes

The end of a termination takes all handles and mappings from a process. Nothing but two calls gives any to a terminated process: a new
handle and heap memory are given without a look at the state. Without such a call, terminated processes hold nothing in any state that
a run comes to (`drained_iff`).
-/

namespace Microkernel

/-- The process to which a call gives a handle or heap memory. -/
def Machine.HostCall.receiver? : HostCall → Option RecordId
  | generateHandle process _ => some process
  | allocateHeap process _ _ => some process
  | _ => none

namespace Machine

/-- A call succeeds in giving a terminated process something. -/
def HostCall.IsLate (call : HostCall) (kernel : RecordId) (s : Machine) : Prop :=
  ∃ id, call.receiver? = some id ∧ (s.process id).state = .terminated ∧ (call.perform kernel s).1 = true

/-- Terminated processes have no handle and no mapping. -/
def Drained (s : Machine) : Prop := ∀ id, (s.process id).Drained

variable {x : Setup} {s t : Machine} {id : RecordId}

/-! ## What keeps processes drained -/

/-- A machine that subsides from a drained one is drained. -/
theorem Drained.of_subsides (hd : s.Drained) (h : Subsides s t) : t.Drained := fun id => (h.process id).drained (hd id)

/-- Whether a machine is drained depends on its processes alone. -/
theorem Drained.of_processes (hd : s.Drained) (h : t.processes = s.processes) : t.Drained := by
  intro id
  rw [process, h]
  exact hd id

/-- Whatever is given to a process that is not terminated. -/
theorem Drained.of_only (hd : s.Drained) (h : Frame (Only id) s t) (hlive : (s.process id).state ≠ .terminated) : t.Drained := by
  intro other
  by_cases heq : other = id
  · subst heq
    exact fun hstate => absurd ((h.process other).2.2.1 hstate) hlive
  · rw [(h.process other).1 heq]
    exact hd other

/-- Where no process changes, a drained machine stays drained. -/
theorem Drained.of_unchanged (hd : s.Drained) (h : Frame Unchanged s t) : t.Drained := by
  intro id
  rw [h.process id]
  exact hd id

/-! ## Calls -/

/-- A process that is dropped is no longer there. -/
theorem discardProcess_drained (hd : s.Drained) : (discardProcess id s).2.Drained := by
  refine Drained.of_processes (s := { s with processes := s.processes.erase id }) (fun other => ?_) ?_
  · refine (congrArg Process.Drained (Records.getD_erase s.processes id other default)).mpr ?_
    split
    · exact fun hstate => nomatch hstate
    · exact hd other
  · rw [discardProcess_run, processes_freed]

/-- A start leaves terminated processes drained: the new one is not terminated. -/
theorem StartCall.start_drained (c : StartCall) (kernel : RecordId) (hd : s.Drained) : ((c.start kernel).run s).2.Drained := by
  cases ha : c.admitted? (s.kernel kernel) with
  | none =>
    obtain ⟨e, journal, hrun⟩ := start_of_refused ha
    rw [hrun]
    exact hd.of_processes rfl
  | some capabilities =>
    obtain ⟨hnext, hcreates⟩ :=
      createProcess_creates kernel c.creation.name c.creation.programId.toNat c.creation.flags capabilities s
    have hcreated : ((c.create kernel capabilities s).2.process s.nextId).state ≠ .terminated := by
      rw [create, hcreates.state]
      decide
    have hdrained : (c.create kernel capabilities s).2.Drained := by
      intro other
      by_cases heq : other = s.nextId
      · exact fun hstate => absurd (heq ▸ hstate) hcreated
      · rw [create, hcreates.process other heq]
        exact hd other
    have hequip := c.equip_frame kernel s.nextId (c.create kernel capabilities s).2
    rw [start_of_admitted ha, show (c.create kernel capabilities s).1 = s.nextId from hnext, makeThread, Action.run_tryCatch]
    rcases hrun : (c.equip kernel s.nextId).run (c.create kernel capabilities s).2 with ⟨e | thread, t⟩ <;> rw [hrun] at hequip
    · exact discardProcess_drained (hdrained.of_only hequip hcreated)
    · have hlive : (t.process s.nextId).state ≠ .terminated := fun hstate => hcreated ((hequip.process s.nextId).2.2.1 hstate)
      obtain ⟨_, _, henter⟩ := c.enter_frame kernel s.nextId thread t
      have ht : t.Drained := hdrained.of_only hequip hcreated
      change (c.enter kernel s.nextId thread t).2.Drained
      refine Drained.of_only ?_ henter hlive
      exact ht.of_processes rfl

/-- Who is not even terminating is not terminated. -/
theorem not_terminated {state : ProcessState} (h : state.isTerminating = false) : state ≠ .terminated := by
  rintro rfl
  cases h

/-- A thread more is given to a process that is not terminated, or to none. -/
theorem addThread_drained (hd : s.Drained) (kernel : RecordId) (priority : Nat) :
    ((addThread kernel id priority).run s).2.Drained := by
  have hd := hd.of_unchanged (takeThreadId_frame kernel s)
  rw [addThread, Action.run_lift_bind, Action.run_bind]
  generalize (takeThreadId kernel s).1 = threadId
  generalize (takeThreadId kernel s).2 = s at hd ⊢
  have hcreate := createThread_frame id threadId priority .guest .guest s
  rcases createThread_run id threadId priority .guest .guest s with ⟨e, hrun⟩ | ⟨hstate, -⟩
  · rw [hrun]
    exact hd
  · have hd := hd.of_only hcreate (not_terminated hstate)
    rcases hrun : (createThread id threadId priority .guest .guest).run s with ⟨e | thread, t⟩ <;> rw [hrun] at hd
    · exact hd
    · exact hd.of_unchanged (startThread_frame thread t)

/-- Objects are mapped only into processes that are not terminated. -/
theorem mapObject_drained (hd : s.Drained) (address size : Nat) (m : Mapping) : ((mapObject id address size m).run s).2.Drained := by
  rcases mapObject_cases id address size m s with ⟨e, hrun⟩ | ⟨address', space, hstate, -, hrun⟩ <;> rw [hrun]
  · exact hd
  · exact hd.of_only (setSpace_frame id space s) (not_terminated hstate)

/-- Mapping shared memory leaves terminated processes drained. -/
theorem mapShared_drained (hd : s.Drained) (memory address size : Nat) (asked : Permission) :
    ((mapShared memory id address size asked).run s).2.Drained := by
  rcases mapShared_cases memory id address size asked s with ⟨e, hrun⟩ | ⟨permission, -, hrun⟩ <;> rw [hrun]
  · exact hd
  · exact mapObject_drained hd _ _ _

/-- Mapping transfer memory leaves terminated processes drained. -/
theorem mapTransfer_drained (hd : s.Drained) (memory address size : Nat) (asked : Permission) :
    ((mapTransfer memory id address size asked).run s).2.Drained := by
  rcases mapTransfer_cases memory id address size asked s with ⟨e, hrun⟩ | ⟨permission, -, hrun⟩ <;> rw [hrun]
  · exact hd
  · rw [Action.run_bind]
    have hd : ((mapObject id address size _).run s).2.Drained := mapObject_drained hd address size
      { Mapping.ofPages address (s.transferMemory memory).pages permission .transfer with
        object := some memory, backing := (s.transferMemory memory).backing }
    split
    · next heq =>
      rw [heq] at hd
      exact hd.of_processes rfl
    · next heq =>
      rw [heq] at hd
      exact hd

/-- Objects that are made change no process. -/
theorem newSharedMemory_drained (hd : s.Drained) (kernel : RecordId) (kind : RegionKind) (size : Nat)
    (ownerPermission userPermission : Permission) :
    ((newSharedMemory kernel kind size ownerPermission userPermission).run s).2.Drained := by
  have hnew : Keeps (Frame Unchanged) (newSharedMemory kernel kind size ownerPermission userPermission).run := by
    refine .run_bind (wholePages_keeps size) fun size => .run_bind (allocatePages_frame kernel kind _) fun taken => ?_
    refine .run_bind (.run_lift freshId_frame) fun id => .run_bind (.run_lift ?_) fun _ => .run_pure _
    exact Keeps.modify fun _ => .of_eq (Nat.le_refl _) rfl rfl
  exact hd.of_unchanged (hnew s)

/-- Lending heap memory maps nothing, and so leaves terminated processes drained. -/
theorem lendHeap_drained (hd : s.Drained) (address size : Nat) (permission : Permission) :
    ((lendHeap id address size permission).run s).2.Drained := by
  unfold lendHeap
  split
  · exact hd
  · rw [Action.run_look, Action.run_except_bind]
    cases (s.process id).space.capture address size with
    | error e => exact hd
    | ok result => exact hd.of_processes rfl

/-! ### Calls that may be late -/

/-- A handle leaves terminated processes drained unless it succeeds for one of them. -/
theorem generateHandle_drained (hd : s.Drained) {object : KernelObject}
    (hlate : (s.process id).state = .terminated → ((generateHandle id object).run s).1.isOk = false) :
    ((generateHandle id object).run s).2.Drained := by
  rcases generateHandle_cases id object s with ⟨e, journal, hrun⟩ | ⟨handle, handles, -, hrun⟩ <;> rw [hrun] at hlate ⊢
  · exact hd.of_processes rfl
  · refine Drained.of_processes (s := (setProcess id { s.process id with handles } s).2) ?_ rfl
    exact hd.of_only (.setProcess (.of_eq rfl rfl)) fun hstate => nomatch hlate hstate

/-- A process that gets a handle has one, whatever its state. -/
theorem generateHandle_late {object : KernelObject} (hstate : (s.process id).state = .terminated)
    (hok : ((generateHandle id object).run s).1.isOk = true) : ¬ ((generateHandle id object).run s).2.Drained := by
  rcases generateHandle_cases id object s with ⟨e, journal, hrun⟩ | ⟨handle, handles, hgenerate, hrun⟩ <;> rw [hrun] at hok ⊢
  · cases hok
  · intro hd
    have hprocess : (handleOpened object (setProcess id { s.process id with handles } s).2).2.process id =
        { s.process id with handles } := (process_insert s id id _).trans (if_pos rfl)
    have hcount := (hd id ((congrArg Process.state hprocess).trans hstate)).2.1
    rw [hprocess] at hcount
    exact absurd ((HandleTable.generate_ok hgenerate).2.symm.trans hcount) (Nat.succ_ne_zero _)

/-- A process has another address space, with mappings in it, or the program has failed and no process has changed. -/
def Fills {β : Type} (id : RecordId) (s : Machine) (result : Except KernelError β × Machine) : Prop :=
  (result.1.isOk = false ∧ result.2.processes = s.processes) ∨
    ∃ space : AddressSpace, result.1.isOk = true ∧ space.mappings ≠ [] ∧
      result.2.processes = s.processes.insert id { s.process id with space }

/-- Pages that are taken and mapped fill the process they are for, or nothing. -/
theorem claim_fills {β : Type} (id : RecordId) (n : Nat) {program : AllocationId → PageList → Action β}
    (hprogram : ∀ allocation pages, Maps id allocation pages (program allocation pages)) (s : Machine) :
    Fills id s (ExceptT.run (do
      let (allocation, pages) ← allocateFor id n
      givingBack allocation (program allocation pages) : Action β) s) := by
  have hallocate : ((allocateFor id n).run s).2.processes = s.processes := by
    rw [allocateFor, Action.run_look]
    dsimp only
    rw [allocatePages_run]
    split <;> rfl
  rw [Action.run_bind]
  rcases hrun : (allocateFor id n).run s with ⟨e | ⟨allocation, pages⟩, t⟩ <;> rw [hrun] at hallocate
  · exact .inl ⟨rfl, hallocate⟩
  · have hprocess : t.process id = s.process id := congrArg (Std.TreeMap.getD · id default) hallocate
    dsimp only at hallocate ⊢
    rw [givingBack, Action.run_tryCatch]
    rcases hprogram allocation pages t with ⟨e, hfail⟩ | ⟨b, m, space, hok, hmap, -⟩
    · rw [hfail]
      obtain ⟨kernels, allocations, hfree⟩ := freeAllocation_rest allocation t
      refine .inl ⟨rfl, Eq.trans ?_ hallocate⟩
      change (freeAllocation allocation t).2.processes = t.processes
      rw [hfree]
    · rw [hok]
      refine .inr ⟨space, rfl, ?_, ?_⟩
      · rw [(AddressSpace.map_ok hmap).2]
        exact List.ne_nil_of_mem (AddressSpace.mem_insert.2 (.inl rfl))
      · change t.processes.insert id { t.process id with space } = _
        rw [hallocate, hprocess]

/-- Heap memory fills the process that it is for, or nothing. -/
theorem allocateHeap_fills (id : RecordId) (size : Nat) (permission : Permission) (s : Machine) :
    Fills id s ((allocateHeap id size permission).run s) := by
  unfold allocateHeap
  split
  · exact .inl ⟨rfl, rfl⟩
  · unfold wholePages
    split
    · next size' _ =>
      exact claim_fills id _ (fun allocation pages => mapFound_maps id allocation pages permission .normal fun space =>
        space.findFree heapBase heapSize size') s
    · exact .inl ⟨rfl, rfl⟩

/-- Heap memory leaves terminated processes drained unless it succeeds for one of them. -/
theorem allocateHeap_drained (hd : s.Drained) {size : Nat} {permission : Permission}
    (hlate : (s.process id).state = .terminated → ((allocateHeap id size permission).run s).1.isOk = false) :
    ((allocateHeap id size permission).run s).2.Drained := by
  rcases allocateHeap_fills id size permission s with ⟨-, hprocesses⟩ | ⟨space, hok, -, hprocesses⟩
  · exact hd.of_processes hprocesses
  · refine Drained.of_processes (s := (setSpace id space s).2) ?_ hprocesses
    refine hd.of_only (setSpace_frame id space s) fun hstate => ?_
    rw [hlate hstate] at hok
    cases hok

/-- A process that gets heap memory has a mapping, whatever its state. -/
theorem allocateHeap_late {size : Nat} {permission : Permission} (hstate : (s.process id).state = .terminated)
    (hok : ((allocateHeap id size permission).run s).1.isOk = true) : ¬ ((allocateHeap id size permission).run s).2.Drained := by
  rcases allocateHeap_fills id size permission s with ⟨hfail, -⟩ | ⟨space, -, hspace, hprocesses⟩
  · rw [hok] at hfail
    cases hfail
  · intro hd
    have hprocess : ((allocateHeap id size permission).run s).2.process id = { s.process id with space } := by
      rw [process, hprocesses, Records.getD_insert, if_pos rfl]
    have hnone := (hd id ((congrArg Process.state hprocess).trans hstate)).2.2
    rw [hprocess] at hnone
    exact hspace hnone

/-- A call that is not late. -/
theorem HostCall.perform_drained (h : Orderly x s) (hd : s.Drained) {call : HostCall} (hlate : ¬ call.IsLate x.kernel s) :
    (call.perform x.kernel s).2.Drained := by
  have hk : ∀ o : KernelObject, s.has o = true → s.has o = true := fun _ ho => ho
  have hcalm {t : Machine} (hc : Calm x.kernel (s.has · = true) s t) : t.Drained := hd.of_subsides (hc h.simple hk).1
  rw [perform, Update.run_look]
  split
  · next hobjects =>
    rw [IsLate, perform, Update.run_look, if_pos hobjects] at hlate
    rw [List.all_eq_true] at hobjects
    have hfirst {o : KernelObject} {rest : List KernelObject} (heq : call.objects = o :: rest) : s.has o = true :=
      hobjects o (heq ▸ List.mem_cons_self)
    have hsecond {o o' : KernelObject} {rest : List KernelObject} (heq : call.objects = o :: o' :: rest) : s.has o' = true :=
      hobjects o' (heq ▸ List.mem_cons_of_mem _ List.mem_cons_self)
    have hfails {id : RecordId} (hreceiver : call.receiver? = some id) (hstate : (s.process id).state = .terminated) :
        (call.run x.kernel s).1 = false := Bool.eq_false_iff.2 fun hok => hlate ⟨id, hreceiver, hstate, hok⟩
    cases call with
    | start call => exact StartCall.start_drained _ x.kernel hd
    | addThread process priority => exact addThread_drained hd x.kernel priority
    | newEvent mode => exact hd.of_processes rfl
    | generateHandle process object => exact generateHandle_drained hd (hfails rfl)
    | closeHandle process handle => exact hcalm (closeHandle_calm (hfirst rfl) handle s)
    | allocateHeap process size permission => exact allocateHeap_drained hd (hfails rfl)
    | newSharedMemory region size ownerPermission userPermission => exact newSharedMemory_drained hd _ _ _ _ _
    | mapShared memory process address size asked => exact mapShared_drained hd _ _ _ _
    | unmapShared memory process address size => exact hcalm (unmapObject_calm (hsecond rfl) address size memory s)
    | lendHeap process address size permission => exact lendHeap_drained hd _ _ _
    | mapTransfer memory process address size asked => exact mapTransfer_drained hd _ _ _ _
    | unmapTransfer memory process address size => exact hcalm (unmapTransfer_calm (hfirst rfl) (hsecond rfl) address size s)
    | protectTransfer memory permission => exact hcalm (protectTransfer_calm (hfirst rfl) permission s)
    | terminate process => exact hcalm (terminateProcess_calm (hfirst rfl) none fun th hth => h.simple.threadOf process th hth)
    | reap => exact hcalm (reapTerminated_calm x.kernel s)
  · exact hd

/-- A late call. -/
theorem HostCall.perform_late {call : HostCall} {kernel : RecordId} (hlate : call.IsLate kernel s) :
    ¬ (call.perform kernel s).2.Drained := by
  obtain ⟨id, hreceiver, hstate, hok⟩ := hlate
  rw [perform, Update.run_look] at hok ⊢
  split at hok
  · next hobjects =>
    rw [if_pos hobjects]
    cases call with
    | generateHandle process object =>
      obtain rfl := Option.some.inj hreceiver
      exact generateHandle_late hstate hok
    | allocateHeap process size permission =>
      obtain rfl := Option.some.inj hreceiver
      exact allocateHeap_late hstate hok
    | _ => cases hreceiver
  · cases hok

/-! ## Rest -/

/-- A sweep leaves terminated processes drained. -/
theorem sweep_drained (h : Orderly x s) (hd : s.Drained) : (sweep s).2.Drained := by
  rw [h.simple.bare.sweep_run]
  intro id
  have hprocess : (dropDead (.ofList s.references) s (s.freed (dead (.ofList s.references) s.allocations))).process id =
      (kept (.ofList s.references) s.processes s.processes).getD id default := by
    change (kept _ s.processes (s.freed _).processes).getD id default = _
    rw [processes_freed]
  rw [hprocess, getD_kept]
  split
  · exact hd id
  · exact fun hstate => nomatch hstate

/-- Coming to rest leaves terminated processes drained. -/
theorem quiesceFor_drained {fuel : Nat} (h : Orderly x s) (hd : s.Drained) : (quiesceFor fuel s).2.Drained := by
  induction fuel generalizing s with
  | zero => exact hd
  | succ fuel ih =>
    have hcalm := settle_calm x.kernel s
    have hsettled : Orderly x (settle s).2 := h.of_calm hcalm fun _ ho => nomatch ho
    have hswept := sweep_drained hsettled (hd.of_subsides (hcalm h.simple fun _ ho => nomatch ho).1)
    rw [quiesceFor, Update.run_bind, Update.run_bind]
    split
    · exact ih (sweep_orderly hsettled) hswept
    · exact hswept

/-- What a step does behind its call leaves terminated processes drained. -/
theorem HostStep.after_drained (h : Orderly x s) (step : HostStep) (hd : (step.called x.kernel s).Drained) :
    (step.after x.kernel s).Drained :=
  quiesceFor_drained ((HostCall.perform_orderly h step.call).hold step.holds) (hd.of_processes rfl)

/-! ## Runs -/

/-- The last step of a run comes last. -/
theorem afterSteps_concat (x : Setup) (steps : List HostStep) (step : HostStep) :
    afterSteps x (steps ++ [step]) = step.after x.kernel (afterSteps x steps) := List.foldl_concat _ _ _ _

/-- Steps whose calls are not late. -/
theorem drained_foldl {steps : List HostStep} (h : Orderly x s) (hd : s.Drained)
    (hlate : ∀ before step rest, steps = before ++ step :: rest →
      ¬ step.call.IsLate x.kernel (before.foldl (fun s step => step.after x.kernel s) s)) :
    (steps.foldl (fun s step => step.after x.kernel s) s).Drained := by
  induction steps generalizing s with
  | nil => exact hd
  | cons step rest ih =>
    have hcalled := HostCall.perform_drained h hd (hlate [] step rest rfl)
    refine ih (step.after_orderly h).1 (step.after_drained h hcalled) fun before next rest heq => ?_
    exact hlate (step :: before) next rest (congrArg (step :: ·) heq)

/-- Terminated processes hold nothing in any state that a run comes to exactly if no call of the run is late. -/
theorem drained_iff (x : Setup) (steps : List HostStep) :
    (∀ before step rest, steps = before ++ step :: rest →
      (step.called x.kernel (afterSteps x before)).Drained ∧ (afterSteps x (before ++ [step])).Drained) ↔
    ∀ before step rest, steps = before ++ step :: rest → ¬ step.call.IsLate x.kernel (afterSteps x before) := by
  constructor
  · intro h before step rest heq hlate
    exact HostCall.perform_late hlate (h before step rest heq).1
  · intro h before step rest heq
    have hnew : x.machine.Drained := by
      intro id
      rw [x.newKernel_run.2]
      exact fun hstate => nomatch hstate
    have hbefore : (afterSteps x before).Drained := drained_foldl (machine_orderly x) hnew fun earlier other later hsplit =>
      h earlier other (later ++ step :: rest) (by rw [heq, hsplit, List.append_assoc, List.cons_append])
    have hcalled := HostCall.perform_drained (afterSteps_orderly x before).1 hbefore (h before step rest heq)
    rw [afterSteps_concat]
    exact ⟨hcalled, step.after_drained (afterSteps_orderly x before).1 hcalled⟩

/-- An application that is started, terminated, and then given a handle of itself. -/
def lateHandle : List HostStep := [{ call := .start (plainCall .application) }, { call := .terminate 1 },
  { call := .generateHandle 1 (.process 1) }]

/-- The process of the run is terminated, and has a handle all the same. -/
theorem process_lateHandle : ((afterSteps plainSetup lateHandle).process 1).state = .terminated ∧
    ((afterSteps plainSetup lateHandle).process 1).handles.count = 1 := by decide +kernel

/-- Terminated processes may have handles. -/
theorem drained_false : ¬∀ (x : Setup) (steps before : List HostStep) (step : HostStep) (rest : List HostStep),
    steps = before ++ step :: rest →
      (step.called x.kernel (afterSteps x before)).Drained ∧ (afterSteps x (before ++ [step])).Drained := by
  intro h
  have hsplit : lateHandle = lateHandle.take 2 ++ [{ call := .generateHandle 1 (.process 1) }] := rfl
  have hlast := (h plainSetup lateHandle (lateHandle.take 2) _ [] hsplit).2
  rw [← hsplit] at hlast
  obtain ⟨hstate, hcount⟩ := process_lateHandle
  obtain ⟨-, hzero, -⟩ := hlast 1 hstate
  rw [hcount] at hzero
  cases hzero

end Machine

end Microkernel
