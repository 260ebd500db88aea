import Microkernel.Proofs.Handle.Several
import Microkernel.Proofs.Machine.Keeps
import Microkernel.Proofs.Machine.Tables

/-!
# Handles of a machine

What `generateHandle`, `closeHandle` and `releaseHandle` do: one process gets another handle table, the one that the operation on the
table gives (`Rebinds`). Everything else that owns something stays as it is (`SameButHandles`).
-/

namespace Microkernel

variable {α : Type}

namespace Machine

/-- The machine with another handle table for a process. -/
def withHandles (s : Machine) (process : RecordId) (handles : HandleTable KernelObject) : Machine :=
  { s with processes := s.processes.insert process { s.process process with handles } }

/-- With another table, the process has it, and every other process is as it was. -/
theorem process_withHandles (s : Machine) (process : RecordId) (handles : HandleTable KernelObject) (id : RecordId) :
    (s.withHandles process handles).process id = if id = process then { s.process id with handles } else s.process id := by
  refine (process_insert s process id _).trans ?_
  split
  · next h => rw [h]
  · rfl

/-- The handle table of a process. -/
def table (s : Machine) (process : RecordId) : HandleTable KernelObject := (s.process process).handles

end Machine

/-- Machines with the same owners have the same processes. -/
theorem SameOwners.process {s t : Machine} (h : SameOwners s t) (id : RecordId) : t.process id = s.process id := by
  rw [Machine.process, h.processes, Machine.process]

/-- They have the same handle tables. -/
theorem SameOwners.table {s t : Machine} (h : SameOwners s t) (id : RecordId) : t.table id = s.table id := by
  rw [Machine.table, h.process, Machine.table]

/-! ## Programs that change nothing but handle tables -/

/-- The machines have the same owners, but for the handle tables of processes. -/
structure SameButHandles (s t : Machine) : Prop where
  process : ∀ id, ∃ handles, t.process id = { s.process id with handles }
  kernels : t.kernels = s.kernels
  threads : t.threads = s.threads
  servers : t.servers = s.servers
  services : t.services = s.services
  registries : t.registries = s.registries
  allocations : t.allocations = s.allocations
  sharedMemories : t.sharedMemories = s.sharedMemories
  transferMemories : t.transferMemories = s.transferMemories

instance : IsPreorder Machine SameButHandles where
  refl s := by
    constructor
    case process => exact fun id => ⟨(s.process id).handles, rfl⟩
    all_goals rfl
  trans _ _ _ h h' := by
    constructor
    case process =>
      intro id
      obtain ⟨handles, hp⟩ := h.process id
      obtain ⟨handles', hp'⟩ := h'.process id
      exact ⟨handles', by rw [hp', hp]⟩
    case kernels => exact h'.kernels.trans h.kernels
    case threads => exact h'.threads.trans h.threads
    case servers => exact h'.servers.trans h.servers
    case services => exact h'.services.trans h.services
    case registries => exact h'.registries.trans h.registries
    case allocations => exact h'.allocations.trans h.allocations
    case sharedMemories => exact h'.sharedMemories.trans h.sharedMemories
    case transferMemories => exact h'.transferMemories.trans h.transferMemories

/-- Whoever leaves owners alone leaves all but handles alone. -/
theorem SameOwners.sameButHandles {s t : Machine} (h : SameOwners s t) : SameButHandles s t where
  process id := ⟨(s.process id).handles, by rw [h.process]⟩
  kernels := h.kernels
  threads := h.threads
  servers := h.servers
  services := h.services
  registries := h.registries
  allocations := h.allocations
  sharedMemories := h.sharedMemories
  transferMemories := h.transferMemories

/-- Every run of a program that leaves owners alone changes handle tables at most. -/
theorem Keeps.sameButHandles {p : Update α} (hp : Keeps SameOwners p) : Keeps SameButHandles p :=
  hp.mono fun _ _ h => h.sameButHandles

/-- Of all that owns something, only the handle table of one process has become another. -/
structure Rebinds (s : Machine) (process : RecordId) (t : HandleTable KernelObject) (s' : Machine) : Prop where
  frame : SameButHandles s s'
  table : ∀ id, s'.table id = if id = process then t else s.table id

namespace Rebinds

variable {s s' s'' : Machine} {process : RecordId} {t t' : HandleTable KernelObject}

/-- The process has the table that it was given. -/
theorem table_self (h : Rebinds s process t s') : s'.table process = t := by
  rw [h.table, if_pos rfl]

/-- Every other process has its own. -/
theorem table_of_ne (h : Rebinds s process t s') {id : RecordId} (hid : id ≠ process) : s'.table id = s.table id := by
  rw [h.table, if_neg hid]

/-- A table that stays is rebound to itself. -/
theorem refl (s : Machine) (process : RecordId) : Rebinds s process (s.table process) s where
  frame := IsPreorder.toRefl.refl s
  table id := by
    split
    · next h => rw [h]
    · rfl

/-- Of two tables one after the other the second one stays. -/
theorem trans (h : Rebinds s process t s') (h' : Rebinds s' process t' s'') : Rebinds s process t' s'' where
  frame := IsTrans.trans _ _ _ h.frame h'.frame
  table id := by
    rw [h'.table, h.table]
    split <;> rfl

/-- What changes no owner may come behind. -/
theorem trans_owners (h : Rebinds s process t s') (h' : SameOwners s' s'') : Rebinds s process t s'' where
  frame := IsTrans.trans _ _ _ h.frame h'.sameButHandles
  table id := by rw [h'.table, h.table]

/-- Whoever leaves owners alone rebinds nothing. -/
theorem ofOwners (h : SameOwners s s') (process : RecordId) : Rebinds s process (s.table process) s' :=
  (Rebinds.refl s process).trans_owners h

/-- Another table for a process rebinds just that. -/
theorem withHandles (s : Machine) (process : RecordId) (t : HandleTable KernelObject) :
    Rebinds s process t (s.withHandles process t) where
  frame := by
    constructor
    case process =>
      intro id
      rw [Machine.process_withHandles]
      split
      · exact ⟨t, rfl⟩
      · exact ⟨(s.process id).handles, rfl⟩
    all_goals rfl
  table id := by
    unfold Machine.table
    rw [Machine.process_withHandles]
    split <;> rfl

end Rebinds

namespace Machine

variable {s : Machine} {process : RecordId} {object : KernelObject} {handle : Handle} {t : HandleTable KernelObject} {e : HandleError}

/-! ## What the operations do -/

/-- Binding an object gives the process the table that has it. -/
theorem generateHandle_of_ok (h : (s.table process).generate object = .ok (handle, t)) :
    ∃ s', (generateHandle process object).run s = (.ok handle, s') ∧ Rebinds s process t s' := by
  refine ⟨(handleOpened object (s.withHandles process t)).2, ?_, (Rebinds.withHandles s process t).trans_owners (handleOpened_keeps _ _)⟩
  unfold table at h
  rw [generateHandle, Action.run_look]
  simp only [h]
  rfl

/-- Without room for it nothing is bound. -/
theorem generateHandle_of_error (h : (s.table process).generate object = .error e) :
    ∃ s', (generateHandle process object).run s = (.error (.ofHandleError e), s') ∧ SameOwners s s' := by
  unfold table at h
  rw [generateHandle, Action.run_look]
  simp only [h]
  cases e with
  | outOfHandles capacity => exact ⟨_, rfl, log_keeps _ _ s⟩
  | invalidHandle handle => exact ⟨_, rfl, refl s⟩

/-- Closing a handle gives the process the table that does not have it. -/
theorem closeHandle_of_ok (h : (s.table process).close handle = .ok (object, t)) :
    ∃ s', (closeHandle process handle).run s = (.ok (), s') ∧ Rebinds s process t s' := by
  refine ⟨(handleClosed object (s.withHandles process t)).2, ?_, (Rebinds.withHandles s process t).trans_owners (handleClosed_keeps _ _)⟩
  unfold table at h
  rw [closeHandle, Action.run_look]
  simp only [h]
  rfl

/-- A handle that names nothing cannot be closed. -/
theorem closeHandle_of_error (h : (s.table process).close handle = .error e) :
    (closeHandle process handle).run s = (.error (.ofHandleError e), s) := by
  unfold table at h
  rw [closeHandle, Action.run_look]
  simp only [h]
  rfl

/-- Resolving a handle changes nothing. -/
theorem resolveHandle_run (s : Machine) (process : RecordId) (handle : Handle) : (resolveHandle process handle).run s =
    match (s.table process).resolve handle with
    | some object => (.ok object, s)
    | none => (.error (.invalidHandle handle.raw.toNat), s) := by
  unfold table
  rw [resolveHandle, Action.run_look]
  cases (s.process process).handles.resolve handle <;> rfl

/-- Releasing a handle gives the process the table without it. -/
theorem releaseHandle_rebinds (s : Machine) (process : RecordId) (handle : Handle) :
    Rebinds s process ((s.table process).release handle) (releaseHandle process handle s).2 := by
  change Rebinds s process _ ((closeHandle process handle).run s).2
  unfold HandleTable.release
  cases hc : (s.table process).close handle with
  | ok result =>
    obtain ⟨s', hrun, hr⟩ := closeHandle_of_ok hc
    rw [hrun]
    exact hr
  | error e =>
    rw [closeHandle_of_error hc]
    exact Rebinds.refl s process

/-- Whether or not the object can be bound, only handle tables change. -/
theorem generateHandle_keeps (process : RecordId) (object : KernelObject) :
    Keeps SameButHandles (generateHandle process object).run := by
  intro s
  cases hg : (s.table process).generate object with
  | ok result =>
    obtain ⟨s', hrun, hr⟩ := generateHandle_of_ok hg
    rw [hrun]
    exact hr.frame
  | error e =>
    obtain ⟨s', hrun, hs⟩ := generateHandle_of_error hg
    rw [hrun]
    exact hs.sameButHandles

/-- Releasing a handle leaves all but handles alone. -/
theorem releaseHandle_keeps (process : RecordId) (handle : Handle) : Keeps SameButHandles (releaseHandle process handle) :=
  fun s => (releaseHandle_rebinds s process handle).frame

/-- Looking a handle up leaves all owners alone. -/
theorem resolveHandle_keeps (process : RecordId) (handle : Handle) : Keeps SameOwners (resolveHandle process handle).run := by
  intro s
  rw [resolveHandle_run]
  split <;> exact refl s

end Machine

end Microkernel
