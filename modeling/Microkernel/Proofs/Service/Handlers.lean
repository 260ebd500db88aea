import Microkernel.Proofs.Machine.Handles
import Microkernel.Service.Handlers

/-!
# What handlers leave alone

A handler only stages what it does to its client. Whatever it runs, and whether or not it succeeds, the processes with their handle
tables and address spaces and the memory behind them are as before (`SameGuests`), and of the call only what is staged has changed
(`HandlerFrame`). `invoke_keeps` says it of every command of every service.
-/

namespace Microkernel

variable {α β : Type}

/-! ## Guests -/

/-- The machines have the same processes, threads, servers and memory. Kernels may differ in their audit logs. -/
structure SameGuests (s t : Machine) : Prop where
  kernels : ∀ id, ∃ audit, t.kernel id = { s.kernel id with audit }
  processes : t.processes = s.processes
  threads : t.threads = s.threads
  servers : t.servers = s.servers
  allocations : t.allocations = s.allocations
  sharedMemories : t.sharedMemories = s.sharedMemories
  transferMemories : t.transferMemories = s.transferMemories

instance : IsPreorder Machine SameGuests where
  refl s := by
    constructor
    case kernels => exact fun id => ⟨(s.kernel id).audit, rfl⟩
    all_goals rfl
  trans _ _ _ h h' := by
    constructor
    case kernels =>
      intro id
      obtain ⟨audit, ha⟩ := h.kernels id
      obtain ⟨audit', ha'⟩ := h'.kernels id
      exact ⟨audit', by rw [ha', ha]⟩
    case processes => exact h'.processes.trans h.processes
    case threads => exact h'.threads.trans h.threads
    case servers => exact h'.servers.trans h.servers
    case allocations => exact h'.allocations.trans h.allocations
    case sharedMemories => exact h'.sharedMemories.trans h.sharedMemories
    case transferMemories => exact h'.transferMemories.trans h.transferMemories

/-- Where owners stay as they are, guests do. -/
theorem SameOwners.sameGuests {s t : Machine} (h : SameOwners s t) : SameGuests s t where
  kernels id := ⟨(s.kernel id).audit, by rw [Machine.kernel, h.kernels, Machine.kernel]⟩
  processes := h.processes
  threads := h.threads
  servers := h.servers
  allocations := h.allocations
  sharedMemories := h.sharedMemories
  transferMemories := h.transferMemories

/-- What leaves owners alone leaves guests alone. -/
theorem Keeps.sameGuests {p : Update α} (hp : Keeps SameOwners p) : Keeps SameGuests p := hp.mono fun _ _ h => h.sameGuests

namespace Machine

theorem audit_keeps (kernel : RecordId) (event : KernelEvent) : Keeps SameGuests (audit kernel event) := by
  refine Keeps.look fun s => ?_
  constructor
  case kernels =>
    intro id
    change ∃ audit, (s.kernels.insert kernel ((s.kernel kernel).record event).2).getD id default = { s.kernel id with audit }
    rw [Std.TreeMap.getD_insert]
    split
    · next h =>
      rw [← Std.LawfulEqCmp.eq_of_compare h]
      exact ⟨_, rfl⟩
    · exact ⟨(s.kernel id).audit, rfl⟩
  all_goals rfl

theorem setService_keeps (id : RecordId) (x : Service) : Keeps SameGuests (setService id x) := by
  refine fun s => ⟨fun id => ⟨(s.kernel id).audit, rfl⟩, ?_, ?_, ?_, ?_, ?_, ?_⟩
  all_goals rfl

theorem setRegistry_keeps (id : RecordId) (r : Registry) : Keeps SameGuests (setRegistry id r) := by
  refine fun s => ⟨fun id => ⟨(s.kernel id).audit, rfl⟩, ?_, ?_, ?_, ?_, ?_, ?_⟩
  all_goals rfl

/-- Binding a name leaves guests alone. -/
theorem registerPort_keeps (registry : RecordId) (name : ServiceName) (clientPort : RecordId) :
    Keeps SameGuests (registerPort registry name clientPort) := by
  refine Keeps.get.bind fun s => ?_
  split
  · refine (setRegistry_keeps _ _).bind fun _ => (log_keeps _ _).sameGuests.bind fun _ => ?_
    exact (audit_keeps _ _).bind fun _ => .pure _
  · exact .pure _

/-- Registering a service leaves guests alone. -/
theorem registerService_keeps (registry : RecordId) (name : ServiceName) (maxSessions : Nat) :
    Keeps SameGuests (registerService registry name maxSessions) :=
  (newPort_keeps _ _).sameGuests.bind fun _ => (registerPort_keeps _ _ _).bind fun _ => .pure _

/-- Freeing a name leaves guests alone. -/
theorem unregisterService_keeps (registry : RecordId) (name : ServiceName) : Keeps SameGuests (unregisterService registry name) := by
  refine Keeps.get.bind fun s => ?_
  split
  · refine (setRegistry_keeps _ _).bind fun _ => (log_keeps _ _).sameGuests.bind fun _ => ?_
    exact (audit_keeps _ _).bind fun _ => .pure _
  · exact .pure _

/-- Connecting to a service leaves owners alone. -/
theorem connectService_keeps (registry : RecordId) (name : ServiceName) : Keeps SameOwners (connectService registry name) := by
  refine Keeps.get.bind fun s => ?_
  split
  · exact (connectPort_keeps _).bind fun _ => .pure _
  · exact .pure _

/-- Reading guest memory leaves owners alone. -/
theorem readMemory_keeps (process : RecordId) (address length : Nat) : Keeps SameOwners (readMemory process address length).run := by
  refine .run_bind (.run_lift .get) fun s => .run_bind (.run_except _) fun pieces => ?_
  exact .run_bind (.run_lift .get) fun s' => .run_except _

end Machine

/-! ## Handlers -/

namespace Handler

/-- A handler behind another runs where the other left off, unless that failed. -/
theorem run_bind (h : Handler α) (f : α → Handler β) (c : Call) (s : Machine) : (h >>= f).run.run c s =
    match h.run.run c s with
    | ((.ok a, c), s) => (f a).run.run c s
    | ((.error e, c), s) => ((.error e, c), s) := by
  rw [ExceptT.run_bind, StateT.run_bind]
  change (StateT.bind (h.run.run c) _ : Update _) s = _
  unfold StateT.bind
  rcases h.run.run c s with ⟨⟨_ | a, c'⟩, s'⟩ <;> rfl

/-- A handler that catches runs the other one where the first fails, with the call and the machine as it left them. -/
theorem run_tryCatch (h : Handler α) (f : HandlerFailure → Handler α) (c : Call) (s : Machine) :
    (tryCatch h f).run.run c s =
    match h.run.run c s with
    | ((.ok a, c), s) => ((.ok a, c), s)
    | ((.error e, c), s) => (f e).run.run c s := by
  rw [ExceptT.run_tryCatch, StateT.run_bind]
  change (StateT.bind (h.run.run c) _ : Update _) s = _
  unfold StateT.bind
  rcases h.run.run c s with ⟨⟨_ | a, c'⟩, s'⟩ <;> rfl

/-- Every run of the handler, however it ends, leads to a call and a machine in the relation. -/
def Keeps (R : Call × Machine → Call × Machine → Prop) (h : Handler α) : Prop :=
  ∀ c s, R (c, s) ((h.run.run c s).1.2, (h.run.run c s).2)

namespace Keeps

variable {R : Call × Machine → Call × Machine → Prop}

/-- A change of the call. -/
theorem modify {f : Call → Call} (h : ∀ c s, R (c, s) (f c, s)) : Keeps R (modify f : Handler Unit) := h

/-- A handler that begins with a look at the call; what it does then may depend on what it saw. -/
theorem look {f : Call → Handler β} (h : ∀ c s, R (c, s) (((f c).run.run c s).1.2, ((f c).run.run c s).2)) :
    Keeps R (get >>= f) := h

/-- A program over the machine that keeps the relation at every call. -/
theorem update {p : Update α} (hp : ∀ c s, R (c, s) (c, (p s).2)) : Keeps R (Call.update p) := hp

variable [IsPreorder (Call × Machine) R]

theorem pure (a : α) : Keeps R (pure a) := fun c s => refl (c, s)

theorem throw (e : HandlerFailure) : Keeps R (throw e : Handler α) := fun c s => refl (c, s)

theorem get : Keeps R (get : Handler Call) := fun c s => refl (c, s)

/-- A handler keeps what both of its parts keep. -/
theorem bind {h : Handler α} {f : α → Handler β} (hh : Keeps R h) (hf : ∀ a, Keeps R (f a)) : Keeps R (h >>= f) := by
  intro c s
  have hfirst := hh c s
  rw [run_bind]
  split
  · next hrun =>
    rw [hrun] at hfirst
    exact IsTrans.trans _ _ _ hfirst (hf _ _ _)
  · next hrun =>
    rw [hrun] at hfirst
    exact hfirst

/-- Catching a failure keeps what the handler kept before it. -/
theorem tryCatch {h : Handler α} {f : HandlerFailure → Handler α} (hh : Keeps R h) (hf : ∀ e, Keeps R (f e)) :
    Keeps R (tryCatch h f) := by
  intro c s
  have hfirst := hh c s
  rw [run_tryCatch]
  split
  · next hrun =>
    rw [hrun] at hfirst
    exact hfirst
  · next hrun =>
    rw [hrun] at hfirst
    exact IsTrans.trans _ _ _ hfirst (hf _ _ _)

/-- What is made of the result of a handler changes nothing more. -/
theorem map {h : Handler α} (hh : Keeps R h) (f : α → β) : Keeps R (f <$> h) := by
  rw [map_eq_pure_bind]
  exact hh.bind fun a => pure _

/-- An update of the machine that may fail keeps what it keeps of the machine. -/
theorem attempt {p : Update (Except ServiceError α)} (hp : ∀ c s, R (c, s) (c, (p s).2)) : Keeps R (Call.attempt p) := by
  refine (update hp).bind fun result => ?_
  cases result with
  | ok a => exact pure a
  | error e => exact throw _

theorem perform {p : Action α} (hp : ∀ c s, R (c, s) (c, (p.run s).2)) : Keeps R (Call.perform p) := attempt hp

end Keeps

end Handler

/-- What a handler may have done: nothing to processes and their memory, and to the call only what it stages. The attached handles are
the same; some are marked as kept. -/
structure HandlerFrame (before after : Call × Machine) : Prop where
  guests : SameGuests before.2 after.2
  kernel : after.1.kernel = before.1.kernel
  server : after.1.server = before.1.server
  client : after.1.client = before.1.client
  request : after.1.request = before.1.request
  movedSources : after.1.movedSources = before.1.movedSources
  copyIn : after.1.copyIn.map InHandle.handle = before.1.copyIn.map InHandle.handle
  moveIn : after.1.moveIn.map InHandle.handle = before.1.moveIn.map InHandle.handle

instance : IsPreorder (Call × Machine) HandlerFrame where
  refl x := ⟨refl x.2, rfl, rfl, rfl, rfl, rfl, rfl, rfl⟩
  trans _ _ _ h h' := ⟨IsTrans.trans _ _ _ h.guests h'.guests, h'.kernel.trans h.kernel, h'.server.trans h.server,
    h'.client.trans h.client, h'.request.trans h.request, h'.movedSources.trans h.movedSources, h'.copyIn.trans h.copyIn,
    h'.moveIn.trans h.moveIn⟩

namespace HandlerFrame

/-- A change of the machine alone. -/
theorem ofGuests {p : Update α} (hp : Keeps SameGuests p) (c : Call) (s : Machine) : HandlerFrame (c, s) (c, (p s).2) :=
  ⟨hp s, rfl, rfl, rfl, rfl, rfl, rfl, rfl⟩

/-- A change of what the call stages, or of what it has read. -/
theorem staged (c : Call) (s : Machine) (cursor : Nat) (output : Wire.Bytes) (copyOut moveOut : List KernelObject)
    (writes : List (Nat × Wire.Bytes)) (statics : List Wire.StaticDescriptor) (newSessions : List SessionEntry) :
    HandlerFrame (c, s) ({ c with cursor, output, copyOut, moveOut, writes, statics, newSessions }, s) :=
  ⟨refl s, rfl, rfl, rfl, rfl, rfl, rfl, rfl⟩

end HandlerFrame

/-! ## The helpers of handlers -/

namespace Call

/-- An update that leaves guests alone is one a handler may make. -/
theorem update_keeps {p : Update α} (hp : Keeps SameGuests p) : Handler.Keeps HandlerFrame (update p) :=
  .update (HandlerFrame.ofGuests hp)

/-- An action that leaves guests alone is one a handler may take. -/
theorem perform_keeps {p : Action α} (hp : Keeps SameGuests p.run) : Handler.Keeps HandlerFrame (perform p) :=
  .perform (HandlerFrame.ofGuests hp)

theorem fail_keeps (e : ServiceError) : Handler.Keeps HandlerFrame (fail e : Handler α) := .throw _

theorem failWith_keeps (code : ResultCode) : Handler.Keeps HandlerFrame (failWith code : Handler α) := .throw _

/-- Reading aligned bytes stages nothing. -/
theorem readAligned_keeps (n : Nat) : Handler.Keeps HandlerFrame (readAligned n) := by
  refine .look fun c s => ?_
  dsimp only
  split
  · exact HandlerFrame.staged ..
  · exact failWith_keeps _ c s

theorem readNumber_keeps (n : Nat) : Handler.Keeps HandlerFrame (readNumber n) := (readAligned_keeps n).bind fun _ => .pure _

/-- Reading bytes stages nothing. -/
theorem readBytes_keeps (n : Nat) : Handler.Keeps HandlerFrame (readBytes n) := by
  refine .look fun c s => ?_
  split
  · exact failWith_keeps _ c s
  · split
    · exact HandlerFrame.staged ..
    · exact failWith_keeps _ c s

/-- Bytes that are written to the response are staged. -/
theorem writeBytes_keeps (bytes : Wire.Bytes) : Handler.Keeps HandlerFrame (writeBytes bytes) :=
  .modify fun _ _ => HandlerFrame.staged ..

/-- A number that is written to the response is staged. -/
theorem writeNumber_keeps (n value : Nat) : Handler.Keeps HandlerFrame (writeNumber n value) :=
  Handler.Keeps.get.bind fun _ => writeBytes_keeps _

/-- Reading client memory stages nothing. -/
theorem readMemory_keeps (address length : Nat) : Handler.Keeps HandlerFrame (readMemory address length) :=
  Handler.Keeps.get.bind fun _ => perform_keeps (Machine.readMemory_keeps _ _ _).sameGuests

/-- Bytes that are written to client memory are staged. -/
theorem writeMemory_keeps (address : Nat) (bytes : Wire.Bytes) : Handler.Keeps HandlerFrame (writeMemory address bytes) :=
  .modify fun _ _ => HandlerFrame.staged ..

/-- Reading an input buffer stages nothing. -/
theorem readInBuffer_keeps (index : Nat) : Handler.Keeps HandlerFrame (readInBuffer index) := by
  refine Handler.Keeps.get.bind fun c => ?_
  split
  · exact readMemory_keeps _ _
  · exact failWith_keeps _

/-- Reading an input pointer stages nothing. -/
theorem readInPointer_keeps (index : UInt8) : Handler.Keeps HandlerFrame (readInPointer index) := by
  refine Handler.Keeps.get.bind fun c => ?_
  split
  · exact readMemory_keeps _ _
  · exact failWith_keeps _

/-- Bytes for an output buffer are staged. -/
theorem writeOutBuffer_keeps (index : Nat) (bytes : Wire.Bytes) : Handler.Keeps HandlerFrame (writeOutBuffer index bytes) := by
  refine Handler.Keeps.get.bind fun c => ?_
  split
  · exact writeMemory_keeps _ _
  · exact failWith_keeps _

/-- Bytes for an output pointer are staged. -/
theorem writeOutPointer_keeps (index : Nat) (bytes : Wire.Bytes) :
    Handler.Keeps HandlerFrame (writeOutPointer index bytes) := by
  refine Handler.Keeps.get.bind fun c => ?_
  split
  · split
    · exact (failWith_keeps _).bind fun _ => (writeMemory_keeps _ _).bind fun _ => .modify fun _ _ => HandlerFrame.staged ..
    · exact (writeMemory_keeps _ _).bind fun _ => .modify fun _ _ => HandlerFrame.staged ..
  · exact failWith_keeps _

/-- Bytes for either kind of output are staged. -/
theorem writeOutEither_keeps (index : Nat) (bytes : Wire.Bytes) : Handler.Keeps HandlerFrame (writeOutEither index bytes) := by
  refine Handler.Keeps.get.bind fun c => ?_
  split
  · exact writeOutBuffer_keeps _ _
  · exact writeOutPointer_keeps _ _

/-- Looking at an attached handle stages nothing. -/
theorem inHandle_keeps (mode : HandleMode) (index : Nat) : Handler.Keeps HandlerFrame (inHandle mode index) := by
  refine Handler.Keeps.get.bind fun c => ?_
  split
  · exact .pure _
  · exact fail_keeps _

/-- Marking a handle as kept leaves the handles as they are. -/
theorem map_handle_modify_kept (handles : List InHandle) (index : Nat) :
    (handles.modify index fun h => { h with kept := true }).map InHandle.handle = handles.map InHandle.handle := by
  induction handles generalizing index with
  | nil => cases index <;> rfl
  | cons h rest ih =>
    cases index with
    | zero => rfl
    | succ index => exact congrArg (h.handle :: ·) (ih index)

/-- Keeping an attached handle marks it as kept. -/
theorem keepHandle_keeps (mode : HandleMode) (index : Nat) : Handler.Keeps HandlerFrame (keepHandle mode index) := by
  refine (inHandle_keeps mode index).bind fun handle => .bind (.modify fun c s => ?_) fun _ => .pure _
  cases mode with
  | copy => exact ⟨refl s, rfl, rfl, rfl, rfl, rfl, map_handle_modify_kept _ _, rfl⟩
  | move => exact ⟨refl s, rfl, rfl, rfl, rfl, rfl, rfl, map_handle_modify_kept _ _⟩

/-- Looking up what an attached handle names stages nothing. -/
theorem inObject_keeps (mode : HandleMode) (index : Nat) : Handler.Keeps HandlerFrame (inObject mode index) :=
  (inHandle_keeps mode index).bind fun _ => Handler.Keeps.get.bind fun _ => perform_keeps (Machine.resolveHandle_keeps _ _).sameGuests

/-- An object that is sent is staged. -/
theorem sendObject_keeps (mode : HandleMode) (object : KernelObject) : Handler.Keeps HandlerFrame (sendObject mode object) := by
  refine .modify fun c s => ?_
  cases mode <;> exact HandlerFrame.staged ..

/-- A session that is opened is staged. -/
theorem openSession_keeps (service : RecordId) : Handler.Keeps HandlerFrame (openSession service) := by
  refine (update_keeps (Machine.newSession_keeps _).sameGuests).bind fun ends => ?_
  exact .bind (.modify fun c s => HandlerFrame.staged ..) fun _ => sendObject_keeps _ _

end Call

/-! ## Commands -/

namespace Service

open Machine

/-- Building an object leaves guests alone. -/
theorem build_keeps (blueprint : Blueprint) : Keeps SameGuests (build blueprint) := by
  have hstore (service : Service) : Keeps SameGuests (do
      let id ← freshId
      setService id service
      return id) := freshId_keeps.sameGuests.bind fun _ => (setService_keeps _ _).bind fun _ => .pure _
  have hevent := (newEvent_keeps .manual).sameGuests
  cases blueprint with
  | applicationManager =>
    refine hevent.bind fun _ => hevent.bind fun _ => hevent.bind fun _ => hevent.bind fun _ => hevent.bind fun _ => ?_
    exact hstore _
  | _ => exact hstore _

/-- A fresh object that is sent is staged. -/
theorem sendFresh_keeps (blueprint : Blueprint) : Handler.Keeps HandlerFrame (sendFresh blueprint) :=
  (Call.update_keeps (build_keeps _)).bind fun _ => Call.openSession_keeps _

/-! ### Built-in commands -/

/-- No command of the settings service does more than a handler may. -/
theorem invokeSettings_keeps (firmware : FirmwareVersion) (id : Nat) : Handler.Keeps HandlerFrame (invokeSettings firmware id) := by
  unfold invokeSettings
  split
  · exact Call.writeOutEither_keeps _ _
  · exact Call.writeOutEither_keeps _ _
  · exact Call.writeBytes_keeps _
  · exact Call.failWith_keeps _

/-- No command of the monitor does more than a handler may. -/
theorem invokeMonitor_keeps (self : RecordId) (id : Nat) : Handler.Keeps HandlerFrame (invokeMonitor self id) := by
  unfold invokeMonitor
  split
  · exact Call.writeNumber_keeps _ _
  · exact Call.update_keeps (setService_keeps _ _)
  · exact Call.update_keeps (setService_keeps _ _)
  · exact Call.failWith_keeps _

/-- No command of the service for applications does more than a handler may. -/
theorem invokeApplications_keeps (events : ApplicationEvents) (id : Nat) :
    Handler.Keeps HandlerFrame (invokeApplications events id) := by
  have hspace : Handler.Keeps HandlerFrame (do
      let _ ← Call.readNumber 1
      Call.writeNumber 8 storageSpace) := (Call.readNumber_keeps _).bind fun _ => Call.writeNumber_keeps _ _
  unfold invokeApplications
  dsimp only
  split
  · exact Call.sendObject_keeps _ _
  · exact Call.sendObject_keeps _ _
  · exact hspace
  · exact hspace
  · exact Call.sendObject_keeps _ _
  · exact (Call.readNumber_keeps _).bind fun _ => Call.writeBytes_keeps _
  · exact .pure _
  · exact Call.sendObject_keeps _ _
  · exact (Call.sendObject_keeps _ _).bind fun _ => Call.update_keeps (signalEvent_keeps _).sameGuests
  · exact Call.writeBytes_keeps _
  · exact Call.failWith_keeps _

theorem readName_keeps : Handler.Keeps HandlerFrame readName := by
  refine (Call.readNumber_keeps _).bind fun word => ?_
  split
  · exact .pure _
  · exact Call.fail_keeps _

/-- No command of the service manager does more than a handler may. -/
theorem invokeManager_keeps (self registry : RecordId) (ignoreMissing initialized : Bool) (id : Nat) :
    Handler.Keeps HandlerFrame (invokeManager self registry ignoreMissing initialized id) := by
  unfold invokeManager
  split
  · exact Call.update_keeps (setService_keeps _ _)
  · split
    · exact Call.failWith_keeps _
    · split
      · exact Call.failWith_keeps _
      · refine readName_keeps.bind fun name => ?_
        split
        · refine (Call.update_keeps (connectService_keeps _ _).sameGuests).bind fun result => ?_
          split
          · exact Call.sendObject_keeps _ _
          · split
            · exact (Call.update_keeps (log_keeps _ _).sameGuests).bind fun _ => sendFresh_keeps _
            · exact Call.fail_keeps _
        · refine (Call.readNumber_keeps _).bind fun _ => (Call.readNumber_keeps _).bind fun maxSessions => ?_
          refine (Call.update_keeps (registerService_keeps _ _ _)).bind fun result => ?_
          split
          · exact Call.sendObject_keeps _ _
          · exact Call.fail_keeps _
        · refine (Call.update_keeps (unregisterService_keeps _ _)).bind fun result => ?_
          split
          · exact .pure _
          · exact Call.fail_keeps _

/-! ### Scripted commands -/

/-- A look at the machine. -/
theorem getMachine_keeps : Handler.Keeps HandlerFrame (Call.update get) := Call.update_keeps .get

/-- A scripted service that changes itself leaves guests alone. -/
theorem changeScripted_keeps (self : RecordId) (f : UInt32 → Option RecordId → UInt32 × Option RecordId) :
    Handler.Keeps HandlerFrame (changeScripted self f) := by
  refine getMachine_keeps.bind fun s => ?_
  split
  · exact Call.update_keeps (setService_keeps _ _)
  · exact .pure _

/-- What a script sends is staged. -/
theorem sendSource_keeps (self : RecordId) (mode : HandleMode) (source : ObjectSource) :
    Handler.Keeps HandlerFrame (sendSource self mode source) := by
  cases source with
  | newEvent =>
    refine (Call.update_keeps (newEvent_keeps _).sameGuests).bind fun event => ?_
    exact (Call.sendObject_keeps _ _).bind fun _ => .pure _
  | newSession =>
    refine (Call.update_keeps (newSession_keeps _).sameGuests).bind fun ends => ?_
    exact (changeScripted_keeps _ _).bind fun _ => (Call.sendObject_keeps _ _).bind fun _ => .pure _
  | existing object => exact (Call.sendObject_keeps _ _).bind fun _ => .pure _
  | missing => exact .pure _

/-- A step of a script whose failure is dropped does no more than the step may. -/
theorem quietly_keeps {step : Handler Unit} (h : Handler.Keeps HandlerFrame step) : Handler.Keeps HandlerFrame (quietly step) :=
  h.bind fun _ => .pure _

/-- Whatever step a script takes. -/
theorem runStep_keeps (self : RecordId) (step : ScriptStep) : Handler.Keeps HandlerFrame (runStep self step) := by
  cases step with
  | readByte | readBool | readWord | readLongWord => exact (Call.readNumber_keeps _).bind fun _ => .pure _
  | readBytes length => exact (Call.readBytes_keeps _).bind fun _ => .pure _
  | writeByte value | writeBool value | writeBytes bytes => exact quietly_keeps (Call.writeBytes_keeps _)
  | writeWord value | writeLongWord value => exact quietly_keeps (Call.writeNumber_keeps _ _)
  | count =>
    refine (changeScripted_keeps _ _).bind fun _ => getMachine_keeps.bind fun s => ?_
    exact (Call.writeNumber_keeps _ _).bind fun _ => .pure _
  | inBuffer index => exact (Call.readInBuffer_keeps _).bind fun _ => .pure _
  | inPointer index => exact (Call.readInPointer_keeps _).bind fun _ => .pure _
  | outBufferInfo index => exact Handler.Keeps.get.bind fun _ => .pure _
  | outBuffer index bytes => exact quietly_keeps (Call.writeOutBuffer_keeps _ _)
  | outPointer index bytes => exact quietly_keeps (Call.writeOutPointer_keeps _ _)
  | outEither index bytes => exact quietly_keeps (Call.writeOutEither_keeps _ _)
  | readMemory address length => exact (Call.readMemory_keeps _ _).bind fun _ => .pure _
  | writeMemory address bytes => exact quietly_keeps (Call.writeMemory_keeps _ _)
  | inHandle mode index => exact (Call.inHandle_keeps _ _).bind fun _ => .pure _
  | keepHandle mode index => exact (Call.keepHandle_keeps _ _).bind fun _ => .pure _
  | inObject mode index => exact (Call.inObject_keeps _ _).bind fun _ => .pure _
  | signalIn mode index =>
    refine (Call.inObject_keeps _ _).bind fun object => ?_
    split
    · exact (Call.update_keeps (signalEvent_keeps _).sameGuests).bind fun _ => .pure _
    · exact .pure _
  | outObject mode source => exact sendSource_keeps _ _ _
  | sessionDropped =>
    refine getMachine_keeps.bind fun s => ?_
    split <;> exact .pure _
  | makeObject service => exact quietly_keeps (sendFresh_keeps _)
  | who => exact getMachine_keeps.bind fun _ => Handler.Keeps.get.bind fun _ => .pure _
  | serverHandles => exact getMachine_keeps.bind fun _ => Handler.Keeps.get.bind fun _ => .pure _
  | fail e => exact Call.fail_keeps _
  | panic => exact .throw _
  | attempt step => exact runStep_keeps self step
  | idle => exact .pure _

/-- No script does more than a handler may. -/
theorem runScript_keeps (self : RecordId) (steps : List ScriptStep) : Handler.Keeps HandlerFrame (runScript self steps) := by
  induction steps with
  | nil => exact .pure _
  | cons step rest ih =>
    refine .bind (.tryCatch ((runStep_keeps self step).map _) fun _ => .pure _) fun result => ?_
    have htrace (value : TraceValue) := Call.update_keeps (traceStep_keeps value).sameGuests
    split
    · exact (htrace _).bind fun _ => ih
    · refine (htrace _).bind fun _ => ?_
      split
      · exact ih
      · exact Call.fail_keeps _
    · exact .throw _

/-- Whatever command is run on whatever service, and however it ends. -/
theorem invoke_keeps (self : RecordId) (id : UInt32) : Handler.Keeps HandlerFrame (invoke self id) := by
  refine getMachine_keeps.bind fun s => ?_
  split
  · exact invokeSettings_keeps _ _
  · split
    · exact sendFresh_keeps _
    · exact Call.failWith_keeps _
  · exact invokeMonitor_keeps _ _
  · exact invokeApplications_keeps _ _
  · exact invokeManager_keeps _ _ _ _ _
  · exact Call.update_keeps (log_keeps _ _).sameGuests
  · split
    · exact runScript_keeps _ _
    · exact Call.failWith_keeps _

end Service

end Microkernel
