import Microkernel.Proofs.Teardown.Stages

/-!
# What is seen of a process that is ended

Of a machine, ending a process depends on and changes little: how far the process and its threads are, what the process holds, how many
handles name each object, and the audit log of the kernel (`Scene`). Every program that has a part in it does to the scene what a
function on scenes says.
-/

namespace Microkernel.Machine

/-- What ending a process has to do with. -/
@[ext]
structure Scene where
  state : ProcessState
  handles : HandleTable KernelObject
  space : AddressSpace
  threads : List RecordId
  kernel : RecordId
  pid : Nat
  threadState : RecordId → ThreadState
  handleCount : RecordId → Nat
  audit : AuditLog

/-- The scene of a process. -/
def scene (s : Machine) (id : RecordId) : Scene where
  state := (s.process id).state
  handles := (s.process id).handles
  space := (s.process id).space
  threads := (s.process id).threads
  kernel := (s.process id).kernel
  pid := (s.process id).pid
  threadState th := (s.thread th).state
  handleCount := s.handleCount
  audit := (s.kernel (s.process id).kernel).audit

namespace Scene

/-- A thread of the scene is in another state. -/
def withThread (x : Scene) (th : RecordId) (state : ThreadState) : Scene :=
  { x with threadState := fun other => if other = th then state else x.threadState other }

/-- Bindings are closed: objects have as many handles less as the bindings name them. -/
def closing (x : Scene) (bindings : List (Handle × KernelObject)) : Scene :=
  { x with handleCount := fun o => x.handleCount o - bindings.countP (·.2.id = o) }

/-- What the process holds is released. -/
def released (x : Scene) : Scene :=
  { x.closing x.handles.bindings with handles := x.handles.drain.2, space := {}, state := .terminated }

/-- Closing a binding and then the others closes all of them. -/
theorem closing_cons (x : Scene) (b : Handle × KernelObject) (rest : List (Handle × KernelObject)) :
    (x.closing [b]).closing rest = x.closing (b :: rest) := by
  refine Scene.ext rfl rfl rfl rfl rfl rfl rfl (funext fun o => ?_) rfl
  change x.handleCount o - _ - _ = x.handleCount o - _
  rw [List.countP_cons, List.countP_cons, List.countP_nil, Nat.zero_add, Nat.sub_sub, Nat.add_comm]

end Scene

variable {id : RecordId} {s t : Machine}

/-! ## Programs that are not seen -/

/-- Processes, threads, handle counts and audit logs are the same. -/
structure Unseen (s t : Machine) : Prop where
  kernels : t.kernels = s.kernels
  processes : t.processes = s.processes
  threads : t.threads = s.threads
  handleCounts : t.handleCounts = s.handleCounts

instance : IsPreorder Machine Unseen where
  refl _ := ⟨rfl, rfl, rfl, rfl⟩
  trans _ _ _ h h' := ⟨h'.kernels.trans h.kernels, h'.processes.trans h.processes, h'.threads.trans h.threads,
    h'.handleCounts.trans h.handleCounts⟩

/-- What is unseen leaves every scene. -/
theorem Unseen.scene (h : Unseen s t) (id : RecordId) : t.scene id = s.scene id := by
  unfold Machine.scene process thread kernel handleCount
  rw [h.kernels, h.processes, h.threads, h.handleCounts]

theorem wake_unseen (l : WaitList) : Keeps Unseen (wake l) := fun _ => ⟨rfl, rfl, rfl, rfl⟩

theorem log_unseen (level : Level) (text : String) : Keeps Unseen (log level text) := fun _ => ⟨rfl, rfl, rfl, rfl⟩

theorem setSession_unseen (id : RecordId) (x : Session) : Keeps Unseen (setSession id x) := fun _ => ⟨rfl, rfl, rfl, rfl⟩

theorem setPort_unseen (id : RecordId) (p : Port) : Keeps Unseen (setPort id p) := fun _ => ⟨rfl, rfl, rfl, rfl⟩

theorem completeRequest_unseen (id : RecordId) (result : Except KernelError Unit) : Keeps Unseen (completeRequest id result) := by
  refine Keeps.get.bind fun s => ?_
  dsimp only
  split
  · exact Keeps.bind (fun _ => ⟨rfl, rfl, rfl, rfl⟩) fun _ => wake_unseen _
  · exact .pure _

/-- Closing a client end is unseen. -/
theorem closeClientSession_unseen (client : RecordId) : Keeps Unseen (closeClientSession client) := by
  refine Keeps.get.bind fun s => Keeps.get.bind fun s' => ?_
  split
  · exact (setSession_unseen _ _).bind fun _ => wake_unseen _
  · exact .pure _

/-- Closing a server end is unseen. -/
theorem closeServerSession_unseen (server : RecordId) : Keeps Unseen (closeServerSession server) := by
  refine Keeps.get.bind fun s => Keeps.get.bind fun s' => ?_
  split
  · refine (setSession_unseen _ _).bind fun _ => ?_
    refine Keeps.bind (.forIn fun request _ => (completeRequest_unseen _ _).bind fun _ => .pure _) fun _ => ?_
    split
    · exact Keeps.get.bind fun _ => (setPort_unseen _ _).bind fun _ => wake_unseen _
    · exact wake_unseen _
  · exact .pure _

theorem closePort_unseen (serverPort : RecordId) : Keeps Unseen (closePort serverPort) := by
  refine Keeps.get.bind fun s => Keeps.get.bind fun s' => ?_
  split
  · refine (setPort_unseen _ _).bind fun _ => ?_
    refine Keeps.bind (.forIn fun server _ => (closeServerSession_unseen _).bind fun _ => .pure _) fun _ => ?_
    exact Keeps.get.bind fun _ => wake_unseen _
  · exact .pure _

/-! ## Handles -/

/-- An object has one handle less; what the last one closes is not seen. -/
theorem scene_handleClosed (object : KernelObject) (s : Machine) (handle : Handle) :
    (handleClosed object s).2.scene id = (s.scene id).closing [(handle, object)] := by
  let counted := { s with handleCounts := s.handleCounts.insert object.id (s.handleCount object.id - 1) }
  have hcounted : counted.scene id = (s.scene id).closing [(handle, object)] := by
    refine Scene.ext rfl rfl rfl rfl rfl rfl rfl (funext fun o => ?_) rfl
    change (s.handleCounts.insert object.id _).getD o 0 = s.handleCount o - [(handle, object)].countP (·.2.id = o)
    rw [Records.getD_insert, List.countP_cons, List.countP_nil]
    by_cases heq : o = object.id
    · subst heq
      simp
    · rw [if_neg heq, if_neg (by simpa using Ne.symm heq)]
      rfl
  have hclosed : Unseen counted (handleClosed object s).2 := by
    unfold handleClosed
    rw [Update.run_look, Update.run_bind]
    refine (?_ : Keeps Unseen _) counted
    split
    · split
      · exact closeClientSession_unseen _
      · exact closeServerSession_unseen _
      · exact closePort_unseen _
      · exact .pure _
    · exact .pure _
  exact (hclosed.scene id).trans hcounted

/-- Closing bindings is seen as just that. -/
theorem scene_closeBindings (bindings : List (Handle × KernelObject)) (s : Machine) :
    (closeBindings bindings s).2.scene id = (s.scene id).closing bindings := by
  induction bindings generalizing s with
  | nil => rfl
  | cons b rest ih =>
    rw [closeBindings, List.forIn_cons]
    refine (ih (handleClosed b.2 s).2).trans ?_
    rw [scene_handleClosed b.2 s b.1, Scene.closing_cons]

/-! ## Processes and threads -/

/-- The process that was set is the one that is found. -/
theorem setProcess_process (id : RecordId) (p : Process) (s : Machine) : (setProcess id p s).2.process id = p :=
  (process_insert s id id p).trans (if_pos rfl)

/-- Setting a process is seen as its state, its handles and its mappings, if the rest is as it was. -/
theorem scene_setProcess {p : Process} (hthreads : p.threads = (s.process id).threads) (hkernel : p.kernel = (s.process id).kernel)
    (hpid : p.pid = (s.process id).pid) :
    (setProcess id p s).2.scene id = { s.scene id with state := p.state, handles := p.handles, space := p.space } := by
  unfold scene
  rw [setProcess_process, hthreads, hkernel, hpid]
  rfl

/-- Setting a thread is seen as its state. -/
theorem scene_setThread (th : RecordId) (x : Thread) : (setThread th x s).2.scene id = (s.scene id).withThread th x.state := by
  refine Scene.ext rfl rfl rfl rfl rfl rfl (funext fun other => ?_) rfl rfl
  change ((s.threads.insert th x).getD other default).state = _
  rw [Records.getD_insert]
  unfold Scene.withThread
  dsimp only
  split <;> rfl

/-- A thread that is in the state it was in changes no scene. -/
theorem withThread_same (s : Machine) (th : RecordId) : (s.scene id).withThread th (s.thread th).state = s.scene id := by
  refine Scene.ext rfl rfl rfl rfl rfl rfl (funext fun other => ?_) rfl rfl
  unfold Scene.withThread
  dsimp only
  split
  · next heq => rw [heq]; rfl
  · rfl

/-- Asking a thread to exit is not seen. -/
theorem scene_requestTermination (th : RecordId) (s : Machine) : (requestTermination th s).2.scene id = s.scene id :=
  (scene_setThread th { s.thread th with terminationRequested := true }).trans (withThread_same s th)

/-- Setting the pause flag is not seen. -/
theorem scene_setPaused (paused : Bool) (s : Machine) : (setPaused id paused s).2.scene id = s.scene id :=
  scene_setProcess rfl rfl rfl

/-- Moving a thread is seen as its next state, if it has one. -/
theorem scene_moveThread (id th : RecordId) (event : ThreadEvent) (s : Machine) : (moveThread th event s).2.scene id =
    (s.scene id).withThread th (((s.thread th).state.next? event).getD (s.thread th).state) := by
  rw [moveThread, Update.run_look]
  cases (s.thread th).state.next? event with
  | none => exact (withThread_same s th).symm
  | some state =>
    have hwake : Keeps Unseen (if state = .exited then wake (s.thread th).waiters else pure ()) := by
      split
      · exact wake_unseen _
      · exact .pure _
    exact ((hwake _).scene id).trans (scene_setThread th { s.thread th with state })

/-- Whether a process that is asked to can begin to terminate. -/
theorem scene_moveProcess (id : RecordId) (event : ProcessEvent) (s : Machine) :
    (moveProcess id event s).1 = ((s.process id).state.next? event).isSome ∧ (moveProcess id event s).2.scene id =
      { s.scene id with state := ((s.process id).state.next? event).getD (s.process id).state } := by
  rw [moveProcess, Update.run_look]
  cases (s.process id).state.next? event with
  | none => exact ⟨rfl, rfl⟩
  | some state => exact ⟨rfl, scene_setProcess rfl rfl rfl⟩

/-- The end of a body is not seen. -/
theorem scene_endBody (th : RecordId) (ending : ThreadEnd) (s : Machine) : (endBody th ending s).2.scene id = s.scene id := by
  have hactivity (s : Machine) : (setActivity th .none s).2.scene id = s.scene id :=
    (scene_setThread th { s.thread th with activity := .none }).trans (withThread_same s th)
  rw [endBody, Update.run_look, Update.run_look]
  cases ending with
  | returned => exact hactivity s
  | failed e => cases e <;> exact hactivity _
  | panicked => exact hactivity _

/-! ## Ends -/

/-- A process that runs begins to terminate; one that is terminating or has terminated is left alone, with the whole machine. -/
theorem beginEnding_cases (id : RecordId) (s : Machine) :
    ((s.process id).state.isTerminating = false ∧ ∃ t, beginEnding id s = (true, t) ∧
      t.scene id = { s.scene id with state := .terminating }) ∨
    (s.process id).state.isTerminating = true ∧ beginEnding id s = (false, s) := by
  rw [beginEnding, Update.run_bind, moveProcess, Update.run_look]
  cases hending : (s.process id).state.isTerminating with
  | false =>
    have hnext : (s.process id).state.next? .beginTermination = some .terminating := by
      cases hstate : (s.process id).state <;> rw [hstate] at hending <;> first | rfl | cases hending
    rw [hnext]
    exact .inl ⟨rfl, _, rfl, ((log_unseen .info _ _).scene id).trans (scene_setProcess rfl rfl rfl)⟩
  | true =>
    have hnext : (s.process id).state.next? .beginTermination = none := by
      cases hstate : (s.process id).state <;> rw [hstate] at hending <;> first | rfl | cases hending
    rw [hnext]
    exact .inr ⟨rfl, rfl⟩

/-- What a process is when it is drained. -/
def drained (p : Process) : Process := { p with handles := p.handles.drain.2, space := {} }

/-- A machine after the bindings of a process were closed. -/
def closeAllOf (id : RecordId) (s : Machine) : Machine :=
  (closeBindings (s.process id).handles.bindings (setProcess id (drained (s.process id)) s).2).2

/-- A process whose bindings were all closed is drained. -/
theorem process_closeAllOf (id : RecordId) (s : Machine) : (s.closeAllOf id).process id = drained (s.process id) := by
  have hclosed : Keeps SameOwners (closeBindings (s.process id).handles.bindings) :=
    .forIn fun b _ => (handleClosed_keeps b.2).bind fun _ => .pure _
  rw [process, closeAllOf, (hclosed _).processes]
  exact setProcess_process id _ s

/-- Closing all bindings of a process is seen as closing them and dropping what it holds. -/
theorem scene_closeAllOf (id : RecordId) (s : Machine) : (s.closeAllOf id).scene id =
    { (s.scene id).closing (s.process id).handles.bindings with handles := (s.process id).handles.drain.2, space := {} } := by
  rw [closeAllOf, scene_closeBindings, scene_setProcess (p := drained (s.process id)) rfl rfl rfl]
  rfl

/-- A terminating process is drained, what was bound is closed, and the process is terminated; otherwise nothing happens. -/
theorem release_cases (id : RecordId) (s : Machine) :
    ((s.process id).state = .terminating ∧ release id s =
      (true, (setProcess id { drained (s.process id) with state := .terminated } (s.closeAllOf id)).2)) ∨
    (s.process id).state ≠ .terminating ∧ release id s = (false, s) := by
  rw [release, Update.run_look]
  by_cases hstate : (s.process id).state = .terminating
  · have hnext : (s.process id).state.next? .finishTermination = some .terminated := by
      rw [hstate]
      rfl
    refine .inl ⟨hstate, ?_⟩
    rw [hnext, ← process_closeAllOf id s]
    rfl
  · have hnext : (s.process id).state.next? .finishTermination = none := by
      cases h : (s.process id).state
      case terminating => exact absurd h hstate
      all_goals rfl
    refine .inr ⟨hstate, ?_⟩
    rw [hnext]
    rfl

/-- Releasing a process is seen as closing its bindings, dropping what it holds and making it terminated. -/
theorem scene_release (id : RecordId) (s : Machine) :
    (setProcess id { drained (s.process id) with state := .terminated } (s.closeAllOf id)).2.scene id = (s.scene id).released := by
  rw [scene_setProcess (by rw [process_closeAllOf]) (by rw [process_closeAllOf]) (by rw [process_closeAllOf]), scene_closeAllOf]
  rfl

/-- What is told is recorded. -/
theorem scene_tellTerminated (id : RecordId) (s : Machine) : ∃ time, (tellTerminated id s).2.scene id =
    { s.scene id with audit := ((s.scene id).audit.record (.processTerminated (s.scene id).pid) time).2 } := by
  refine ⟨(s.kernel (s.process id).kernel).elapsed, ?_⟩
  refine Scene.ext rfl rfl rfl rfl rfl rfl rfl rfl ?_
  change ((s.kernels.insert (s.process id).kernel _).getD (s.process id).kernel default).audit = _
  rw [Records.getD_insert, if_pos rfl]
  rfl

end Microkernel.Machine
