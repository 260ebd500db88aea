import Microkernel.Proofs.Supervising.Launching

/-!
# Shutting a system down

A shutdown that is carried out takes down one context after the other, up to the first that cannot be shut down (`Ends`). What was done
before stays done. That a shutdown was begun is remembered whatever it comes to, and the next one answers at once that all is well; so
an answer means that the system is down only if the work was done for it, or was done before (`shutDown_down_iff`).
-/

namespace Microkernel

open Machine

/-! ## One context -/

namespace Machine

variable {α : Type}

/-- A server that was there is stopped once it was stopped. -/
theorem stopServer_stopped {s : Machine} {id : RecordId} (h : id < s.nextId) : ((stopServer id s).2.server id).stopped = true := by
  rw [stopServer, Update.run_look]
  split
  · have hserver : ((setServer id { s.server id with stopped := true } s).2.server id).stopped = true :=
      congrArg Server.stopped ((server_setServer id id _ s).trans (if_pos rfl))
    have hrest : Keeps StayStopped (do
        closePort (s.server id).port
        closeSessions id
        terminateProcess (s.server id).process none
        log .info s!"{(s.server id).name} successfully stopped.") :=
      (closePort_placid _).bind fun _ => (closeSessions_serving _).bind fun _ => (terminateProcess_serving _ _).bind fun _ =>
        log_placid _ _
    exact (hrest _).stopped id h hserver
  · next hstopped =>
    change (s.server id).stopped = true
    cases hserver : (s.server id).stopped with
    | true => rfl
    | false =>
      rw [hserver] at hstopped
      exact absurd rfl hstopped

/-- Stopping servers one after the other is part of a shutdown. -/
theorem foldl_stopServer_winding {R : Machine → Machine → Prop} [Winding R] (ids : List RecordId) (s : Machine) :
    R s (ids.foldl (fun s id => (stopServer id s).2) s) := by
  have hkept := stopServers_winding (R := R) ids s
  rwa [Update.run_bind, Update.run_forIn] at hkept

/-- Servers are stopped one after the other. -/
theorem foldl_stopServer_stopped (ids : List RecordId) (s : Machine) : ∀ id ∈ ids, id < s.nextId →
    ((ids.foldl (fun s id => (stopServer id s).2) s).server id).stopped = true := by
  induction ids generalizing s with
  | nil => exact fun _ h => absurd h List.not_mem_nil
  | cons first rest ih =>
    intro id hid hlt
    have hfirst : StaysDown s (stopServer first s).2 := stopServer_winding first s
    rcases List.mem_cons.1 hid with rfl | hid
    · have hrest : StaysDown (stopServer id s).2 _ := foldl_stopServer_winding rest _
      exact hrest.stopped id (Nat.lt_of_lt_of_le hlt hfirst.nextId) (stopServer_stopped hlt)
    · exact ih _ id hid (Nat.lt_of_lt_of_le hlt hfirst.nextId)

/-- A registry that was cleared is empty. -/
theorem clearRegistry_services (registry : RecordId) (s : Machine) : ((clearRegistry registry s).2.registry registry).services = {} :=
  congrArg Registry.services ((registry_insert s registry registry _).trans (if_pos rfl))

/-- Once all processes are terminated the process set is empty. -/
theorem terminateProcesses_processes (kernel : RecordId) (hook : Update α) (s : Machine) :
    ((terminateProcesses kernel hook s).2.kernel kernel).processes = {} :=
  congrArg Kernel.processes ((kernel_insert _ kernel kernel _).trans (if_pos rfl))

/-- After a termination that succeeds the process set is empty. -/
theorem terminateAll_processes {kernel : RecordId} {hook : Update α} {s t : Machine} {a : α}
    (h : (terminateAll kernel hook).run s = (.ok a, t)) : (t.kernel kernel).processes = {} := by
  have hrest (thread host : RecordId) (seen : α) : Keeps StaysDown (do
      exitThread thread .returned
      terminateProcess host none
      log .info "All processes terminated"
      return seen : Action α).run :=
    .run_bind (.run_lift (exitThread_placid _ _)) fun _ => .run_bind (.run_lift (terminateProcess_serving _ _)) fun _ =>
      .run_bind (.run_lift (log_placid _ _)) fun _ => .run_pure _
  unfold terminateAll at h
  rw [Action.run_lift_bind, Action.run_look, Action.run_lift_bind, Action.run_lift_bind, Action.run_lift_bind, Action.run_lift_bind,
    Action.run_bind] at h
  split at h
  · next thread _ _ =>
    rw [Action.run_lift_bind, Action.run_lift_bind, Action.run_lift_bind] at h
    have ht : _ = t := congrArg Prod.snd h
    rw [← ht]
    exact (hrest thread _ _ _).processes kernel (terminateProcesses_processes kernel hook _)
  · cases h

end Machine

namespace ServerSet

/-- Frees the name of the service manager, if there is one. -/
def freeManager (set : ServerSet) : Update Unit := do
  if set.isInitialized then
    if let .error e ← (unregisterNamedPort set.kernel managerPortName).run then
      log .warn s!"Failed to unregister {managerPortName}: {e.message}"

/-- Stopping a set stops the servers, frees the name of the manager and clears the registry. -/
theorem stop_run (set : ServerSet) (s : Machine) : set.stop s = (set.emptied,
    (clearRegistry set.registry (set.freeManager (set.stopOrder.foldl (fun s id => (stopServer id s).2) s)).2).2) := by
  unfold stop freeManager
  rw [Update.run_bind, Update.run_forIn]
  generalize set.stopOrder.foldl (fun s id => (stopServer id s).2) s = stopped
  split
  · rw [Update.run_bind, Update.run_bind]
    rcases (unregisterNamedPort set.kernel managerPortName).run stopped with ⟨e | _, t⟩ <;> rfl
  · rfl

/-- Freeing the manager's name is part of a shutdown. -/
theorem freeManager_winding {R : Machine → Machine → Prop} [Winding R] (set : ServerSet) : Keeps R set.freeManager := by
  unfold freeManager
  split
  · refine (unregisterNamedPort_winding _ _).bind fun outcome => ?_
    split
    · exact log_placid _ _
    · exact .pure _
  · exact .pure _

/-- The processes of a context are gone, its registry is empty, and all servers that it had are stopped. -/
structure Downed (set : ServerSet) (m m' : Machine) : Prop where
  processes : (m'.kernel set.kernel).processes = {}
  services : (m'.registry set.registry).services = {}
  stopped : ∀ id ∈ set.stopOrder, id < m.nextId → (m'.server id).stopped = true

/-- A context that is down stays down. -/
theorem Downed.trans {set : ServerSet} {m m' m'' : Machine} (h : set.Downed m m') (hnext : m.nextId ≤ m'.nextId) (hw : StaysDown m' m'') :
    set.Downed m m'' :=
  ⟨hw.processes _ h.processes, hw.services _ h.services,
    fun id hid hlt => hw.stopped id (Nat.lt_of_lt_of_le hlt hnext) (h.stopped id hid hlt)⟩

/-- What is down counting from a later machine is down counting from an earlier one. -/
theorem Downed.earlier {set : ServerSet} {m m' m'' : Machine} (h : set.Downed m' m'') (hnext : m.nextId ≤ m'.nextId) :
    set.Downed m m'' := ⟨h.processes, h.services, fun id hid hlt => h.stopped id hid (Nat.lt_of_lt_of_le hlt hnext)⟩

/-- A set that was stopped has an empty registry. -/
theorem stop_services (set : ServerSet) (s : Machine) : ((set.stop s).2.registry set.registry).services = {} := by
  rw [stop_run]
  exact clearRegistry_services _ _

/-- A set that was stopped has its servers stopped. -/
theorem stop_stopped (set : ServerSet) (s : Machine) :
    ∀ id ∈ set.stopOrder, id < s.nextId → ((set.stop s).2.server id).stopped = true := by
  intro id hid hlt
  have hstop : StaysDown s _ := foldl_stopServer_winding set.stopOrder s
  have hrest : Keeps StaysDown (do set.freeManager; clearRegistry set.registry) :=
    set.freeManager_winding.bind fun _ => Keeps.look fun t => Winding.cleared t set.registry
  rw [stop_run]
  exact (hrest _).stopped id (Nat.lt_of_lt_of_le hlt hstop.nextId) (foldl_stopServer_stopped _ _ id hid hlt)

end ServerSet

namespace Supervisor

variable {α : Type} {s t : Supervisor} {m m' : Machine}

/-- Shutting a set down keeps what resuming and a shutdown keep. -/
theorem shutDownSet_keeps {R : Machine → Machine → Prop} [Winding R] (hresume : ∀ k, Keeps R (resume k)) {hook : Update α}
    (hhook : Keeps R hook) (set : ServerSet) : Keeps R (shutDownSet set hook) :=
  fun m => IsTrans.trans _ _ _ (hresume _ _) (shutDownSet_winding set hhook m)

/-- What is down stays down when a kernel is resumed. -/
theorem resume_staysDown (kernel : RecordId) : Keeps StaysDown (resume kernel) := toggle_staysDown kernel false

/-- What a shutdown makes of a context that it takes down. -/
structure TakenDown (m m' : Machine) (old new : ServerSet) : Prop where
  emptied : new = old.emptied
  downed : old.Downed m m'

/-- A context is taken down, or its shutdown fails. -/
theorem shutDownSet_cases (set : ServerSet) {hook : Update α} (hhook : Keeps StaysDown hook) (m : Machine) :
    (∃ e m', shutDownSet set hook m = (.error e, m')) ∨
      ∃ seen m', shutDownSet set hook m = (.ok (seen, set.emptied), m') ∧ set.Downed m m' := by
  have hterminate := terminateAll_winding (R := StaysDown) set.kernel (stopping_winding set hhook) m
  unfold shutDownSet
  rw [Update.run_bind]
  rcases hrun : (terminateAll set.kernel _).run m with ⟨e | seen, t⟩ <;> rw [hrun] at hterminate
  · exact .inl ⟨.kernel e, _, rfl⟩
  · refine .inr ⟨seen, (set.stop t).2, ?_, ?_⟩
    · dsimp only
      rw [Update.run_bind, set.stop_yields t]
      rfl
    · have hnext : m.nextId ≤ t.nextId := Nat.le_trans (resume_staysDown set.kernel m).nextId hterminate.nextId
      have hstop : StaysDown t (set.stop t).2 := set.stop_winding t
      exact ⟨hstop.processes _ (terminateAll_processes hrun), set.stop_services t,
        fun id hid hlt => set.stop_stopped t id hid (Nat.lt_of_lt_of_le hlt hnext)⟩

/-! ## All contexts -/

/-- What a shutdown does once the system is resumed and the applet context is shut down. -/
def shutDownMain {α : Type} (hook : Update α) : Supervising (Except SupervisorError (Option α)) := do
  match ← shutDownSet (← get).main hook with
  | .error e => return .error e
  | .ok (seen, main) =>
    modify fun s => { s with main }
    log .info "Shutdown complete"
    return .ok (some seen)

/-- The machine in which a shutdown begins: the system is resumed. -/
def resumed (s : Supervisor) (m : Machine) : Machine :=
  if s.paused then s.sets.foldl (fun m set => (toggle set.kernel false m).2) m else m

/-- A shutdown answers at once if it was begun before; otherwise it takes down the applet context and then the main one. -/
theorem shutDown_run {α : Type} (hook : Update α) (s : Supervisor) (m : Machine) : (shutDown hook).run s m =
    if s.isShutDown then ((.ok none, s), m) else
      match s.applet with
      | none => (shutDownMain hook).run { s with isShutDown := true, paused := false } (s.resumed m)
      | some applet =>
        match shutDownSet applet (pure ()) (s.resumed m) with
        | (.error e, m) => ((.error e, { s with isShutDown := true, paused := false }), m)
        | (.ok (_, applet), m) => (shutDownMain hook).run { s with isShutDown := true, paused := false, applet := some applet } m := by
  rcases s with ⟨config, main, applet, layout, events, docked, performance, paused, isShutDown⟩
  unfold shutDown resumed
  rw [Supervising.run_look]
  dsimp only
  split
  · rfl
  · rw [Supervising.run_modify_bind, Supervising.run_look]
    dsimp only
    split
    · rw [Supervising.run_bind, setPaused_run, Supervising.run_look]
      dsimp only [sets]
      generalize List.foldl _ m _ = m
      cases applet with
      | none => rfl
      | some applet =>
        dsimp only
        rw [Supervising.run_lift_bind]
        rcases shutDownSet applet (pure ()) m with ⟨e | ⟨seen, emptied⟩, m'⟩ <;> rfl
    · next hpaused =>
      obtain rfl := eq_false_of_ne_true hpaused
      rw [Supervising.run_look]
      cases applet with
      | none => rfl
      | some applet =>
        dsimp only
        rw [Supervising.run_lift_bind]
        rcases shutDownSet applet (pure ()) m with ⟨e | ⟨seen, emptied⟩, m'⟩ <;> rfl

/-- The main context is taken down, or its shutdown fails. -/
theorem shutDownMain_cases {hook : Update α} (hhook : Keeps StaysDown hook) (s : Supervisor) (m : Machine) :
    (∃ e m', (shutDownMain hook).run s m = ((.error e, s), m')) ∨
      ∃ seen m', (shutDownMain hook).run s m = ((.ok (some seen), { s with main := s.main.emptied }), m') ∧ s.main.Downed m m' := by
  have hset : StaysDown m (shutDownSet s.main hook m).2 := shutDownSet_keeps resume_staysDown hhook s.main m
  unfold shutDownMain
  rw [Supervising.run_look, Supervising.run_lift_bind]
  rcases shutDownSet_cases s.main hhook m with ⟨e, m', hrun⟩ | ⟨seen, m', hrun, hdowned⟩ <;> rw [hrun] at hset ⊢
  · exact .inl ⟨e, m', rfl⟩
  · exact .inr ⟨seen, _, rfl, hdowned.trans hset.nextId (log_placid _ _ _)⟩

section Keeping

variable {R : Machine → Machine → Prop} [Winding R] (hresume : ∀ k, Keeps R (resume k)) {hook : Update α} (hhook : Keeps R hook)

include hresume hhook

/-- Taking down the main context keeps what resuming and a shutdown keep. -/
theorem shutDownMain_keeps (s : Supervisor) (m : Machine) : R m ((shutDownMain hook).run s m).2 := by
  have hset := shutDownSet_keeps hresume hhook s.main m
  unfold shutDownMain
  rw [Supervising.run_look, Supervising.run_lift_bind]
  rcases hrun : shutDownSet s.main hook m with ⟨e | ⟨seen, main⟩, m'⟩ <;> rw [hrun] at hset
  · exact hset
  · exact IsTrans.trans _ _ _ hset (log_placid (R := R) _ _ _)

/-- Once the system is resumed a shutdown keeps what allows it. -/
theorem shutDown_keeps (s : Supervisor) (m : Machine) (hopen : s.isShutDown = false) :
    R (s.resumed m) ((shutDown hook).run s m).2 := by
  rw [shutDown_run, if_neg (by rw [hopen]; exact Bool.false_ne_true)]
  cases s.applet with
  | none => exact shutDownMain_keeps hresume hhook _ _
  | some applet =>
    have happlet := shutDownSet_keeps hresume (Keeps.pure () : Keeps R (pure () : Update Unit)) applet (s.resumed m)
    dsimp only
    rcases hrun : shutDownSet applet (pure ()) (s.resumed m) with ⟨e | ⟨seen, emptied⟩, m'⟩ <;> rw [hrun] at happlet
    · exact happlet
    · exact IsTrans.trans _ _ _ happlet (shutDownMain_keeps hresume hhook _ _)

end Keeping

/-- What is down stays down when the system is resumed. -/
theorem resumed_staysDown (s : Supervisor) (m : Machine) : StaysDown m (s.resumed m) := by
  unfold resumed
  split
  · exact List.foldlRecOn s.sets _ (refl m) fun m' h set _ => IsTrans.trans _ _ _ h (toggle_staysDown set.kernel false m')
  · exact refl m

/-- What a shutdown that is carried out comes to: it is remembered, nothing is paused, and each context is as it was or taken down. -/
structure Ends (s : Supervisor) (m : Machine) (outcome : Except SupervisorError (Option α)) (t : Supervisor) (m' : Machine) :
    Prop where
  isShutDown : t.isShutDown = true
  paused : t.paused = false
  contexts : Alike (fun old new => new = old ∨ TakenDown m m' old new) s t
  complete : outcome.isOk = true → Alike (TakenDown m m') s t

/-- A shutdown that fails ends with contexts that are as they were or taken down. -/
theorem Ends.failed {e : SupervisorError} (hshut : t.isShutDown = true) (hpaused : t.paused = false)
    (h : Alike (fun old new => new = old ∨ TakenDown m m' old new) s t) : Ends s m (.error e : Except SupervisorError (Option α)) t m' :=
  ⟨hshut, hpaused, h, fun hok => by cases hok⟩

/-- A shutdown may come to any answer once all contexts are taken down. -/
theorem Ends.done {outcome : Except SupervisorError (Option α)} (hshut : t.isShutDown = true) (hpaused : t.paused = false)
    (h : Alike (TakenDown m m') s t) : Ends s m outcome t m' := ⟨hshut, hpaused, h.mono fun _ _ => .inr, fun _ => h⟩

/-- A shutdown replaces no kernel and no registry. -/
theorem Ends.homes {outcome : Except SupervisorError (Option α)} (h : Ends s m outcome t m') : SameHomes s t :=
  h.contexts.mono fun old new hnew => by
    rcases hnew with rfl | hnew
    · rfl
    · rw [hnew.emptied]
      rfl

/-- The applet context is taken down first; only if that succeeds the main context is. -/
theorem shutDown_ends {hook : Update α} (hhook : Keeps StaysDown hook) (s : Supervisor) (m : Machine) (hopen : s.isShutDown = false) :
    let r := (shutDown hook).run s m
    Ends s m r.1.1 r.1.2 r.2 := by
  have hresumed := (s.resumed_staysDown m).nextId
  rw [shutDown_run, if_neg (by rw [hopen]; exact Bool.false_ne_true)]
  cases happlet : s.applet with
  | none =>
    rcases shutDownMain_cases hhook { s with isShutDown := true, paused := false, applet := none } (s.resumed m) with
      ⟨e, m', hrun⟩ | ⟨seen, m', hrun, hdowned⟩ <;> dsimp only <;> rw [hrun]
    · exact .failed rfl rfl (.of_none (.inl rfl) happlet rfl)
    · exact .done rfl rfl (.of_none ⟨rfl, hdowned.earlier hresumed⟩ happlet rfl)
  | some applet =>
    have hpure : Keeps StaysDown (pure () : Update Unit) := .pure ()
    have hset := shutDownSet_keeps resume_staysDown hpure applet (s.resumed m)
    rcases shutDownSet_cases applet hpure (s.resumed m) with ⟨e, m₁, hfirst⟩ | ⟨seen, m₁, hfirst, hdowned⟩ <;>
      rw [hfirst] at hset <;> dsimp only <;> rw [hfirst]
    · exact .failed rfl rfl (.of_some (.inl rfl) happlet rfl (.inl rfl))
    · have hnext : m.nextId ≤ m₁.nextId := Nat.le_trans hresumed hset.nextId
      have hkept := shutDownMain_keeps resume_staysDown hhook
        { s with isShutDown := true, paused := false, applet := some applet.emptied } m₁
      have hstays := (hdowned.earlier hresumed).trans hnext hkept
      rcases shutDownMain_cases hhook { s with isShutDown := true, paused := false, applet := some applet.emptied } m₁ with
        ⟨e, m', hrun⟩ | ⟨seen, m', hrun, hmain⟩ <;> rw [hrun] at hstays <;> dsimp only <;> rw [hrun]
      · exact .failed rfl rfl (.of_some (.inl rfl) happlet rfl (.inr ⟨rfl, hstays⟩))
      · exact .done rfl rfl (.of_some ⟨rfl, hmain.earlier hnext⟩ happlet rfl ⟨rfl, hstays⟩)

end Supervisor

namespace Supervision

variable {c : Supervision}

/-! ## The servers of a context -/

/-- What becomes of the servers that a context lists: it lists them on, or they are stopped. -/
structure Carries (m m' : Machine) (old new : ServerSet) : Prop where
  listed : ∀ id ∈ new.stopOrder, id ∈ old.stopOrder ∨ id < m'.nextId
  kept : ∀ id ∈ old.stopOrder, id < m.nextId → id ∈ new.stopOrder ∨ (m'.server id).stopped = true

/-- A set that lists the same servers carries them. -/
theorem Carries.same {m m' : Machine} {old new : ServerSet} (h : new.stopOrder = old.stopOrder) : Carries m m' old new :=
  ⟨fun _ hid => .inl (h ▸ hid), fun _ hid _ => .inl (h ▸ hid)⟩

/-- A context that has stopped its servers lists none. -/
theorem Carries.emptied {m m' : Machine} {old : ServerSet} (h : ∀ id ∈ old.stopOrder, id < m.nextId → (m'.server id).stopped = true) :
    Carries m m' old old.emptied :=
  ⟨fun _ hid => absurd hid List.not_mem_nil, fun id hid hlt => .inr (h id hid hlt)⟩

/-- What holds between two calls. -/
structure Accounts (c : Supervision) : Prop where
  listed : ∀ set ∈ c.supervisor.sets, ∀ id ∈ set.stopOrder, id < c.machine.nextId
  started : ∀ id ∈ c.started, id < c.machine.nextId ∧
    ((∃ set ∈ c.supervisor.sets, id ∈ set.stopOrder) ∨ (c.machine.server id).stopped = true)

/-- A call after which the contexts list what they listed, or have stopped it, keeps the invariant. -/
theorem Accounts.onward (h : c.Accounts) {s : Supervisor} {m : Machine} {started : List RecordId} (isLate : Bool)
    (hstopped : StayStopped c.machine m) (hsets : Supervisor.Alike (Carries c.machine m) c.supervisor s)
    (hstarted : ∀ id ∈ started, id ∈ c.started ∨ ∃ set ∈ s.sets, id ∈ set.stopOrder) : Accounts ⟨s, m, isLate, started⟩ := by
  have hlisted : ∀ set ∈ s.sets, ∀ id ∈ set.stopOrder, id < m.nextId := by
    intro set hset id hid
    obtain ⟨old, hold, hcarries⟩ := hsets.exists_old hset
    rcases hcarries.listed id hid with hid | hlt
    · exact Nat.lt_of_lt_of_le (h.listed old hold id hid) hstopped.nextId
    · exact hlt
  refine ⟨hlisted, fun id hid => ?_⟩
  rcases hstarted id hid with hold | ⟨set, hset, hmem⟩
  · obtain ⟨hlt, ⟨set, hset, hmem⟩ | hdone⟩ := h.started id hold
    · obtain ⟨new, hnew, hcarries⟩ := hsets.exists_new hset
      exact ⟨Nat.lt_of_lt_of_le hlt hstopped.nextId, (hcarries.kept id hmem hlt).imp_left fun hmem => ⟨new, hnew, hmem⟩⟩
    · exact ⟨Nat.lt_of_lt_of_le hlt hstopped.nextId, .inr (hstopped.stopped id hlt hdone)⟩
  · exact ⟨hlisted set hset id hmem, .inl ⟨set, hset, hmem⟩⟩

/-- A call that changes no list keeps the invariant. -/
theorem Accounts.unlisted (h : c.Accounts) {s : Supervisor} {m : Machine} (isLate : Bool) (hstopped : StayStopped c.machine m)
    (hsets : Supervisor.Alike (fun old new => new.stopOrder = old.stopOrder) c.supervisor s) :
    Accounts ⟨s, m, isLate, c.started⟩ :=
  h.onward isLate hstopped (hsets.mono fun _ _ => .same) fun _ => .inl

/-- An applet context that is attached keeps the accounts. -/
theorem Accounts.attach (h : c.Accounts) {set : ServerSet} {joined m : Machine} (isLate : Bool) (hnone : c.supervisor.applet = none)
    (hempty : set.stopOrder = []) (hjoins : Joins set.kernel c.machine joined) (hstopped : StayStopped joined m) :
    Accounts ⟨{ c.supervisor with applet := some set }, m, isLate, c.started⟩ := by
  have hjoined : StayStopped c.machine joined := .of_servers (hjoins.nextId ▸ Nat.le_succ _) hjoins.servers
  have hall : StayStopped c.machine m := IsTrans.trans _ _ _ hjoined hstopped
  have hmain (other : ServerSet) (hother : other ∈ c.supervisor.sets) : other = c.supervisor.main := by
    rcases Supervisor.mem_sets.1 hother with rfl | happlet
    · rfl
    · cases hnone.symm.trans happlet
  refine ⟨fun other hother id hid => ?_, fun id hid => ?_⟩
  · rcases Supervisor.mem_sets.1 hother with rfl | happlet
    · exact Nat.lt_of_lt_of_le (h.listed _ (Supervisor.mem_sets.2 (.inl rfl)) id hid) hall.nextId
    · cases happlet
      rw [hempty] at hid
      exact absurd hid List.not_mem_nil
  · obtain ⟨hlt, ⟨other, hother, hmem⟩ | hdone⟩ := h.started id hid
    · refine ⟨Nat.lt_of_lt_of_le hlt hall.nextId, .inl ⟨c.supervisor.main, Supervisor.mem_sets.2 (.inl rfl), ?_⟩⟩
      exact hmain other hother ▸ hmem
    · exact ⟨Nat.lt_of_lt_of_le hlt hall.nextId, .inr (hall.stopped id hlt hdone)⟩

/-- Whatever is started is listed. -/
theorem Accounts.startServices (h : c.Accounts) : (c.step .startServices).Accounts := by
  obtain ⟨hset, hlater⟩ := c.supervisor.startServices_run c.machine
  obtain ⟨ids, hlaunches, hlisted⟩ := c.supervisor.active.start_listed c.supervisor.config.ignoreMissingServices c.machine
  have hbegun : StayStopped c.machine _ := c.supervisor.active.start_busy c.supervisor.config.ignoreMissingServices c.machine
  rw [Supervision.step]
  generalize c.supervisor.active.start c.supervisor.config.ignoreMissingServices c.machine = begun at hset hlater hlaunches hlisted hbegun
  rcases hrun : Supervisor.startServices.run c.supervisor c.machine with ⟨⟨outcome, s⟩, m⟩
  rw [hrun] at hset hlater
  dsimp only at hset hlater hlaunches hlisted ⊢
  have hcarries : Carries c.machine m c.supervisor.active begun.1.1 := by
    refine ⟨fun id hid => ((hlisted id).1 hid).imp_right fun hid => ?_, fun id hid _ => .inl ((hlisted id).2 (.inl hid))⟩
    exact Nat.lt_of_lt_of_le (hlaunches.fresh id hid).2 (hlater StayStopped).nextId
  have hsets := Supervisor.Alike.setActive (fun _ => .same rfl) hcarries
  rw [← hset] at hsets
  refine h.onward c.isLate (IsTrans.trans _ _ _ hbegun (hlater StayStopped)) hsets fun id hid =>
    (List.mem_append.1 hid).imp_right fun hid => ?_
  obtain ⟨hmade, hnew⟩ := List.mem_filter.1 hid
  rw [Std.TreeMap.mem_keys, ← Std.TreeMap.contains_iff_mem, (hlater SameServers).servers] at hmade
  rw [Bool.not_eq_true'] at hnew
  refine ⟨_, Supervisor.active_mem _, ?_⟩
  rw [hset, Supervisor.active_setActive]
  refine (hlisted id).2 (.inr ((hlaunches.made id hmade).resolve_left ?_))
  rw [hnew]
  exact Bool.false_ne_true

/-- A shutdown brings nothing back. -/
theorem shutDown_staysDown (c : Supervision) (hopen : c.supervisor.isShutDown = false) (hook : Farewell) :
    StaysDown c.machine (c.shutDown hook).2 :=
  IsTrans.trans _ _ _ (c.supervisor.resumed_staysDown c.machine)
    (Supervisor.shutDown_keeps Supervisor.resume_staysDown hook.program_staysDown c.supervisor c.machine hopen)

/-- Every call keeps the invariant. -/
theorem Accounts.step (h : c.Accounts) (call : SupervisorCall) : (c.step call).Accounts := by
  cases call with
  | attachApplet host =>
    rw [Supervision.step]
    rcases Supervisor.attachApplet_cases host c.supervisor c.machine with ⟨e, hrun⟩ |
      ⟨set, joined, m, hrun, hnone, hempty, hjoins, -, hstopped⟩ <;> rw [hrun]
    · exact h.unlisted _ (refl _) (.of_applet (fun _ => rfl) rfl rfl)
    · exact h.attach _ hnone hempty hjoins hstopped
  | startServices => exact h.startServices
  | stopServices =>
    rw [Supervision.step, Supervisor.stopServices_run]
    have hactive := Carries.emptied (m := c.machine) (c.supervisor.active.stop_stopped c.machine)
    exact h.onward _ (c.supervisor.active.stop_winding (R := StaysDown) _).toStayStopped (.setActive (fun _ => .same rfl) hactive)
      fun _ => .inl
  | setPaused paused =>
    have hdown (sets : List ServerSet) : StaysDown c.machine (sets.foldl (fun m set => (toggle set.kernel paused m).2) c.machine) :=
      List.foldlRecOn sets _ (refl _) fun m hm set _ => IsTrans.trans _ _ _ hm (toggle_staysDown set.kernel paused m)
    rw [Supervision.step, Supervisor.setPaused_run]
    exact h.unlisted _ (hdown _).toStayStopped (.of_applet (fun _ => rfl) rfl rfl)
  | changeDockedMode docked =>
    obtain ⟨docked', performance, events, m, hrun, hkept⟩ := Supervisor.changeDockedMode_run docked c.supervisor c.machine
    rw [Supervision.step, hrun]
    exact h.unlisted _ (hkept StayStopped) (.of_applet (fun _ => rfl) rfl rfl)
  | edit f => exact h.unlisted _ (refl _) (.setActive (P := fun old new => new.stopOrder = old.stopOrder) (fun _ => rfl) rfl)
  | shutDown hook =>
    rw [Supervision.step]
    cases hdown : c.supervisor.isShutDown with
    | true =>
      have hrun : c.shutDown hook = ((.ok none, c.supervisor), c.machine) := by
        rw [Supervision.shutDown, Supervisor.shutDown_run, if_pos hdown]
      rw [hrun]
      exact h.unlisted _ (refl _) (.of_applet (fun _ => rfl) rfl rfl)
    | false =>
      have hends := Supervisor.shutDown_ends hook.program_staysDown c.supervisor c.machine hdown
      have hkept := c.shutDown_staysDown hdown hook
      refine h.onward _ hkept.toStayStopped (hends.contexts.mono fun old new hnew => ?_) fun _ => .inl
      rcases hnew with rfl | ⟨rfl, hdowned⟩
      · exact .same rfl
      · exact .emptied hdowned.stopped
  | other work => exact h.unlisted _ (work.stopped c.machine) (.of_applet (fun _ => rfl) rfl rfl)

/-- The accounts are kept after all calls. -/
theorem accounts_after {config : SupervisorConfig} {host : Host} {s : Machine} {calls : List SupervisorCall}
    (h : after config host s calls = .ok c) : c.Accounts := by
  unfold after at h
  split at h
  · next supervisor m hnew =>
    obtain rfl := Except.ok.inj h
    obtain ⟨hnone, -, -, hempty, -⟩ := Supervisor.new_cases hnew
    have hstart : Accounts { supervisor, machine := m } := by
      refine ⟨fun set hset id hid => ?_, fun _ hid => absurd hid List.not_mem_nil⟩
      rcases Supervisor.mem_sets.1 hset with rfl | happlet
      · rw [hempty] at hid
        exact absurd hid List.not_mem_nil
      · cases hnone.symm.trans happlet
    exact List.foldlRecOn calls step hstart fun c hc call _ => hc.step call
  · cases h

/-! ## A system that is down -/

/-- No context has a process, a registration or a service left, and whatever server was started is stopped. -/
structure Down (c : Supervision) : Prop where
  contexts : ∀ set ∈ c.supervisor.sets, (c.machine.kernel set.kernel).processes = {} ∧
    (c.machine.registry set.registry).services = {} ∧ set.table = {}
  servers : ∀ id ∈ c.started, (c.machine.server id).stopped = true

/-- When a shutdown succeeds the system is down, unless a shutdown was begun before and did not come to that. -/
theorem shutDown_down_iff {config : SupervisorConfig} {host : Host} {s : Machine} {calls : List SupervisorCall} {hook : Farewell}
    (h : after config host s calls = .ok c) (hok : (c.shutDown hook).1.1.isOk = true) :
    (c.step (.shutDown hook)).Down ↔ c.supervisor.isShutDown = false ∨ c.Down := by
  have haccounts := accounts_after h
  cases hdown : c.supervisor.isShutDown with
  | true =>
    have hrun : c.shutDown hook = ((.ok none, c.supervisor), c.machine) := by
      rw [Supervision.shutDown, Supervisor.shutDown_run, if_pos hdown]
    have hsame : c.step (.shutDown hook) = c := by
      rw [Supervision.step, hrun, hdown, Bool.and_true]
    rw [hsame]
    exact (or_iff_right nofun).symm
  | false =>
    refine iff_of_true ?_ (.inl rfl)
    have hends := (Supervisor.shutDown_ends hook.program_staysDown c.supervisor c.machine hdown).complete hok
    have hkept := c.shutDown_staysDown hdown hook
    refine ⟨fun set hset => ?_, fun id hid => ?_⟩
    · obtain ⟨old, -, rfl, hdowned⟩ := hends.exists_old hset
      exact ⟨hdowned.processes, hdowned.services, rfl⟩
    · obtain ⟨hlt, ⟨set, hset, hmem⟩ | hdone⟩ := haccounts.started id hid
      · obtain ⟨-, -, -, hdowned⟩ := hends.exists_new hset
        exact hdowned.stopped id hmem hlt
      · exact hkept.stopped id hlt hdone

/-- Services are started, an applet context is attached, and the system is paused. -/
def running : List SupervisorCall := [.startServices, .attachApplet plainHost, .setPaused true]

/-- Services that were started and paused are down after a shutdown. -/
theorem shutDown_down_iff_running : ∃ c, after {} plainHost {} running = .ok c ∧ c.started.length = 4 ∧
    (c.shutDown .silent).1.1.isOk = true ∧ (c.step (.shutDown .silent)).Down := by
  have hrun : (after {} plainHost {} running).toOption.map (fun c =>
      (c.started.length, (c.shutDown .silent).1.1.isOk, c.supervisor.isShutDown)) = some (4, true, false) := by
    decide +kernel
  cases h : after {} plainHost {} running with
  | error e => rw [h] at hrun; cases hrun
  | ok c =>
    rw [h] at hrun
    obtain ⟨hstarted, hrest⟩ := Prod.mk.inj (Option.some.inj hrun)
    obtain ⟨hok, hopen⟩ := Prod.mk.inj hrest
    exact ⟨c, rfl, hstarted, hok, (shutDown_down_iff h hok).2 (.inl hopen)⟩

/-- Somebody takes all memory for services that the services left. -/
def filling : Elsewhere where
  run s := ((newSharedMemory 0 .service (0x08000000 - 8 * pageSize) .readWrite .read).run s).2
  pace := newSharedMemory_placid _ _ _ _ _
  stopped := newSharedMemory_placid _ _ _ _ _

/-- Services are started, and a shutdown fails for want of memory. -/
def crowded : List SupervisorCall := [.startServices, .other filling, .shutDown .silent]

/-- A second shutdown succeeds while the services run. -/
theorem shutDown_down_false : ¬∀ (config : SupervisorConfig) (host : Host) (calls : List SupervisorCall) (hook : Farewell)
    (c : Supervision), after config host {} calls = .ok c → (c.shutDown hook).1.1.isOk = true → (c.step (.shutDown hook)).Down := by
  intro hdowns
  have hrun : (after {} plainHost {} crowded).toOption.map (fun c => ((c.shutDown .silent).1.1.isOk,
      c.started.map fun id => ((c.step (.shutDown .silent)).machine.server id).stopped)) =
        some (true, [false, false, false, false]) := by
    decide +kernel
  cases h : after {} plainHost {} crowded with
  | error e => rw [h] at hrun; cases hrun
  | ok c =>
    rw [h] at hrun
    obtain ⟨hok, hservers⟩ := Prod.mk.inj (Option.some.inj hrun)
    have hdown := hdowns {} plainHost crowded .silent c h hok
    have hall : ∀ stopped ∈ c.started.map fun id => ((c.step (.shutDown .silent)).machine.server id).stopped, stopped = true := by
      intro stopped hmem
      obtain ⟨id, hid, rfl⟩ := List.mem_map.1 hmem
      exact hdown.servers id hid
    rw [hservers] at hall
    cases hall false (List.mem_cons_self ..)

end Supervision

end Microkernel
