import Microkernel.Proofs.Supervising.Hosting
import Microkernel.Proofs.Supervising.Shutdown

/-!
# Initializations that are undone

Whatever an initialization comes to, stopping the set undoes it: each server that was started is stopped, newest first, its host
process is terminated, nothing is registered or listed any more, and the name of the service manager is free again, so that services
can be started once more (`stop_undoes_start`). That takes a kernel whose number of cores is accepted in the capabilities of a service
host (`Kernel.TakesHost`); one without cores is not (`restart_false`).
-/

namespace Microkernel

/-! ## Host processes -/

namespace Machine

variable {α β : Type} {s t u : Machine} {id : RecordId}

/-- A process that has begun to end does not come back. -/
def Begun (_ : RecordId) (p q : Process) : Prop := p.state.isTerminating = true → q.state.isTerminating = true

instance (id : RecordId) : IsPreorder Process (Begun id) where
  refl _ h := h
  trans _ _ _ h h' := fun hp => h' (h hp)

instance : Tame Begun where
  waited _ _ _ h := h
  paused _ _ _ h := h
  moved _ _ _ _ _ hnext h := ProcessState.ending_of_next? hnext h
  ended _ _ _ _ := rfl

/-- A process is not left on its way to the end unless it was, and one that is terminated stays so. -/
structure Settles (id : RecordId) (p q : Process) : Prop where
  terminating : q.state = .terminating → p.state = .terminating
  terminated : p.state = .terminated → q.state = .terminated

instance (id : RecordId) : IsPreorder Process (Settles id) where
  refl _ := ⟨fun h => h, fun h => h⟩
  trans _ _ _ h h' := ⟨fun hr => h.terminating (h'.terminating hr), fun hp => h'.terminated (h.terminated hp)⟩

instance : Passive Settles where
  waited _ _ _ := ⟨fun h => h, fun h => h⟩
  paused _ _ _ := ⟨fun h => h, fun h => h⟩

instance : Ending Settles where
  ended _ _ _ := ⟨nofun, fun _ => rfl⟩

/-- The program terminates a process that has begun to end, and leaves no other one on its way. -/
def Finishes (id : RecordId) (p : Update α) : Prop := ∀ s, (s.process id).state.isTerminating = true →
  Frame Settles s (p s).2 ∧ ((p s).2.process id).state = .terminated

namespace Finishes

/-- A program finishes a process also behind another one that settles processes and lets none come back. -/
theorem after {p : Update α} {f : α → Update β} (hsettles : Keeps (Frame Settles) p) (hbegun : Keeps (Frame Begun) p)
    (hf : ∀ a, Finishes id (f a)) : Finishes id (p >>= f) := by
  intro s h
  obtain ⟨hrest, hend⟩ := hf (p s).1 (p s).2 ((hbegun s).process id h)
  exact ⟨IsTrans.trans _ _ _ (hsettles s) hrest, hend⟩

/-- Finishing a termination finishes the process. -/
theorem finishTermination (id : RecordId) : Finishes id (Machine.finishTermination id) :=
  fun s h => ⟨finishTermination_frame id s, finishTermination_ends h⟩

/-- A process begins to end, and a program terminates it. -/
theorem begin {p : Bool → Update α} (hp : Finishes id (p true)) (h : (s.process id).state.isTerminating = false) :
    Frame Settles s ((moveProcess id .beginTermination >>= p) s).2 ∧
      (((moveProcess id .beginTermination >>= p) s).2.process id).state = .terminated := by
  have hmove : moveProcess id .beginTermination s = (true, (setProcess id { s.process id with state := .terminating } s).2) := by
    rw [moveProcess, Update.run_look]
    cases hs : (s.process id).state with
    | created | running => rfl
    | terminating | terminated =>
      rw [hs] at h
      cases h
  have hbegun (other : RecordId) : (setProcess id { s.process id with state := .terminating } s).2.process other =
      if other = id then { s.process id with state := .terminating } else s.process other := process_insert s id other _
  rw [Update.run_bind, hmove]
  obtain ⟨hframe, hend⟩ := hp (setProcess id { s.process id with state := .terminating } s).2 (by rw [hbegun, if_pos rfl]; rfl)
  refine ⟨⟨hframe.nextId, hframe.kernel, fun other => ?_⟩, hend⟩
  by_cases hother : other = id
  · subst hother
    exact ⟨fun hleft => absurd (hend.symm.trans hleft) (by decide), fun _ => hend⟩
  · have hsettles := hframe.process other
    rwa [hbegun, if_neg hother] at hsettles

end Finishes

/-- What a process does when one of its threads has exited leaves no process on its way. -/
theorem threadExited_settles (process : RecordId) : Keeps (Frame Settles) (threadExited process) := by
  refine Keeps.look fun s => ?_
  split
  · split
    · next hrunning => exact (Finishes.begin (.finishTermination process) (by rw [hrunning]; rfl)).1
    · exact finishTermination_frame _ s
  · exact refl s

/-- A process that is terminated by somebody outside is terminated at once. -/
theorem terminateProcess_finishes (id : RecordId) (s : Machine) : Frame Settles s (terminateProcess id none s).2 ∧
    ((s.process id).state ≠ .terminating → ((terminateProcess id none s).2.process id).state = .terminated) := by
  cases h : (s.process id).state.isTerminating with
  | true =>
    have hnext : (s.process id).state.next? .beginTermination = none := by
      cases hs : (s.process id).state with
      | terminating | terminated => rfl
      | created | running =>
        rw [hs] at h
        cases h
    have hrun : (terminateProcess id none s).2 = s := by
      rw [terminateProcess, Update.run_bind, moveProcess, Update.run_look]
      dsimp only
      rw [hnext]
      rfl
    rw [hrun]
    refine ⟨refl s, fun hnot => ?_⟩
    cases hs : (s.process id).state with
    | terminated => rfl
    | terminating => exact absurd hs hnot
    | created | running =>
      rw [hs] at h
      cases h
  | false =>
    have hstop {R : RecordId → Process → Process → Prop} [∀ id, IsPreorder Process (R id)]
        (hthread : ∀ thread, Keeps (Frame R) (stopThread thread)) (threads : List RecordId) : Keeps (Frame R) (do
          for thread in threads do
            if some thread ≠ none then stopThread thread) := by
      refine .bind (.forIn fun thread _ => ?_) fun _ => .pure _
      split
      · exact (hthread _).bind fun _ => .pure _
      · exact .pure _
    rw [terminateProcess]
    refine And.imp_right (fun hend _ => hend) (Finishes.begin ?_ h)
    rw [if_pos rfl]
    refine .after .get .get fun s => .after (log_frame _ _) (log_frame _ _) fun _ => ?_
    refine .after (.forIn fun _ _ => (requestTermination_frame _).bind fun _ => .pure _)
      (.forIn fun _ _ => (requestTermination_frame _).bind fun _ => .pure _) fun _ => ?_
    refine .after (setPaused_frame _ _) (setPaused_frame _ _) fun _ => ?_
    refine .after (hstop (stopThread_frame_of threadExited_settles) _) (hstop stopThread_frame _) fun _ => .after .get .get fun t => ?_
    exact Finishes.finishTermination id

/-! ## Servers -/

/-- Just these servers are stopped, and the processes that they run on are terminated. -/
structure Stops (ids : List RecordId) (s t : Machine) : Prop where
  others : ∀ id ∉ ids, (t.server id).stopped = (s.server id).stopped
  process : ∀ id, (t.server id).process = (s.server id).process
  settles : ∀ id, Settles id (s.process id) (t.process id)
  stopped : ∀ id ∈ ids, (t.server id).stopped = true
  ended : ∀ id ∈ ids, (s.server id).stopped = false → (s.process (s.server id).process).state ≠ .terminating →
    (t.process (t.server id).process).state = .terminated

namespace Stops

variable {ids ids' : List RecordId}

/-- Servers that were stopped in two parts were stopped in a row. -/
theorem trans (h : Stops ids s t) (h' : Stops ids' t u) : Stops (ids ++ ids') s u where
  others id hid := by
    rw [List.mem_append, not_or] at hid
    exact (h'.others id hid.2).trans (h.others id hid.1)
  process id := (h'.process id).trans (h.process id)
  settles id := IsTrans.trans _ _ _ (h.settles id) (h'.settles id)
  stopped id hid := by
    by_cases hlater : id ∈ ids'
    · exact h'.stopped id hlater
    · rw [h'.others id hlater]
      exact h.stopped id ((List.mem_append.1 hid).resolve_right hlater)
  ended id hid hrunning hhost := by
    by_cases hfirst : id ∈ ids
    · rw [h'.process id]
      exact (h'.settles _).terminated (h.ended id hfirst hrunning hhost)
    · refine h'.ended id ((List.mem_append.1 hid).resolve_left hfirst) ((h.others id hfirst).trans hrunning) fun hleft => hhost ?_
      rw [h.process id] at hleft
      exact (h.settles _).terminating hleft

/-- What is done afterwards to neither servers nor processes. -/
theorem before (h : Stops ids s t) (h' : SameHosts t u) : Stops ids s u where
  others id hid := by
    rw [← h.others id hid, Machine.server, h'.servers, Machine.server]
  process id := by
    rw [← h.process id, Machine.server, h'.servers, Machine.server]
  settles id := by
    have hsame : u.process id = t.process id := by rw [Machine.process, h'.processes, Machine.process]
    rw [hsame]
    exact h.settles id
  stopped id hid := by
    rw [Machine.server, h'.servers]
    exact h.stopped id hid
  ended id hid hrunning hhost := by
    rw [Machine.server, h'.servers, Machine.process, h'.processes]
    exact h.ended id hid hrunning hhost

end Stops

/-- The same servers are stopped, and they run on the same processes. -/
structure SameRoles (s t : Machine) : Prop where
  stopped : ∀ id, (t.server id).stopped = (s.server id).stopped
  process : ∀ id, (t.server id).process = (s.server id).process

/-- Where servers stay their roles do. -/
theorem SameRoles.of_servers (h : t.servers = s.servers) : SameRoles s t :=
  ⟨fun id => by rw [Machine.server, h, Machine.server], fun id => by rw [Machine.server, h, Machine.server]⟩

instance : Serving SameRoles where
  refl _ := ⟨fun _ => rfl, fun _ => rfl⟩
  trans _ _ _ h h' := ⟨fun id => (h'.stopped id).trans (h.stopped id), fun id => (h'.process id).trans (h.process id)⟩
  aside _ _ _ _ hservers _ := .of_servers hservers
  kernel _ _ _ _ := .of_servers rfl
  sessions s id sessions := by
    refine ⟨fun other => ?_, fun other => ?_⟩ <;> rw [server_setServer] <;> split
    · next heq => rw [heq]
    · rfl
    · next heq => rw [heq]
    · rfl

/-- What is left to do for a server that is stopped first of all. -/
def windUp (x : Server) (id : RecordId) : Update Unit := do
  closePort x.port
  closeSessions id
  terminateProcess x.process none
  log .info s!"{x.name} successfully stopped."

/-- What is left to do for a server leaves the roles of all servers and terminates its process, unless that is on its way to the
end. -/
theorem windUp_run (x : Server) (id : RecordId) (s : Machine) :
    let t := (windUp x id s).2
    SameRoles s t ∧ (∀ other, Settles other (s.process other) (t.process other)) ∧
      ((s.process x.process).state ≠ .terminating → (t.process x.process).state = .terminated) := by
  have hroles : Keeps SameRoles (windUp x id) :=
    (closePort_placid _).bind fun _ => (closeSessions_serving _).bind fun _ => (terminateProcess_serving _ _).bind fun _ => log_placid _ _
  have hclose : Frame Unchanged s (closeSessions id (closePort x.port s).2).2 :=
    IsTrans.trans _ _ _ (closePort_frame x.port s) (closeSessions_frame id _)
  refine ⟨hroles s, ?_⟩
  unfold windUp
  rw [Update.run_bind, Update.run_bind, Update.run_bind]
  generalize (closeSessions id (closePort x.port s).2).2 = closed at hclose
  obtain ⟨hsettles, hended⟩ := terminateProcess_finishes x.process closed
  have hlog : Frame Unchanged _ _ := log_frame .info s!"{x.name} successfully stopped." (terminateProcess x.process none closed).2
  refine ⟨fun other => ?_, fun hhost => ?_⟩
  · rw [hlog.process other, ← hclose.process other]
    exact hsettles.process other
  · rw [hlog.process]
    exact hended (by rwa [hclose.process])

/-- A server that is stopped already is left alone; any other is marked as stopped and wound up. -/
theorem stopServer_run (id : RecordId) (s : Machine) : (stopServer id s).2 =
    if (s.server id).stopped then s else (windUp (s.server id) id (setServer id { s.server id with stopped := true } s).2).2 := by
  rw [stopServer, Update.run_look]
  dsimp only
  cases (s.server id).stopped <;> rfl

/-- Stopping a server stops it, and terminates its process. -/
theorem stopServer_stops (id : RecordId) (s : Machine) : Stops [id] s (stopServer id s).2 := by
  rw [stopServer_run]
  cases hstopped : (s.server id).stopped with
  | true =>
    rw [if_pos rfl]
    refine ⟨fun _ _ => rfl, fun _ => rfl, fun _ => refl _, fun other hother => ?_, fun other hother hrunning => ?_⟩
    · exact List.mem_singleton.1 hother ▸ hstopped
    · rw [List.mem_singleton.1 hother, hstopped] at hrunning
      cases hrunning
  | false =>
    rw [if_neg Bool.false_ne_true]
    have hserver (other : RecordId) := server_setServer id other { s.server id with stopped := true } s
    have hsame (other : RecordId) : (setServer id { s.server id with stopped := true } s).2.process other = s.process other := rfl
    have hprocess (other : RecordId) :
        ((setServer id { s.server id with stopped := true } s).2.server other).process = (s.server other).process := by
      rw [hserver]
      split
      · next heq => rw [heq]
      · rfl
    obtain ⟨hroles, hsettles, hended⟩ := windUp_run (s.server id) id (setServer id { s.server id with stopped := true } s).2
    generalize (setServer id { s.server id with stopped := true } s).2 = m at hserver hsame hprocess hroles hsettles hended ⊢
    constructor
    case others =>
      intro other hother
      rw [hroles.stopped, hserver, if_neg (List.mem_singleton.not.1 hother)]
    case process => exact fun other => (hroles.process other).trans (hprocess other)
    case settles => exact fun other => hsame other ▸ hsettles other
    case stopped =>
      intro other hother
      rw [hroles.stopped, hserver, if_pos (List.mem_singleton.1 hother)]
    case ended =>
      intro other hother _ hhost
      obtain rfl := List.mem_singleton.1 hother
      rw [hroles.process, hprocess]
      exact hended (by rwa [hsame])

/-- Stopping servers one after the other stops them all. -/
theorem foldl_stopServer_stops (ids : List RecordId) (s : Machine) :
    Stops ids s (ids.foldl (fun s id => (stopServer id s).2) s) := by
  induction ids generalizing s with
  | nil =>
    exact ⟨fun _ _ => rfl, fun _ => rfl, fun _ => refl _, fun _ h => absurd h List.not_mem_nil, fun _ h => absurd h List.not_mem_nil⟩
  | cons first rest ih => exact (stopServer_stops first s).trans (ih _)

end Machine

open Machine

namespace ServerSet

variable {set : ServerSet} {s t : Machine}

/-! ## Stopping a set -/

/-- Freeing the manager's name leaves servers and processes. -/
theorem freeManager_hosts (set : ServerSet) : Keeps SameHosts set.freeManager := by
  unfold freeManager
  split
  · refine (unregisterNamedPort_hosts _ _).bind fun outcome => ?_
    split
    · exact log_hosts _ _
    · exact .pure _
  · exact .pure _

/-- Stopping a set stops the servers that it lists. -/
theorem stop_stops (set : ServerSet) (s : Machine) : Stops set.stopOrder s (set.stop s).2 := by
  have hrest : Keeps SameHosts (do set.freeManager; clearRegistry set.registry) :=
    set.freeManager_hosts.bind fun _ => Keeps.look fun t => ⟨⟨Nat.le_refl _, rfl⟩, rfl⟩
  rw [stop_run]
  exact (foldl_stopServer_stops set.stopOrder s).before (hrest _)

/-- A set that is stopped leaves the manager's name free, unless somebody else has it. -/
theorem stop_frees (hidle : set.manager = none → set.servers = [] ∧ s.HasManager set.kernel = false) :
    (set.stop s).2.HasManager set.kernel = false := by
  rw [stop_run]
  change (set.freeManager (set.stopOrder.foldl (fun s id => (stopServer id s).2) s)).2.HasManager set.kernel = false
  unfold freeManager isInitialized
  cases hmanager : set.manager with
  | none =>
    obtain ⟨hservers, hfree⟩ := hidle hmanager
    rw [stopOrder, hmanager, hservers]
    exact hfree
  | some manager =>
    have hfreed := unregisterNamedPort_frees set.kernel (set.stopOrder.foldl (fun s id => (stopServer id s).2) s)
    rw [Option.isSome_some, if_pos rfl, Update.run_bind]
    rcases hrun : (unregisterNamedPort set.kernel managerPortName).run (set.stopOrder.foldl (fun s id => (stopServer id s).2) s) with
      ⟨e | _, t⟩ <;> rw [hrun] at hfreed
    · exact hfreed
    · exact hfreed

/-! ## Undoing -/

/-- Meanwhile nobody else stops the servers of a set, leaves the termination of one of their hosts half done, or takes or frees the
manager's name. -/
structure Undisturbed (set : ServerSet) (s t : Machine) : Prop where
  stopped : ∀ id ∈ set.stopOrder, (t.server id).stopped = (s.server id).stopped
  process : ∀ id ∈ set.stopOrder, (t.server id).process = (s.server id).process
  host : ∀ id ∈ set.stopOrder, (s.process (s.server id).process).state ≠ .terminating →
    (t.process (s.server id).process).state ≠ .terminating
  manager : t.HasManager set.kernel = s.HasManager set.kernel

instance (set : ServerSet) : Std.Refl set.Undisturbed where
  refl _ := ⟨fun _ _ => rfl, fun _ _ => rfl, fun _ _ h => h, rfl⟩

/-- The servers `ids`, which are those that the set `begun` lists before the ones of `set`, are up and get stopped, newest first. -/
structure Unwinds (set begun : ServerSet) (ids : List RecordId) (t : Machine) : Prop where
  newestFirst : begun.stopOrder = ids.reverse ++ set.stopOrder
  managerLast : begun.stopOrder.getLast? = begun.manager
  /-- After any number of stops just the servers that come first in the order are stopped. -/
  partway : ∀ newer older, ids.reverse = newer ++ older →
    let halfway := newer.foldl (fun t id => (stopServer id t).2) t
    (∀ id ∈ newer, (halfway.server id).stopped = true ∧ (halfway.process (halfway.server id).process).state = .terminated) ∧
      ∀ id ∈ older, (halfway.server id).stopped = false
  /-- In the end all of them are. -/
  ended : ∀ id ∈ ids, let t' := (begun.stop t).2
    (t'.server id).stopped = true ∧ (t'.process (t'.server id).process).state = .terminated

/-- A set is as it was before its first start, and can be started. -/
structure IsFresh (set : ServerSet) (s : Machine) : Prop where
  listed : set.stopOrder = []
  services : (s.registry set.registry).services = {}
  table : set.table = {}
  manager : s.HasManager set.kernel = false
  restart : ∀ t ignoreMissing, t.HasManager set.kernel = s.HasManager set.kernel → (t.kernel set.kernel).TakesHost →
    (set.start ignoreMissing t).1.2 = .ok ()

/-- Servers that were launched and listed unwind, if meanwhile they were undisturbed. -/
theorem unwinds_of_launches {begun : ServerSet} {ids : List RecordId} {u : Machine} (h : Launches ids s t)
    (horder : begun.stopOrder = ids.reverse ++ set.stopOrder) (hmanager : begun.manager = none → begun.servers = [])
    (hquiet : begun.Undisturbed t u) : Unwinds set begun ids u := by
  have hlisted (id : RecordId) (hid : id ∈ ids) : id ∈ begun.stopOrder := by
    rw [horder]
    exact List.mem_append_left _ (List.mem_reverse.2 hid)
  have hup (id : RecordId) (hid : id ∈ ids) :
      (u.server id).stopped = false ∧ (u.process (u.server id).process).state ≠ .terminating := by
    have hid' := hlisted id hid
    have hrunning := h.up id hid
    refine ⟨(hquiet.stopped id hid').trans hrunning.stopped, ?_⟩
    rw [hquiet.process id hid']
    refine hquiet.host id hid' fun hleft => ?_
    have hhost := hrunning.host
    rw [hleft] at hhost
    cases hhost
  have hstops {stopped : List RecordId} {v : Machine} (hv : Stops stopped u v) (id : RecordId) (hid : id ∈ ids) (hmem : id ∈ stopped) :
      (v.server id).stopped = true ∧ (v.process (v.server id).process).state = .terminated :=
    ⟨hv.stopped id hmem, hv.ended id hmem (hup id hid).1 (hup id hid).2⟩
  have hnodup : ids.reverse.Nodup := List.nodup_reverse.2 (h.increasing.imp Nat.ne_of_lt)
  constructor
  case newestFirst => exact horder
  case managerLast =>
    cases hm : begun.manager with
    | none =>
      rw [stopOrder, hm, hmanager hm]
      rfl
    | some manager =>
      rw [stopOrder, hm]
      exact List.getLast?_concat
  case partway =>
    intro newer older hsplit
    have hmem (id : RecordId) (hid : id ∈ newer ++ older) : id ∈ ids := List.mem_reverse.1 (hsplit ▸ hid)
    have hpart := foldl_stopServer_stops newer u
    refine ⟨fun id hid => hstops hpart id (hmem id (List.mem_append_left _ hid)) hid, fun id hid => ?_⟩
    have hother : id ∉ newer := fun hnewer => (List.nodup_append.1 (hsplit ▸ hnodup)).2.2 id hnewer id hid rfl
    rw [hpart.others id hother]
    exact (hup id (hmem id (List.mem_append_right _ hid))).1
  case ended => exact fun id hid => hstops (begun.stop_stops u) id hid (hlisted id hid)

/-- Stopping a set undoes its start, whatever that came to: the servers that were started are stopped, newest first and the manager
last, and their hosts are terminated; the set is fresh again. -/
theorem stop_undoes_start {ignoreMissing : Bool} (hidle : set.manager = none → set.servers = [] ∧ s.HasManager set.kernel = false)
    (hquiet : (set.start ignoreMissing s).1.1.Undisturbed (set.start ignoreMissing s).2 t) :
    let begun := set.start ignoreMissing s
    let done := begun.1.1.stop t
    ∃ ids, Launches ids s begun.2 ∧ Unwinds set begun.1.1 ids t ∧ done.1.IsFresh done.2 ∧ done.1.home = set.home := by
  obtain ⟨ids, hlaunches, hset⟩ := set.start_launches ignoreMissing s
  have hhome : (set.start ignoreMissing s).1.1.home = set.home := set.start_home ignoreMissing s
  have hunmanaged : (set.start ignoreMissing s).1.1.manager = none → (set.start ignoreMissing s).1.1.servers = [] ∧
      t.HasManager (set.start ignoreMissing s).1.1.kernel = false := by
    intro hnone
    have hmanager : set.manager = none := by
      rcases hset with ⟨-, hsame⟩ | ⟨manager, rest, hmanager, -, -⟩
      · exact hsame ▸ hnone
      · exact hmanager
    obtain ⟨hservers, hfree⟩ := hidle hmanager
    have hkernel : (set.start ignoreMissing s).1.1.kernel = set.kernel := congrArg Prod.fst hhome
    refine ⟨?_, hquiet.manager.trans ?_⟩
    · rcases hset with ⟨-, hsame⟩ | ⟨manager, rest, -, -, hsome⟩
      · rw [hsame, hservers]
      · rw [hsome] at hnone
        cases hnone
    · rw [hkernel]
      exact start_unmanaged hmanager hfree hnone
  have horder : (set.start ignoreMissing s).1.1.stopOrder = ids.reverse ++ set.stopOrder := by
    rcases hset with ⟨rfl, hsame⟩ | ⟨manager, rest, hmanager, rfl, hsome⟩
    · rw [hsame]
      rfl
    · rw [hsome, stopOrder, stopOrder, hmanager, (hidle hmanager).1, List.reverse_cons]
      exact (List.append_nil _).symm
  have hstopped := (set.start ignoreMissing s).1.1.stop_yields t
  refine ⟨ids, hlaunches, unwinds_of_launches hlaunches horder (fun h => (hunmanaged h).1) hquiet, ?_, ?_⟩
  · rw [hstopped]
    have hfreed := stop_frees hunmanaged
    constructor
    case listed => rfl
    case services => exact stop_services _ _
    case table => rfl
    case manager => exact hfreed
    case restart => exact fun u ignoreMissing hsame htakes => start_succeeds ignoreMissing rfl rfl htakes (hsame.trans hfreed)
  · rw [hstopped]
    exact hhome

/-- A set over a new kernel with that many cores. -/
def overCores (cores : UInt32) : ServerSet × Machine :=
  let x : Setup := ⟨{ cpuCoreCount := cores }, Supervision.plainHost,
    (by decide : ({} : KernelConfig).memoryArrange.totalSize ≤ Supervision.plainHost.memory.size)⟩
  new x.kernel x.machine

/-- The name of the second service is taken. -/
def contested : ServerSet × Machine :=
  let (set, s) := overCores 4
  match set.table.entries[1]? with
  | some entry => (set, (registerService set.registry entry.name 1 s).2)
  | none => (set, s)

/-- A start that fails at its second service is undone by stopping the set. -/
theorem stop_undoes_start_contested :
    let set := contested.1
    let s := contested.2
    let begun := set.start false s
    let done := begun.1.1.stop begun.2
    begun.1.2.isOk = false ∧ begun.1.1.stopOrder.length = 2 ∧
      (set.manager = none → set.servers = [] ∧ s.HasManager set.kernel = false) ∧ begun.1.1.Undisturbed begun.2 begun.2 ∧
      ∃ ids, Launches ids s begun.2 ∧ Unwinds set begun.1.1 ids begun.2 ∧ done.1.IsFresh done.2 ∧ done.1.home = set.home := by
  have hidle : contested.1.manager = none → contested.1.servers = [] ∧ contested.2.HasManager contested.1.kernel = false :=
    fun _ => ⟨by decide +kernel, by decide +kernel⟩
  exact ⟨by decide +kernel, by decide +kernel, hidle, refl _, stop_undoes_start hidle (refl _)⟩

/-- Over a kernel without cores a set does not start, before or after. -/
theorem restart_false : ¬∀ (set : ServerSet) (s : Machine), set.manager = none → set.servers = [] →
    s.HasManager set.kernel = false → let begun := set.start false s
    let done := begun.1.1.stop begun.2
    (done.2.kernel set.kernel).shuttingDown = false → (done.2.kernel set.kernel).HasRoom →
    (done.1.start false done.2).1.2 = .ok () := by
  intro h
  have hrestarted := h (overCores 0).1 (overCores 0).2 rfl rfl (by decide +kernel) (by decide +kernel) (by decide +kernel)
  have hrefused : (((overCores 0).1.start false (overCores 0).2).1.1.stop
      ((overCores 0).1.start false (overCores 0).2).2).1.start false (((overCores 0).1.start false (overCores 0).2).1.1.stop
        ((overCores 0).1.start false (overCores 0).2).2).2 |>.1.2.isOk = false := by decide +kernel
  rw [hrestarted] at hrefused
  cases hrefused

end ServerSet

end Microkernel
