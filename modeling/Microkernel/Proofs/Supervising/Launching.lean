import Microkernel.Proofs.Supervising.Supervision

/-!
# Servers that are started

`Launches ids s t` says that exactly the servers `ids` were started on the way from `s` to `t`, in this order, and that they run on
processes that do. Starting a service launches its server or none, and starting a set launches those that it lists afterwards and did
not list before (`start_launches`).
-/

namespace Microkernel

namespace Machine

variable {α : Type} {s t u : Machine}

/-! ## Processes -/

/-- The machines have the same servers. -/
structure SameServers (s t : Machine) : Prop where
  nextId : s.nextId ≤ t.nextId
  servers : t.servers = s.servers

instance : Peopled SameServers where
  refl _ := ⟨Nat.le_refl _, rfl⟩
  trans _ _ _ h h' := ⟨Nat.le_trans h.nextId h'.nextId, h'.servers.trans h.servers⟩
  aside _ _ hnext _ hservers _ := ⟨hnext, hservers⟩
  kernel _ _ _ _ := ⟨Nat.le_refl _, rfl⟩
  standing _ _ _ _ := ⟨Nat.le_refl _, rfl⟩

/-- The start of a process touches no other process, and the process that it answers with is new and not about to end. -/
structure StartCall.Adds (s : Machine) (result : Except KernelError RecordId) (t : Machine) : Prop where
  process : ∀ id, id ≠ s.nextId → t.process id = s.process id
  started : ∀ id, result = .ok id → id = s.nextId ∧ s.nextId < t.nextId ∧ (t.process id).state.isTerminating = false

/-- Starting a process touches no other one, and answers with a new process that is not about to end. -/
theorem StartCall.start_adds (x : StartCall) (kernel : RecordId) (s : Machine) :
    Adds s ((x.start kernel).run s).1 ((x.start kernel).run s).2 := by
  cases hadmitted : x.admitted? (s.kernel kernel) with
  | none =>
    obtain ⟨e, journal, hrun⟩ := start_of_refused hadmitted
    rw [hrun]
    exact ⟨fun _ _ => rfl, fun _ h => by cases h⟩
  | some capabilities =>
    obtain ⟨hid, hc⟩ : (x.create kernel capabilities s).1 = s.nextId ∧
        Creates kernel x.isApplication s (x.create kernel capabilities s).2 := createProcess_creates _ _ _ _ _ s
    have hmake := x.makeThread_frame kernel s.nextId (x.create kernel capabilities s).2
    rw [start_of_admitted hadmitted, hid]
    generalize (x.create kernel capabilities s).2 = c at hc hmake ⊢
    rcases hrun : (x.makeThread kernel s.nextId).run c with ⟨e | thread, t⟩ <;> rw [hrun] at hmake <;> dsimp only at hmake ⊢
    · exact ⟨fun id hid => (hmake.process id hid).trans (hc.process id hid), fun _ h => by cases h⟩
    · obtain ⟨u, hu, henter⟩ := x.enter_frame kernel s.nextId thread t
      refine ⟨fun id hid => ?_, fun id hok => ?_⟩
      · exact ((henter.process id).1 hid).trans (((hmake.process id).1 hid).trans (hc.process id hid))
      · obtain rfl := Except.ok.inj hok
        refine ⟨rfl, ?_, eq_false_of_ne_true fun hend => ?_⟩
        · exact Nat.lt_of_lt_of_le (hc.nextId ▸ Nat.lt_succ_self _) (Nat.le_trans hmake.nextId henter.nextId)
        · have hcreated := (hmake.process s.nextId).2.2.2 ((henter.process s.nextId).2.2.2 hend)
          rw [hc.state] at hcreated
          cases hcreated

/-! ## Servers -/

/-- A server is not stopped, and the process that it runs on is not about to end. -/
structure IsUp (s : Machine) (id : RecordId) : Prop where
  stopped : (s.server id).stopped = false
  host_lt : (s.server id).process < s.nextId
  host : (s.process (s.server id).process).state.isTerminating = false

/-- Just these servers have been started, in this order, and they are up. -/
structure Launches (ids : List RecordId) (s t : Machine) : Prop where
  nextId : s.nextId ≤ t.nextId
  old : ∀ id < s.nextId, t.server id = s.server id
  made : ∀ id, t.servers.contains id = true → s.servers.contains id = true ∨ id ∈ ids
  fresh : ∀ id ∈ ids, s.nextId ≤ id ∧ id < t.nextId
  increasing : ids.Pairwise (· < ·)
  hosts : ∀ id < s.nextId, (t.process id).state.isTerminating = (s.process id).state.isTerminating
  up : ∀ id ∈ ids, t.IsUp id

namespace Launches

variable {ids ids' : List RecordId}

/-- Servers that were launched in two parts were launched in a row. -/
theorem trans (h : Launches ids s t) (h' : Launches ids' t u) : Launches (ids ++ ids') s u where
  nextId := Nat.le_trans h.nextId h'.nextId
  old id hid := (h'.old id (Nat.lt_of_lt_of_le hid h.nextId)).trans (h.old id hid)
  made id hid := by
    rw [List.mem_append]
    rcases h'.made id hid with hmid | hnew
    · exact (h.made id hmid).imp_right .inl
    · exact .inr (.inr hnew)
  fresh id hid := by
    rcases List.mem_append.1 hid with hid | hid
    · exact ⟨(h.fresh id hid).1, Nat.lt_of_lt_of_le (h.fresh id hid).2 h'.nextId⟩
    · exact ⟨Nat.le_trans h.nextId (h'.fresh id hid).1, (h'.fresh id hid).2⟩
  increasing := List.pairwise_append.2 ⟨h.increasing, h'.increasing, fun a ha b hb =>
    Nat.lt_of_lt_of_le (h.fresh a ha).2 (h'.fresh b hb).1⟩
  hosts id hid := (h'.hosts id (Nat.lt_of_lt_of_le hid h.nextId)).trans (h.hosts id hid)
  up id hid := by
    rcases List.mem_append.1 hid with hid | hid
    · obtain ⟨hstopped, hlt, hhost⟩ := h.up id hid
      have hserver := h'.old id (h.fresh id hid).2
      refine ⟨hserver ▸ hstopped, hserver ▸ Nat.lt_of_lt_of_le hlt h'.nextId, ?_⟩
      rw [hserver, h'.hosts _ hlt]
      exact hhost
    · exact h'.up id hid

/-- What is done before or afterwards launches nothing. -/
theorem after (h' : Launches [] s t) (h : Launches ids t u) : Launches ids s u := h'.trans h

/-- Servers that were launched before nothing else was started are those that were launched. -/
theorem before (h : Launches ids s t) (h' : Launches [] t u) : Launches ids s u := List.append_nil ids ▸ h.trans h'

end Launches

/-- The machines have the same servers and the same processes. -/
structure SameHosts (s t : Machine) : Prop extends SameServers s t where
  processes : t.processes = s.processes

instance : IsPreorder Machine SameHosts where
  refl _ := ⟨refl _, rfl⟩
  trans _ _ _ h h' := ⟨IsTrans.trans _ _ _ h.toSameServers h'.toSameServers, h'.processes.trans h.processes⟩

/-- Where servers and processes stay nothing was launched. -/
theorem SameHosts.launches (h : SameHosts s t) : Launches [] s t where
  nextId := h.nextId
  old id _ := by rw [Machine.server, h.servers, Machine.server]
  made id hid := .inl (h.servers ▸ hid)
  fresh _ hid := absurd hid List.not_mem_nil
  increasing := .nil
  hosts id _ := by rw [Machine.process, h.processes, Machine.process]
  up _ hid := absurd hid List.not_mem_nil

/-! ### What starts nothing -/

theorem freshId_hosts : Keeps SameHosts freshId := fun _ => ⟨⟨Nat.le_succ _, rfl⟩, rfl⟩

theorem setKernel_hosts (id : RecordId) (k : Kernel) : Keeps SameHosts (setKernel id k) :=
  fun _ => ⟨⟨Nat.le_refl _, rfl⟩, rfl⟩

theorem setEvent_hosts (id : RecordId) (e : Event) : Keeps SameHosts (setEvent id e) :=
  fun _ => ⟨⟨Nat.le_refl _, rfl⟩, rfl⟩

theorem audit_hosts (kernel : RecordId) (event : KernelEvent) : Keeps SameHosts (audit kernel event) :=
  Keeps.get.bind fun _ => (setKernel_hosts _ _).bind fun _ => .pure _

theorem log_hosts (level : Level) (text : String) : Keeps SameHosts (log level text) :=
  fun _ => ⟨⟨Nat.le_refl _, rfl⟩, rfl⟩

theorem newPort_hosts (name : String) (maxSessions : Nat) : Keeps SameHosts (newPort name maxSessions) :=
  fun s => ⟨⟨Nat.le_add_right s.nextId 3, rfl⟩, rfl⟩

/-- Setting a registry and telling so leaves servers and processes. -/
theorem relist_hosts (registry : RecordId) (r : Registry) (text : String) (kernel : RecordId) (event : KernelEvent) (answer : α) :
    Keeps SameHosts (do
      setRegistry registry r
      log .info text
      let _ ← audit kernel event
      return answer) :=
  Keeps.bind (fun _ => ⟨⟨Nat.le_refl _, rfl⟩, rfl⟩) fun _ => (log_hosts _ _).bind fun _ => (audit_hosts _ _).bind fun _ => .pure _

/-- Registering a service leaves servers and processes. -/
theorem registerService_hosts (registry : RecordId) (name : ServiceName) (maxSessions : Nat) :
    Keeps SameHosts (registerService registry name maxSessions) := by
  refine (newPort_hosts _ _).bind fun ends => Keeps.bind (Keeps.get.bind fun s => ?_) fun _ => .pure _
  split
  · exact relist_hosts _ _ _ _ _ _
  · exact .pure _

/-- Freeing a name leaves servers and processes. -/
theorem unregisterService_hosts (registry : RecordId) (name : ServiceName) : Keeps SameHosts (unregisterService registry name) := by
  refine Keeps.get.bind fun s => ?_
  split
  · exact relist_hosts _ _ _ _ _ _
  · exact .pure _

/-- A port that is named leaves servers and processes. -/
theorem registerNamedPort_hosts (kernel : RecordId) (name : String) (maxSessions : Nat) :
    Keeps SameHosts (registerNamedPort kernel name maxSessions).run := by
  refine .run_bind (.run_lift .get) fun s => ?_
  split
  · exact .run_throw_bind _ _
  · refine .run_bind (.run_lift (newPort_hosts _ _)) fun ends => .run_bind (.run_lift .get) fun t => ?_
    exact .run_bind (.run_lift (setKernel_hosts _ _)) fun _ => .run_bind (.run_lift (audit_hosts _ _)) fun _ => .run_pure _

/-- A port that loses its name leaves servers and processes. -/
theorem unregisterNamedPort_hosts (kernel : RecordId) (name : String) : Keeps SameHosts (unregisterNamedPort kernel name).run := by
  refine .run_bind (.run_lift .get) fun s => ?_
  dsimp only
  split
  · exact .run_throw_bind _ _
  · exact .run_lift (setKernel_hosts _ _)

theorem signalEvent_hosts (id : RecordId) : Keeps SameHosts (signalEvent id) :=
  Keeps.get.bind fun _ => (setEvent_hosts _ _).bind fun _ => Keeps.get.bind fun _ _ => ⟨⟨Nat.le_refl _, rfl⟩, rfl⟩

theorem setWaiters_hosts (e : RecordId) (l : WaitList) : Keeps SameHosts (setWaiters (.event e) l) :=
  Keeps.get.bind fun _ => setEvent_hosts _ _

theorem registerAll_hosts (parker : ParkerId) (e : RecordId) : Keeps SameHosts (registerAll parker [.event e]) := by
  unfold registerAll
  refine Keeps.bind (.forIn_mem fun object hobject _ => ?_) fun _ => .pure _
  obtain rfl := List.mem_singleton.1 hobject
  exact Keeps.get.bind fun s => (setWaiters_hosts e _).bind fun _ => .pure _

theorem unregisterAll_hosts (parker : ParkerId) (e : RecordId) : Keeps SameHosts (unregisterAll parker [.event e]) := by
  unfold unregisterAll
  refine Keeps.bind (.forIn_mem fun object hobject _ => ?_) fun _ => .pure _
  obtain rfl := List.mem_singleton.1 hobject
  exact Keeps.get.bind fun s => (setWaiters_hosts e _).bind fun _ => .pure _

theorem poll_hosts (e : RecordId) : Keeps SameHosts (poll [.event e]) := by
  have hacquire : Keeps SameHosts (tryAcquire (.event e)) := Keeps.get.bind fun s => (setEvent_hosts _ _).bind fun _ => .pure _
  refine hacquire.bind fun acquired => ?_
  split
  · exact .pure _
  · exact .pure _

/-- A look at an event that takes the parker off the wait list if the event is signaled. -/
theorem lookAgain_hosts (parker : ParkerId) (e : RecordId) : Keeps SameHosts (do
    match ← poll [.event e] with
    | some index =>
      unregisterAll parker [.event e]
      return some index
    | none => return none : Action (Option Nat)).run := by
  refine .run_bind (.run_lift (poll_hosts _)) fun found => ?_
  split
  · exact .run_bind (.run_lift (unregisterAll_hosts _ _)) fun _ => .run_pure _
  · exact .run_pure _

/-- A wait for an event that begins leaves servers and processes. -/
theorem beginWait_hosts (parker : ParkerId) (e : RecordId) (timeout : Timeout) :
    Keeps SameHosts (beginWait parker false [.event e] timeout).run := by
  have hone : ¬maxWaitObjects < [Waitable.event e].length := (by decide : ¬maxWaitObjects < 1)
  unfold beginWait
  rw [if_neg hone, if_neg Bool.false_ne_true]
  refine .run_bind (.run_lift (poll_hosts _)) fun found => ?_
  split
  · exact .run_pure _
  · split
    · exact .run_throw_bind _ _
    · exact .run_bind (.run_lift (registerAll_hosts _ _)) fun _ => lookAgain_hosts _ _

/-- A wait for an event starts nothing. -/
theorem waitReady_hosts (registry : RecordId) (timeout : Timeout) : Keeps SameHosts (waitReady registry timeout).run := by
  refine .run_bind (.run_lift freshId_hosts) fun parker => .run_bind (.run_lift .get) fun s => .run_bind ?_ fun _ => .run_pure _
  refine .run_bind (beginWait_hosts _ _ _) fun found => ?_
  split
  · exact .run_pure _
  · refine .run_bind (.run_lift (poll_hosts _)) fun found => .run_bind (.run_lift (unregisterAll_hosts _ _)) fun _ => ?_
    split
    · exact .run_pure _
    · exact .run_throw _

/-! ### What starts a server -/

/-- The start of a process starts no server. -/
theorem StartCall.start_launches (x : StartCall) (kernel : RecordId) (s : Machine) : Launches [] s ((x.start kernel).run s).2 := by
  have hsame : SameServers s ((x.start kernel).run s).2 := x.start_peopled kernel s
  refine ⟨hsame.nextId, fun id _ => ?_, fun id hid => .inl (hsame.servers ▸ hid), fun _ h => absurd h List.not_mem_nil, .nil,
    fun id hid => ?_, fun _ h => absurd h List.not_mem_nil⟩
  · rw [Machine.server, hsame.servers, Machine.server]
  · rw [(x.start_adds kernel s).process id (Nat.ne_of_lt hid)]

/-- A server with a new number runs on a process that is up. -/
theorem setServer_launches {id : RecordId} {x : Server} (h : Launches [] s t) (hfresh : s.nextId ≤ id) (hlt : id < t.nextId)
    (hstopped : x.stopped = false) (hprocess : x.process < t.nextId) (hup : (t.process x.process).state.isTerminating = false) :
    Launches [id] s (setServer id x t).2 := by
  refine ⟨h.nextId, fun other hother => ?_, fun other hother => ?_, fun other hother => ?_, List.pairwise_singleton _ _, h.hosts,
    fun other hother => ?_⟩
  · rw [server_setServer, if_neg (Nat.ne_of_lt (Nat.lt_of_lt_of_le hother hfresh)), h.old other hother]
  · have hcontains : (t.servers.insert id x).contains other = true := hother
    rw [Std.TreeMap.contains_insert, Bool.or_eq_true] at hcontains
    rcases hcontains with hsame | hmade
    · exact .inr (List.mem_singleton.2 (Std.LawfulEqCmp.eq_of_compare (beq_iff_eq.1 hsame)).symm)
    · exact .inl ((h.made other hmade).resolve_right List.not_mem_nil)
  · obtain rfl := List.mem_singleton.1 hother
    exact ⟨hfresh, hlt⟩
  · obtain rfl := List.mem_singleton.1 hother
    have hx : (setServer other x t).2.server other = x := (server_setServer other other x t).trans (if_pos rfl)
    exact ⟨by rw [hx, hstopped], by rw [hx]; exact hprocess, by rw [hx]; exact hup⟩

/-- A server is started on a process made for it, or none is. -/
theorem startServer_launches (kernel : RecordId) (name : String) (port : RecordId) (blueprint : Blueprint) (options : ServerOptions)
    (s : Machine) :
    let r := (startServer kernel name port blueprint options).run s
    Launches r.1.toOption.toList s r.2 := by
  have hid : SameHosts s (freshId s).2 := freshId_hosts s
  unfold startServer
  rw [Action.run_lift_bind, Action.run_look]
  dsimp only
  split
  · next words _ =>
    let call : StartCall := ⟨serviceHost, words, options.priority.toNat, .server s.nextId⟩
    have hcall : (startProcess kernel serviceHost words options.priority.toNat (.server (freshId s).1)) = call.start kernel := rfl
    have hadds := call.start_adds kernel (freshId s).2
    have hbegun := hid.launches.after (call.start_launches kernel (freshId s).2)
    rw [pure_bind, Action.run_bind, hcall]
    rcases hrun : (call.start kernel).run (freshId s).2 with ⟨e | process, t⟩ <;> rw [hrun] at hadds hbegun
    · exact hbegun
    · obtain ⟨hprocess, hlt, hup⟩ := hadds.started process rfl
      have hset := setServer_launches (x := { kernel, name, port, process, blueprint, options }) hbegun (Nat.le_refl s.nextId)
        (Nat.lt_of_lt_of_le (Nat.lt_succ_self _) (Nat.le_of_lt hlt)) rfl (hprocess ▸ hlt) hup
      refine hset.before (SameHosts.launches ?_)
      exact Keeps.run_bind (.run_lift .get) (fun _ => .run_bind (.run_lift (log_hosts _ _)) fun _ => .run_pure _) _
  · exact hid.launches

/-- Starting an entry launches its server, or none if it fails. -/
theorem startEntry_launches (kernel registry : RecordId) (entry : ServiceEntry) (s : Machine) :
    let r := startEntry kernel registry entry s
    Launches r.1.toOption.toList s r.2 := by
  have hregister := registerService_hosts registry entry.name entry.maxSessions s
  rw [startEntry, Update.run_bind]
  rcases hrun : registerService registry entry.name entry.maxSessions s with ⟨e | port, t⟩ <;> rw [hrun] at hregister
  · exact hregister.launches
  · have hstart := startServer_launches kernel entry.name.text port entry.blueprint {} t
    dsimp only
    rw [Update.run_bind]
    rcases hrun' : (startServer kernel entry.name.text port entry.blueprint {}).run t with ⟨e | server, u⟩ <;> rw [hrun'] at hstart
    · exact hregister.launches.after (hstart.before (unregisterService_hosts _ _ _).launches)
    · exact hregister.launches.after hstart

/-- Starting the manager launches it, or nothing if it fails. -/
theorem startManager_launches (kernel registry : RecordId) (ignoreMissing : Bool) (s : Machine) :
    let r := (startManager kernel registry ignoreMissing).run s
    Launches r.1.toOption.toList s r.2 := by
  have hregister := registerNamedPort_hosts kernel managerPortName managerMaxSessions s
  rw [startManager, Action.run_bind]
  rcases hrun : (registerNamedPort kernel managerPortName managerMaxSessions).run s with ⟨e | port, t⟩ <;> rw [hrun] at hregister
  · exact hregister.launches
  · have hstart := startServer_launches kernel managerPortName port (.serviceManager registry ignoreMissing) {} t
    dsimp only
    rw [Action.run_bind, Action.run_tryCatch]
    rcases hrun' : (startServer kernel managerPortName port (.serviceManager registry ignoreMissing) {}).run t with ⟨e | server, u⟩ <;>
      rw [hrun'] at hstart
    · have hfree := unregisterNamedPort_hosts kernel managerPortName u
      dsimp only
      rw [Action.run_bind]
      rcases hrun'' : (unregisterNamedPort kernel managerPortName).run u with ⟨e' | _, v⟩ <;> rw [hrun''] at hfree
      · exact hregister.launches.after (hstart.before hfree.launches)
      · exact hregister.launches.after (hstart.before hfree.launches)
    · exact hregister.launches.after (hstart.before (signalEvent_hosts _ _).launches)

end Machine

open Machine

namespace ServerSet

/-- Starting entries launches the servers that the set lists behind those it listed. -/
theorem startEntries_launches (set : ServerSet) (entries : List ServiceEntry) (s : Machine) :
    let r := set.startEntries entries s
    ∃ ids, Launches ids s r.2 ∧ r.1.1 = { set with servers := set.servers ++ ids } := by
  induction entries generalizing set s with
  | nil => exact ⟨[], (refl s : SameHosts s s).launches, by rw [List.append_nil]; rfl⟩
  | cons entry rest ih =>
    have hentry := startEntry_launches set.kernel set.registry entry s
    rw [startEntries, Update.run_bind]
    rcases hrun : startEntry set.kernel set.registry entry s with ⟨e | server, t⟩ <;> rw [hrun] at hentry
    · exact ⟨[], hentry, by rw [List.append_nil]; rfl⟩
    · obtain ⟨ids, hrest, hset⟩ := ih { set with servers := set.servers ++ [server] } t
      refine ⟨server :: ids, hentry.trans hrest, hset.trans ?_⟩
      rw [List.append_assoc, List.singleton_append]

/-- A set lists what it starts: its manager if it has none yet, and then servers in the order in which they start. -/
theorem start_launches (set : ServerSet) (ignoreMissing : Bool) (s : Machine) :
    let r := set.start ignoreMissing s
    ∃ ids, Launches ids s r.2 ∧ (ids = [] ∧ r.1.1 = set ∨ ∃ manager rest, set.manager = none ∧ ids = manager :: rest ∧
      r.1.1 = { set with manager := some manager, servers := set.servers ++ rest }) := by
  unfold start
  split
  · exact ⟨[], (refl s : SameHosts s s).launches, .inl ⟨rfl, rfl⟩⟩
  · next hfresh =>
    have hnone : set.manager = none := Option.not_isSome_iff_eq_none.1 hfresh
    have hmanager := startManager_launches set.kernel set.registry ignoreMissing s
    rw [Update.run_bind]
    rcases hrun : (startManager set.kernel set.registry ignoreMissing).run s with ⟨e | manager, t⟩ <;> rw [hrun] at hmanager
    · exact ⟨[], hmanager, .inl ⟨rfl, rfl⟩⟩
    · have hwait := waitReady_hosts set.registry (.after (managerTimeout * 1000000)) t
      dsimp only
      rw [Update.run_bind]
      rcases hrun' : (waitReady set.registry (.after (managerTimeout * 1000000))).run t with ⟨e | _, u⟩ <;> rw [hrun'] at hwait
      · exact ⟨[manager], hmanager.before hwait.launches, .inr ⟨manager, [], hnone, rfl, by rw [List.append_nil]; rfl⟩⟩
      · obtain ⟨ids, hentries, hset⟩ := startEntries_launches { set with manager := some manager } set.table.entries u
        have hstarted := (hmanager.before hwait.launches).trans hentries
        refine ⟨manager :: ids, ?_, .inr ⟨manager, ids, hnone, rfl, ?_⟩⟩
        · dsimp only
          rw [Update.run_bind]
          split
          · exact hstarted.before (log_hosts _ _ _).launches
          · exact hstarted
        · dsimp only
          rw [Update.run_bind]
          split <;> exact hset

/-- After a start a set lists what it listed before and what the start launched. -/
theorem start_listed (set : ServerSet) (ignoreMissing : Bool) (s : Machine) :
    let r := set.start ignoreMissing s
    ∃ ids, Launches ids s r.2 ∧ ∀ id, id ∈ r.1.1.stopOrder ↔ id ∈ set.stopOrder ∨ id ∈ ids := by
  obtain ⟨ids, hlaunches, ⟨rfl, hset⟩ | ⟨manager, rest, hnone, rfl, hset⟩⟩ := set.start_launches ignoreMissing s
  · exact ⟨[], hlaunches, fun id => by rw [hset, or_iff_left List.not_mem_nil]⟩
  · refine ⟨manager :: rest, hlaunches, fun id => ?_⟩
    rw [hset, stopOrder, stopOrder, hnone]
    simp only [List.mem_append, List.mem_reverse, Option.mem_toList, Option.some.injEq, List.mem_cons, reduceCtorEq, or_false]
    rw [or_assoc, eq_comm (a := manager), or_comm (a := id ∈ rest)]

end ServerSet

end Microkernel
