import Microkernel.Proofs.Supervising.Shutdown

/-!
# A supervisor pauses all its contexts

A supervisor and each kernel have a flag of their own that says whether they are paused. The flags agree and the clocks stand still
with them, whatever is called on the supervisor, unless an applet context was attached while the system was paused and nobody has
paused or resumed it since: that context runs (`coverage_iff`).
-/

namespace Microkernel

open Machine

/-! ## One kernel -/

/-- The clock of a kernel stands still if and only if the kernel is paused. -/
def InTime (s : Machine) (kernel : RecordId) : Prop := (s.kernel kernel).clock.isSuspended = (s.kernel kernel).paused

/-- A kernel that keeps pace stays in time. -/
theorem InTime.samePace {s t : Machine} {kernel : RecordId} (h : InTime s kernel) (ht : SamePace s t) : InTime t kernel := by
  rw [InTime, ht.clock, ht.paused]
  exact h

/-- A kernel is paused or resumed together with its clock, and no other kernel is. -/
theorem toggle_pace (kernel : RecordId) (paused : Bool) (s : Machine) :
    let t := (toggle kernel paused s).2
    (∀ k, (t.kernel k).paused = if k = kernel then paused else (s.kernel k).paused) ∧ ∀ k, InTime s k → InTime t k := by
  by_cases hpaused : (s.kernel kernel).paused = paused
  · rw [toggle_of_eq hpaused]
    refine ⟨fun k => ?_, fun _ h => h⟩
    split
    · next heq => rw [heq, hpaused]
    · rfl
  · let k : Kernel := { s.kernel kernel with
      paused
      clock := if paused then (s.kernel kernel).clock.suspend (s.kernel kernel).host.now
        else (s.kernel kernel).clock.resume (s.kernel kernel).host.now }
    have htell : Keeps SamePace (tellToggled kernel paused) := (log_placid _ _).bind fun _ => (audit_placid _ _).bind fun _ => .pure _
    have hturn (ids : List RecordId) (t : Machine) : SamePace t (ids.foldl (fun t id => (setPaused id paused t).2) t) := by
      rw [foldl_setPaused]
      exact .of_kernels (Nat.le_refl _) rfl
    have hafter : SamePace (s.withKernel kernel k) (toggle kernel paused s).2 := by
      rw [toggle_run hpaused]
      exact IsTrans.trans _ _ _ (hturn _ _) (htell _)
    have hkernel (other : RecordId) : (s.withKernel kernel k).kernel other = if other = kernel then k else s.kernel other :=
      kernel_withKernel s kernel other k
    refine ⟨fun other => ?_, fun other h => InTime.samePace ?_ hafter⟩
    · rw [hafter.paused, hkernel]
      split <;> rfl
    · rw [InTime, hkernel]
      split
      · cases paused with
        | true => exact TickClock.isSuspended_suspend _ _
        | false => exact TickClock.isSuspended_resume _ _
      · exact h

/-- Kernels are paused or resumed one after the other. -/
theorem foldl_toggle_pace (sets : List ServerSet) (paused : Bool) (s : Machine) :
    let t := sets.foldl (fun m set => (toggle set.kernel paused m).2) s
    s.nextId ≤ t.nextId ∧ (∀ set ∈ sets, (t.kernel set.kernel).paused = paused) ∧
      (∀ k, (s.kernel k).paused = paused → (t.kernel k).paused = paused) ∧ ∀ k, InTime s k → InTime t k := by
  induction sets generalizing s with
  | nil => exact ⟨Nat.le_refl _, fun _ h => absurd h List.not_mem_nil, fun _ h => h, fun _ h => h⟩
  | cons first rest ih =>
    obtain ⟨hpaused, htime⟩ := toggle_pace first.kernel paused s
    obtain ⟨hnext, hrest, hothers, hlater⟩ := ih (toggle first.kernel paused s).2
    have hkept (k : RecordId) (h : (s.kernel k).paused = paused) : ((toggle first.kernel paused s).2.kernel k).paused = paused := by
      rw [hpaused, h, ite_self]
    refine ⟨Nat.le_trans (toggle_staysDown first.kernel paused s).nextId hnext, fun set hset => ?_, fun k h => hothers k (hkept k h),
      fun k h => hlater k (htime k h)⟩
    rcases List.mem_cons.1 hset with rfl | hset
    · exact hothers set.kernel (by rw [hpaused, if_pos rfl])
    · exact hrest set hset

/-- A kernel that is not paused is not paused later, and clocks that go with their kernels do so later. -/
structure RunsOn (s t : Machine) : Prop where
  nextId : s.nextId ≤ t.nextId
  running : ∀ k, (s.kernel k).paused = false → (t.kernel k).paused = false
  inTime : ∀ k, InTime s k → InTime t k

/-- What keeps pace lets kernels run on. -/
theorem RunsOn.of_samePace {s t : Machine} (h : SamePace s t) : RunsOn s t :=
  ⟨h.nextId, fun k hk => (h.paused k).trans hk, fun _ hk => hk.samePace h⟩

instance : Winding RunsOn where
  refl s := .of_samePace (refl s)
  trans _ _ _ h h' := ⟨Nat.le_trans h.nextId h'.nextId, fun k hk => h'.running k (h.running k hk),
    fun k hk => h'.inTime k (h.inTime k hk)⟩
  aside s t hnext hkernels hservers hregistries := .of_samePace (Placid.aside s t hnext hkernels hservers hregistries)
  kernel s id k h := .of_samePace (Placid.kernel s id k h)
  sessions s id sessions := .of_samePace (Serving.sessions s id sessions)
  closing s id := .of_samePace (Winding.closing s id)
  emptied s id := .of_samePace (Winding.emptied s id)
  freed s id name := .of_samePace (Winding.freed s id name)
  stopped s id := .of_samePace (Winding.stopped s id)
  cleared s id := .of_samePace (Winding.cleared s id)

/-- A kernel that is resumed runs on, and no other one is paused. -/
theorem resume_runsOn (kernel : RecordId) : Keeps RunsOn (resume kernel) := by
  intro s
  obtain ⟨hpaused, htime⟩ := toggle_pace kernel false s
  refine ⟨(toggle_staysDown kernel false s).nextId, fun k hk => (hpaused k).trans ?_, htime⟩
  rw [hk, ite_self]

namespace Supervision

variable {c : Supervision}

/-! ## The invariant -/

/-- What holds between two calls. -/
structure Paces (c : Supervision) : Prop where
  known : ∀ set ∈ c.supervisor.sets, set.kernel < c.machine.nextId
  inTime : ∀ set ∈ c.supervisor.sets, InTime c.machine set.kernel
  main : (c.machine.kernel c.supervisor.main.kernel).paused = c.supervisor.paused
  applet : ∀ set, c.supervisor.applet = some set → (c.machine.kernel set.kernel).paused = (c.supervisor.paused && !c.isLate)
  late : c.isLate = true → c.supervisor.paused = true ∧ c.supervisor.applet.isSome = true

/-- The kernels stand as they did, and are in time if they were. -/
structure SameStand (s : Supervisor) (m m' : Machine) : Prop where
  nextId : m.nextId ≤ m'.nextId
  paused : ∀ set ∈ s.sets, (m'.kernel set.kernel).paused = (m.kernel set.kernel).paused
  inTime : ∀ k, InTime m k → InTime m' k

/-- What keeps pace leaves the kernels of a supervisor as they stood. -/
theorem SameStand.of_samePace {s : Supervisor} {m m' : Machine} (h : SamePace m m') : SameStand s m m' :=
  ⟨h.nextId, fun set _ => h.paused set.kernel, fun _ hk => hk.samePace h⟩

/-- A call that neither pauses nor resumes anything keeps the invariant. -/
theorem Paces.onward (h : c.Paces) {s : Supervisor} {m : Machine} (started : List RecordId)
    (hstand : SameStand c.supervisor c.machine m) (hhomes : c.supervisor.SameHomes s) (hpaused : s.paused = c.supervisor.paused) :
    Paces { c with supervisor := s, machine := m, started } where
  known set hset := by
    obtain ⟨old, hold, hhome⟩ := hhomes.exists_old hset
    have hkernel : set.kernel = old.kernel := congrArg Prod.fst hhome
    exact hkernel ▸ Nat.lt_of_lt_of_le (h.known old hold) hstand.nextId
  inTime set hset := by
    obtain ⟨old, hold, hhome⟩ := hhomes.exists_old hset
    have hkernel : set.kernel = old.kernel := congrArg Prod.fst hhome
    exact hkernel ▸ hstand.inTime _ (h.inTime old hold)
  main := by
    have hkernel : s.main.kernel = c.supervisor.main.kernel := congrArg Prod.fst hhomes.main
    dsimp only
    rw [hkernel, hstand.paused _ (Supervisor.mem_sets.2 (.inl rfl)), h.main, hpaused]
  applet set hset := by
    obtain ⟨old, hold, hhome⟩ := hhomes.applet_old set hset
    have hkernel : set.kernel = old.kernel := congrArg Prod.fst hhome
    dsimp only
    rw [hkernel, hstand.paused old (Supervisor.mem_sets.2 (.inr hold)), h.applet old hold, hpaused]
  late hlate := by
    dsimp only
    rw [hpaused, hhomes.isSome]
    exact h.late hlate

/-- While the system is not paused, no kernel is. -/
theorem Paces.running (h : c.Paces) (hpaused : c.supervisor.paused = false) {set : ServerSet} (hset : set ∈ c.supervisor.sets) :
    (c.machine.kernel set.kernel).paused = false := by
  rcases Supervisor.mem_sets.1 hset with rfl | happlet
  · exact h.main.trans hpaused
  · rw [h.applet set happlet, hpaused, Bool.false_and]

/-- Once everybody is told, supervisor and kernels agree. -/
theorem Paces.told (h : c.Paces) (paused : Bool) : Paces { c with
    supervisor := { c.supervisor with paused }
    machine := c.supervisor.sets.foldl (fun m set => (toggle set.kernel paused m).2) c.machine
    isLate := false } := by
  obtain ⟨hnext, htold, -, htime⟩ := foldl_toggle_pace c.supervisor.sets paused c.machine
  constructor
  case known => exact fun set hset => Nat.lt_of_lt_of_le (h.known set hset) hnext
  case inTime => exact fun set hset => htime set.kernel (h.inTime set hset)
  case main => exact htold _ (Supervisor.mem_sets.2 (.inl rfl))
  case applet =>
    intro set hset
    rw [Bool.not_false, Bool.and_true]
    exact htold set (Supervisor.mem_sets.2 (.inr hset))
  case late => exact fun hlate => absurd hlate Bool.false_ne_true

/-- A context that is attached keeps what holds between calls. -/
theorem Paces.attach (h : c.Paces) {set : ServerSet} {joined m : Machine} (hnone : c.supervisor.applet = none)
    (hjoins : Joins set.kernel c.machine joined) (hpace : SamePace joined m) : Paces { c with
      supervisor := { c.supervisor with applet := some set }
      machine := m
      isLate := c.isLate || c.supervisor.paused } := by
  have hother {k : RecordId} (hk : k < c.machine.nextId) : joined.kernel k = c.machine.kernel k :=
    hjoins.others k (hjoins.fresh ▸ Nat.ne_of_lt hk)
  have hmain := h.known c.supervisor.main (Supervisor.mem_sets.2 (.inl rfl))
  have hnext : c.machine.nextId < m.nextId := Nat.lt_of_lt_of_le (hjoins.nextId ▸ Nat.lt_succ_self _) hpace.nextId
  have hnotLate : c.isLate = false := eq_false_of_ne_true fun hlate => by
    have hsome := (h.late hlate).2
    rw [hnone] at hsome
    cases hsome
  constructor
  case known =>
    intro other hmem
    rcases Supervisor.mem_sets.1 hmem with rfl | happlet
    · exact Nat.lt_trans hmain hnext
    · cases happlet
      exact hjoins.fresh ▸ hnext
  case inTime =>
    intro other hmem
    rcases Supervisor.mem_sets.1 hmem with rfl | happlet
    · refine InTime.samePace ?_ hpace
      rw [InTime, hother hmain]
      exact h.inTime _ (Supervisor.mem_sets.2 (.inl rfl))
    · cases happlet
      exact InTime.samePace (hjoins.clock.trans hjoins.paused.symm) hpace
  case main =>
    dsimp only
    rw [hpace.paused, hother hmain, h.main]
  case applet =>
    rintro _ ⟨⟩
    dsimp only
    rw [hpace.paused, hjoins.paused, hnotLate, Bool.false_or, Bool.and_not_self]
  case late =>
    dsimp only
    rw [hnotLate, Bool.false_or]
    exact fun hpaused => ⟨hpaused, rfl⟩

/-- A shutdown that is carried out resumes everything. -/
theorem Paces.shutDown (h : c.Paces) (hopen : c.supervisor.isShutDown = false) (hook : Farewell) :
    Paces { c with supervisor := (c.shutDown hook).1.2, machine := (c.shutDown hook).2, isLate := false } := by
  have hends := Supervisor.shutDown_ends hook.program_staysDown c.supervisor c.machine hopen
  have hruns := Supervisor.shutDown_keeps resume_runsOn (hook.program_pace.mono fun _ _ => .of_samePace) c.supervisor c.machine hopen
  -- either somebody was paused and is told to go on, or nobody is paused
  have hresumed : Paces { c with
      supervisor := { c.supervisor with paused := false }, machine := c.supervisor.resumed c.machine, isLate := false } := by
    unfold Supervisor.resumed
    split
    · exact h.told false
    · next hbefore =>
      have hrunning := eq_false_of_ne_true hbefore
      refine ⟨h.known, h.inTime, h.main.trans hrunning, fun set hset => ?_, fun hlate => absurd hlate Bool.false_ne_true⟩
      exact h.running hrunning (Supervisor.mem_sets.2 (.inr hset))
  have hstand : SameStand { c.supervisor with paused := false } (c.supervisor.resumed c.machine) (c.shutDown hook).2 :=
    ⟨hruns.nextId, fun set hset => (hruns.running _ (hresumed.running rfl hset)).trans (hresumed.running rfl hset).symm, hruns.inTime⟩
  exact hresumed.onward c.started hstand ⟨hends.homes.main, hends.homes.applet_old, hends.homes.applet_new⟩ hends.paused

/-- Every call keeps the invariant. -/
theorem Paces.step (h : c.Paces) (call : SupervisorCall) : (c.step call).Paces := by
  cases call with
  | attachApplet host =>
    rw [Supervision.step]
    rcases Supervisor.attachApplet_cases host c.supervisor c.machine with ⟨e, hrun⟩ |
      ⟨set, joined, m, hrun, hnone, -, hjoins, hpace, -⟩ <;> rw [hrun]
    · have hlate : (c.isLate || ((Except.error e : Except SupervisorError Unit).isOk && c.supervisor.paused)) = c.isLate :=
        Bool.or_false _
      dsimp only
      rw [hlate]
      exact h
    · exact h.attach hnone hjoins hpace
  | startServices =>
    obtain ⟨hset, hlater⟩ := c.supervisor.startServices_run c.machine
    have hpace : SamePace c.machine _ := IsTrans.trans _ _ _ (c.supervisor.active.start_busy _ _) (hlater SamePace)
    have hhomes :=
      c.supervisor.setActive_homes (ServerSet.start_home c.supervisor.active c.supervisor.config.ignoreMissingServices c.machine)
    have hpaused : (Supervisor.startServices.run c.supervisor c.machine).1.2.paused = c.supervisor.paused := by
      rw [hset]
      exact c.supervisor.setActive_paused _
    rw [← hset] at hhomes
    exact h.onward _ (.of_samePace hpace) hhomes hpaused
  | stopServices =>
    rw [Supervision.step, Supervisor.stopServices_run]
    exact h.onward _ (.of_samePace (c.supervisor.active.stop_winding _)) (c.supervisor.setActive_homes rfl)
      (c.supervisor.setActive_paused _)
  | setPaused paused =>
    rw [Supervision.step, Supervisor.setPaused_run]
    exact h.told paused
  | changeDockedMode docked =>
    obtain ⟨docked', performance, events, m, hrun, hkept⟩ := Supervisor.changeDockedMode_run docked c.supervisor c.machine
    rw [Supervision.step, hrun]
    exact h.onward _ (.of_samePace (hkept SamePace)) (.of_applet (fun _ => rfl) rfl rfl) rfl
  | edit f => exact h.onward _ (.of_samePace (refl c.machine)) (c.supervisor.setActive_homes rfl) (c.supervisor.setActive_paused _)
  | shutDown hook =>
    rw [Supervision.step]
    cases hdown : c.supervisor.isShutDown with
    | true =>
      have hrun : c.shutDown hook = ((.ok none, c.supervisor), c.machine) := by
        rw [Supervision.shutDown, Supervisor.shutDown_run, if_pos hdown]
      rw [hrun, Bool.and_true]
      exact h
    | false =>
      rw [Bool.and_false]
      exact h.shutDown hdown hook
  | other work => exact h.onward _ (.of_samePace (work.pace c.machine)) (.of_applet (fun _ => rfl) rfl rfl) rfl

/-- What holds between calls holds after all of them. -/
theorem paces_after {config : SupervisorConfig} {host : Host} {s : Machine} {calls : List SupervisorCall}
    (h : after config host s calls = .ok c) : c.Paces := by
  unfold after at h
  split at h
  · next supervisor m hnew =>
    obtain rfl := Except.ok.inj h
    obtain ⟨hnone, hpaused, -, -, joined, hjoins, hpace⟩ := Supervisor.new_cases hnew
    have hstart : Paces { supervisor, machine := m } := by
      have hmem (set : ServerSet) (hset : set ∈ supervisor.sets) : set = supervisor.main := by
        rcases Supervisor.mem_sets.1 hset with rfl | happlet
        · rfl
        · cases hnone.symm.trans happlet
      constructor
      case known =>
        intro set hset
        rw [hmem set hset, hjoins.fresh]
        exact Nat.lt_of_lt_of_le (hjoins.nextId ▸ Nat.lt_succ_self _) hpace.nextId
      case inTime =>
        intro set hset
        rw [hmem set hset]
        exact InTime.samePace (hjoins.clock.trans hjoins.paused.symm) hpace
      case main => exact (hpace.paused _).trans (hjoins.paused.trans hpaused.symm)
      case applet => exact fun set hset => by cases hnone.symm.trans hset
      case late => exact fun hlate => absurd hlate Bool.false_ne_true
    exact List.foldlRecOn calls step hstart fun c hc call _ => hc.step call
  · cases h

/-! ## Agreement -/

/-- Whether supervisor and kernels are paused together, and the clocks stand still with them. -/
def Covers (c : Supervision) : Prop :=
  ∀ set ∈ c.supervisor.sets, (c.machine.kernel set.kernel).paused = c.supervisor.paused ∧
    (c.supervisor.paused = true → (c.machine.kernel set.kernel).clock.isSuspended = true)

/-- Pausing covers every context but one that was attached while the system was paused, until somebody pauses or resumes the system
again. -/
theorem coverage_iff {config : SupervisorConfig} {host : Host} {s : Machine} {calls : List SupervisorCall}
    (h : after config host s calls = .ok c) : c.Covers ↔ c.isLate = false := by
  have hpaces := paces_after h
  constructor
  · intro hcovers
    refine eq_false_of_ne_true fun hlate => ?_
    obtain ⟨hpaused, hsome⟩ := hpaces.late hlate
    obtain ⟨applet, happlet⟩ := Option.isSome_iff_exists.1 hsome
    have hkernel := (hcovers applet (Supervisor.mem_sets.2 (.inr happlet))).1
    rw [hpaces.applet applet happlet, hpaused, hlate] at hkernel
    cases hkernel
  · intro hlate set hset
    have hkernel : (c.machine.kernel set.kernel).paused = c.supervisor.paused := by
      rcases Supervisor.mem_sets.1 hset with rfl | happlet
      · exact hpaces.main
      · rw [hpaces.applet set happlet, hlate, Bool.not_false, Bool.and_true]
    exact ⟨hkernel, fun hpaused => (hpaces.inTime set hset).trans (hkernel.trans hpaused)⟩

/-- An applet context is attached, and then the system is paused, shut down and paused again. -/
def inAdvance : List SupervisorCall :=
  [.attachApplet plainHost, .setPaused true, .changeDockedMode true, .shutDown .silent, .setPaused true]

/-- A context that is attached before the system is paused is paused with it. -/
theorem coverage_iff_inAdvance : ∃ c, after {} plainHost {} inAdvance = .ok c ∧ c.supervisor.paused = true ∧ c.Covers := by
  have hrun : (after {} plainHost {} inAdvance).toOption.map (fun c => (c.supervisor.paused, c.isLate)) = some (true, false) := by
    decide +kernel
  cases h : after {} plainHost {} inAdvance with
  | error e => rw [h] at hrun; cases hrun
  | ok c =>
    rw [h] at hrun
    obtain ⟨hpaused, hlate⟩ := Prod.mk.inj (Option.some.inj hrun)
    exact ⟨c, rfl, hpaused, (coverage_iff h).2 hlate⟩

/-- The system is paused, and then an applet context is attached. -/
def afterwards : List SupervisorCall := [.setPaused true, .attachApplet plainHost]

/-- An applet context that is attached to a paused system runs. -/
theorem coverage_false : ¬∀ (config : SupervisorConfig) (host : Host) (calls : List SupervisorCall) (c : Supervision),
    after config host {} calls = .ok c → c.Covers := by
  intro hcovers
  have hrun : (after {} plainHost {} afterwards).toOption.map (fun c => (c.supervisor.paused, c.supervisor.applet.map fun set =>
      (c.machine.kernel set.kernel).paused)) = some (true, some false) := by
    decide +kernel
  cases h : after {} plainHost {} afterwards with
  | error e => rw [h] at hrun; cases hrun
  | ok c =>
    rw [h] at hrun
    obtain ⟨hpaused, hkernel⟩ := Prod.mk.inj (Option.some.inj hrun)
    obtain ⟨applet, happlet, hruns⟩ := Option.map_eq_some_iff.1 hkernel
    have hcovered := (hcovers {} plainHost afterwards c h applet (Supervisor.mem_sets.2 (.inr happlet))).1
    rw [hruns, hpaused] at hcovered
    cases hcovered

end Supervision

end Microkernel
