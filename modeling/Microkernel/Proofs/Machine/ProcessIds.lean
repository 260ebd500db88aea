import Mathlib.Data.List.Perm.Basic
import Microkernel.Proofs.Machine.Starting

/-!
# Process ids

Service hosts count their pids from one and applications from 0x51, and both are members of one process set under their pids. As long
as the service hosts do not reach 0x51, or there is no application, no pid is given twice and no process is lost
(`pids_distinct_iff`). The eighty-first service host has the pid of the first application and takes its place in the set.
-/

namespace Microkernel.Machine

/-- Something that happens to a machine between two calls: it leaves the process set, the counters and the pids as they are. -/
structure Interlude where
  change : Machine → Machine
  frame : ∀ s, Frame SamePid s (change s)

/-- Terminating a process is an interlude: the process stays a member until it is reaped. -/
def Interlude.terminate (process : RecordId) : Interlude :=
  ⟨fun s => (terminateProcess process none s).2, terminateProcess_frame process none⟩

/-- A step in the life of a process set. -/
inductive SetStep
  | start (call : StartCall)
  | reap
  | shutDown
  | interlude (i : Interlude)

/-- A pid that a kernel has given. -/
structure Given where
  pid : Nat
  isApplication : Bool
  /-- The process that has it, unless it could not be made. -/
  process : Option RecordId
  deriving DecidableEq, Repr

/-- A machine with one kernel, and the pids that the kernel has given so far, the first one first. -/
structure History where
  kernel : RecordId
  machine : Machine
  given : List Given := []

namespace History

/-- The process set of the kernel. -/
def set (h : History) : Std.TreeMap Nat RecordId := (h.machine.kernel h.kernel).processes

/-- How many pids were given to applications, or to others. -/
def count (h : History) (isApplication : Bool) : Nat := (h.given.filter (·.isApplication = isApplication)).length

/-- The pid that the kernel gives next. -/
def nextPid (h : History) (isApplication : Bool) : Nat := ((h.machine.kernel h.kernel).takePid isApplication).1

/-- A step: a start call that is admitted is given a pid, and so is the process that shuts the kernel down. -/
def step (h : History) : SetStep → History
  | .start x =>
    let (result, machine) := (x.start h.kernel).run h.machine
    match x.admitted? (h.machine.kernel h.kernel) with
    | some _ =>
      let pid := { pid := h.nextPid x.isApplication, isApplication := x.isApplication, process := result.toOption }
      { h with machine, given := h.given ++ [pid] }
    | none => { h with machine }
  | .reap => { h with machine := (reapTerminated h.kernel h.machine).2 }
  | .shutDown =>
    let pid := { pid := h.nextPid false, isApplication := false, process := none }
    { h with machine := ((terminateAll h.kernel (pure ())).run h.machine).2, given := h.given ++ [pid] }
  | .interlude i => { h with machine := i.change h.machine }

/-- The history of a new kernel. -/
def after (x : Setup) (steps : List SetStep) : History := steps.foldl step { kernel := x.kernel, machine := x.machine }

/-- A process is found in the set under its pid. -/
def Finds (h : History) (id : RecordId) : Prop := h.set[(h.machine.process id).pid]? = some id

end History

/-- What takes a process out of the set: a reaping, also that of a start call, if the process is terminated, and a shutdown. -/
def SetStep.Removes (h : History) (id : RecordId) : SetStep → Prop
  | .start _ | .reap => (h.machine.process id).state = .terminated
  | .shutDown => True
  | .interlude _ => False

/-! ## What a history keeps -/

/-- The counters and the set are what the pids given so far say. -/
structure History.Consistent (h : History) : Prop where
  nextServicePid : (h.machine.kernel h.kernel).nextServicePid = firstServicePid + h.count false
  nextApplicationPid : (h.machine.kernel h.kernel).nextApplicationPid = firstApplicationPid + h.count true
  /-- Each kind has its pids in a row. -/
  pids : ∀ isApplication, (h.given.filter (·.isApplication = isApplication)).map Given.pid =
    List.range' (if isApplication then firstApplicationPid else firstServicePid) (h.count isApplication)
  /-- A process that was made has the pid that was given to it. -/
  made : ∀ g ∈ h.given, ∀ id, g.process = some id → id < h.machine.nextId ∧ (h.machine.process id).pid = g.pid
  /-- The members of the set were made, and stand under their pids. -/
  member : ∀ (pid : Nat) id, h.set[pid]? = some id → ∃ g ∈ h.given, g.process = some id ∧ g.pid = pid

namespace History.Consistent

variable {h : History}

/-- The counter of a kind is where the pids of that kind end. -/
theorem nextPid_eq (hc : h.Consistent) (isApplication : Bool) :
    h.nextPid isApplication = (if isApplication then firstApplicationPid else firstServicePid) + h.count isApplication := by
  cases isApplication with
  | true => exact hc.nextApplicationPid
  | false => exact hc.nextServicePid

/-- The members of the set were made before. -/
theorem id_lt (hc : h.Consistent) {pid : Nat} {id : RecordId} (hm : h.set[pid]? = some id) : id < h.machine.nextId := by
  obtain ⟨g, hg, hp, -⟩ := hc.member pid id hm
  exact (hc.made g hg id hp).1

/-- The members of the set have the pids under which they stand there. -/
theorem pid_eq (hc : h.Consistent) {pid : Nat} {id : RecordId} (hm : h.set[pid]? = some id) : (h.machine.process id).pid = pid := by
  obtain ⟨g, hg, hp, rfl⟩ := hc.member pid id hm
  exact (hc.made g hg id hp).2

/-- Nothing is given, and the set only loses members. -/
theorem keep (hc : h.Consistent) {machine : Machine}
    (hservice : (machine.kernel h.kernel).nextServicePid = (h.machine.kernel h.kernel).nextServicePid)
    (happlication : (machine.kernel h.kernel).nextApplicationPid = (h.machine.kernel h.kernel).nextApplicationPid)
    (hold : ∀ id, id < h.machine.nextId → id < machine.nextId ∧ (machine.process id).pid = (h.machine.process id).pid)
    (hmember : ∀ (pid : Nat) id, (machine.kernel h.kernel).processes[pid]? = some id → h.set[pid]? = some id) :
    History.Consistent { h with machine } where
  nextServicePid := hservice.trans hc.nextServicePid
  nextApplicationPid := happlication.trans hc.nextApplicationPid
  pids := hc.pids
  made g hg id hp := by
    obtain ⟨hlt, hpid⟩ := hc.made g hg id hp
    exact ⟨(hold id hlt).1, (hold id hlt).2.trans hpid⟩
  member pid id hm := hc.member pid id (hmember pid id hm)

/-- One more pid is counted for its kind. -/
theorem count_give (h : History) (g : Given) (isApplication : Bool) :
    History.count { h with given := h.given ++ [g] } isApplication =
      h.count isApplication + if g.isApplication = isApplication then 1 else 0 := by
  unfold count
  rw [List.filter_append, List.length_append]
  congr 1
  by_cases hg : g.isApplication = isApplication <;> simp [hg]

/-- A pid is given, and the process that has it may become a member. -/
theorem give (hc : h.Consistent) {machine : Machine} (isApplication : Bool) (process : Option RecordId)
    (hservice : (machine.kernel h.kernel).nextServicePid = ((h.machine.kernel h.kernel).takePid isApplication).2.nextServicePid)
    (happlication :
      (machine.kernel h.kernel).nextApplicationPid = ((h.machine.kernel h.kernel).takePid isApplication).2.nextApplicationPid)
    (hold : ∀ id, id < h.machine.nextId → id < machine.nextId ∧ (machine.process id).pid = (h.machine.process id).pid)
    (hnew : ∀ id, process = some id → id < machine.nextId ∧ (machine.process id).pid = h.nextPid isApplication)
    (hmember : ∀ (pid : Nat) id, (machine.kernel h.kernel).processes[pid]? = some id →
      h.set[pid]? = some id ∨ process = some id ∧ pid = h.nextPid isApplication) :
    History.Consistent { h with machine, given := h.given ++ [{ pid := h.nextPid isApplication, isApplication, process }] } := by
  have hcount (a : Bool) : History.count { h with
      machine, given := h.given ++ [{ pid := h.nextPid isApplication, isApplication, process }] } a =
      h.count a + if isApplication = a then 1 else 0 := count_give h _ a
  constructor
  case nextServicePid =>
    rw [hcount]
    change (machine.kernel h.kernel).nextServicePid = _
    rw [hservice, ← Nat.add_assoc, ← hc.nextServicePid]
    cases isApplication <;> rfl
  case nextApplicationPid =>
    rw [hcount]
    change (machine.kernel h.kernel).nextApplicationPid = _
    rw [happlication, ← Nat.add_assoc, ← hc.nextApplicationPid]
    cases isApplication <;> rfl
  case pids =>
    intro a
    rw [hcount, List.filter_append, List.map_append, hc.pids]
    by_cases ha : isApplication = a
    · subst ha
      have hnext := hc.nextPid_eq isApplication
      simp [hnext, List.range'_concat]
    · simp [ha]
  case made =>
    intro g hg id hp
    rcases List.mem_append.1 hg with hg | hg
    · obtain ⟨hlt, hpid⟩ := hc.made g hg id hp
      exact ⟨(hold id hlt).1, (hold id hlt).2.trans hpid⟩
    · rw [List.mem_singleton.1 hg] at hp ⊢
      exact hnew id hp
  case member =>
    intro pid id hm
    rcases hmember pid id hm with hm | ⟨hp, rfl⟩
    · obtain ⟨g, hg, hp, hpid⟩ := hc.member pid id hm
      exact ⟨g, List.mem_append_left _ hg, hp, hpid⟩
    · exact ⟨_, List.mem_append_right _ (List.mem_singleton_self _), hp, rfl⟩

/-- A frame gives nothing. -/
theorem of_frame (hc : h.Consistent) {R : RecordId → Process → Process → Prop} {machine : Machine} (hf : Frame R h.machine machine)
    (hpid : ∀ id p q, R id p q → q.pid = p.pid) : History.Consistent { h with machine } := by
  have hk := hf.kernel h.kernel
  refine hc.keep hk.nextServicePid hk.nextApplicationPid
    (fun id hid => ⟨Nat.lt_of_lt_of_le hid hf.nextId, hpid id _ _ (hf.process id)⟩) fun pid id hm => ?_
  rw [hk.processes] at hm
  exact hm

/-- Every step keeps a history consistent. -/
theorem step (hc : h.Consistent) (x : SetStep) : (h.step x).Consistent := by
  cases x with
  | start x =>
    rw [History.step]
    cases ha : x.admitted? (h.machine.kernel h.kernel) with
    | none =>
      obtain ⟨e, journal, hrun⟩ := StartCall.start_of_refused ha
      rw [hrun]
      exact hc.keep rfl rfl (fun id hid => ⟨hid, rfl⟩) fun _ _ hm => hm
    | some capabilities =>
      have hs := StartCall.start_starts ha fun pid id hm => hc.id_lt hm
      rcases hrun : (x.start h.kernel).run h.machine with ⟨result, machine⟩
      rw [hrun] at hs
      have hold (id : RecordId) (hid : id < h.machine.nextId) :
          id < machine.nextId ∧ (machine.process id).pid = (h.machine.process id).pid :=
        ⟨Nat.lt_trans hid hs.nextId, congrArg Process.pid (hs.process id (Nat.ne_of_lt hid))⟩
      refine hc.give x.isApplication result.toOption hs.nextServicePid hs.nextApplicationPid hold ?_ ?_
      · intro id hp
        cases result with
        | error e => cases hp
        | ok started =>
          obtain rfl := Option.some.inj hp
          obtain ⟨rfl, hpid, -⟩ := hs.started started rfl
          exact ⟨hs.nextId, hpid⟩
      · intro pid id hm
        cases result with
        | error e =>
          rw [hs.failed e rfl] at hm
          exact .inl hm
        | ok started =>
          obtain ⟨-, -, hset⟩ := hs.started started rfl
          rw [hset] at hm
          by_cases hp : pid = ((h.machine.kernel h.kernel).takePid x.isApplication).1
          · rw [if_pos hp] at hm
            exact .inr ⟨hm, hp⟩
          · rw [if_neg hp] at hm
            exact .inl (Option.filter_eq_some_iff.1 hm).1
  | reap =>
    have hkernel := kernel_reapTerminated h.kernel h.machine
    refine hc.keep (by rw [hkernel]) (by rw [hkernel]) (fun id hid => ⟨hid, rfl⟩) fun pid id hm => ?_
    rw [hkernel] at hm
    exact (Option.filter_eq_some_iff.1 ((getElem?_live _ _ _).symm.trans hm)).1
  | shutDown =>
    have hs := terminateAll_shutsDown h.kernel h.machine
    refine hc.give false none hs.nextServicePid hs.nextApplicationPid
      (fun id hid => ⟨Nat.lt_of_lt_of_le hid hs.nextId, hs.pid id hid⟩) (fun _ h => nomatch h) fun pid id hm => .inl ?_
    rcases hs.processes with hp | hp
    · rw [hp] at hm
      cases hm
    · rw [hp] at hm
      exact hm
  | interlude i => exact hc.of_frame (i.frame h.machine) fun _ _ _ h => h

end History.Consistent

/-- Whatever steps led to a history, it is consistent. -/
theorem History.consistent_after (x : Setup) (steps : List SetStep) : (after x steps).Consistent := by
  have hnew : Consistent { kernel := x.kernel, machine := x.machine } := by
    constructor
    case nextServicePid => exact congrArg Kernel.nextServicePid x.kernel_machine
    case nextApplicationPid => exact congrArg Kernel.nextApplicationPid x.kernel_machine
    case pids => exact fun _ => rfl
    case made => exact fun _ hg => nomatch hg
    case member =>
      intro pid id hm
      have hset : (x.machine.kernel x.kernel).processes = {} := congrArg Kernel.processes x.kernel_machine
      change (x.machine.kernel x.kernel).processes[pid]? = some id at hm
      rw [hset] at hm
      cases hm
  unfold after
  generalize ({ kernel := x.kernel, machine := x.machine } : History) = h at hnew
  induction steps generalizing h with
  | nil => exact hnew
  | cons step rest ih => exact ih (h.step step) (hnew.step step)

/-- Pids of both kinds are distinct exactly if those of the hosts end before those of the applications begin, or one kind has none. -/
theorem History.Consistent.nodup_iff {h : History} (hc : h.Consistent) :
    (h.given.map Given.pid).Nodup ↔ h.count false < firstApplicationPid ∨ h.count true = 0 := by
  have hsplit : (List.range' firstServicePid (h.count false) ++ List.range' firstApplicationPid (h.count true)).Perm
      (h.given.map Given.pid) := by
    have hservice := hc.pids false
    have happlication := hc.pids true
    simp only [Bool.false_eq_true, if_false, if_true] at hservice happlication
    have hkinds : (fun g : Given => decide (g.isApplication = true)) = fun g => !decide (g.isApplication = false) :=
      funext fun g => by cases g.isApplication <;> rfl
    rw [← hservice, ← happlication, ← List.map_append, hkinds]
    exact (List.filter_append_perm _ _).map _
  rw [← hsplit.nodup_iff, List.nodup_append]
  simp only [List.mem_range'_1, firstServicePid, firstApplicationPid]
  constructor
  · rintro ⟨-, -, hdisjoint⟩
    by_contra hboth
    exact hdisjoint 0x51 ⟨by omega, by omega⟩ 0x51 ⟨by omega, by omega⟩ rfl
  · intro hkind
    refine ⟨List.nodup_range', List.nodup_range', fun pid hp pid' hp' he => ?_⟩
    omega

/-- What a step does if no process is lost: a process that is started is found in the set, and stays there until it is removed. -/
structure History.Retains (h : History) (x : SetStep) : Prop where
  started : ∀ call id, x = .start call → ((call.start h.kernel).run h.machine).1 = .ok id →
    (h.step x).Finds id ∧ ∃ g ∈ (h.step x).given, g.process = some id
  member : ∀ id, h.Finds id → (h.step x).Finds id ∨ x.Removes h id

namespace History.Consistent

variable {h : History}

/-- A member that keeps its place and its pid is found again. -/
theorem finds_of_getElem? (hc : h.Consistent) {x : SetStep} {id : RecordId} (pid : Nat) (hm : (h.step x).set[pid]? = some id) :
    (h.step x).Finds id := by
  unfold Finds
  rw [(hc.step x).pid_eq hm]
  exact hm

/-- A start that is refused gives no pid. -/
theorem step_of_refused {x : StartCall} (ha : x.admitted? (h.machine.kernel h.kernel) = none) : h.step (.start x) =
    { h with machine := ((x.start h.kernel).run h.machine).2 } := by
  rw [History.step, ha]
  rfl

/-- A start that is admitted gives the next pid of its kind, even if it fails later. -/
theorem step_of_admitted {x : StartCall} {capabilities : Capabilities}
    (ha : x.admitted? (h.machine.kernel h.kernel) = some capabilities) : h.step (.start x) =
      { h with machine := ((x.start h.kernel).run h.machine).2, given := h.given ++ [{
        pid := h.nextPid x.isApplication, isApplication := x.isApplication
        process := ((x.start h.kernel).run h.machine).1.toOption }] } := by
  rw [History.step, ha]
  rfl

/-- The pid of a member is not given again if pids are distinct. -/
theorem ne_nextPid (hc : h.Consistent) {x : StartCall} {capabilities : Capabilities}
    (ha : x.admitted? (h.machine.kernel h.kernel) = some capabilities)
    (hn : ((h.step (.start x)).given.map Given.pid).Nodup) {pid : Nat} {id : RecordId} (hm : h.set[pid]? = some id) :
    pid ≠ h.nextPid x.isApplication := by
  obtain ⟨g, hg, -, rfl⟩ := hc.member pid id hm
  rw [step_of_admitted ha, List.map_append, List.nodup_append] at hn
  exact hn.2.2 _ (List.mem_map_of_mem hg) _ (List.mem_singleton_self _)

/-- A process that is started is a member. -/
theorem retains_started (hc : h.Consistent) {x : StartCall} {id : RecordId} (hrun : ((x.start h.kernel).run h.machine).1 = .ok id) :
    (h.step (.start x)).Finds id ∧ ∃ g ∈ (h.step (.start x)).given, g.process = some id := by
  cases ha : x.admitted? (h.machine.kernel h.kernel) with
  | none =>
    obtain ⟨e, journal, hfail⟩ := StartCall.start_of_refused ha
    rw [hfail] at hrun
    cases hrun
  | some capabilities =>
    obtain ⟨-, -, hset⟩ := (StartCall.start_starts ha fun pid id hm => hc.id_lt hm).started id hrun
    constructor
    · refine hc.finds_of_getElem? (h.nextPid x.isApplication) ?_
      rw [step_of_admitted ha]
      exact (hset _).trans (if_pos rfl)
    · rw [step_of_admitted ha]
      exact ⟨_, List.mem_append_right _ (List.mem_singleton_self _), congrArg Except.toOption hrun⟩

/-- A member of the set stays a member unless the step removes it. -/
theorem retains_member (hc : h.Consistent) {x : SetStep} (hn : ((h.step x).given.map Given.pid).Nodup) {id : RecordId}
    (hf : h.Finds id) : (h.step x).Finds id ∨ x.Removes h id := by
  have hlive (hstate : (h.machine.process id).state ≠ .terminated) :
      (h.set[(h.machine.process id).pid]?).filter (fun id => (h.machine.process id).state ≠ .terminated) = some id :=
    Option.filter_eq_some_iff.2 ⟨hf, decide_eq_true hstate⟩
  -- the member is looked up under the pid it had before the step
  refine (Classical.em (x.Removes h id)).symm.imp_left fun hstays => hc.finds_of_getElem? (h.machine.process id).pid ?_
  cases x with
  | start x =>
    cases ha : x.admitted? (h.machine.kernel h.kernel) with
    | none =>
      obtain ⟨e, journal, hrun⟩ := StartCall.start_of_refused ha
      rw [step_of_refused ha, hrun]
      exact hf
    | some capabilities =>
      have hs := StartCall.start_starts ha fun pid id hm => hc.id_lt hm
      have hne := hc.ne_nextPid ha hn hf
      rw [step_of_admitted ha]
      cases hrun : ((x.start h.kernel).run h.machine).1 with
      | error e =>
        refine Eq.trans ?_ hf
        exact congrArg (·[(h.machine.process id).pid]?) (hs.failed e hrun)
      | ok started =>
        obtain ⟨-, -, hset⟩ := hs.started started hrun
        exact ((hset _).trans (if_neg hne)).trans (hlive hstays)
  | reap =>
    have hset : (h.step .reap).set = h.machine.live h.set := congrArg Kernel.processes (kernel_reapTerminated h.kernel h.machine)
    rw [hset, getElem?_live]
    exact hlive hstays
  | shutDown => exact absurd trivial hstays
  | interlude i =>
    have hset : (h.step (.interlude i)).set = h.set := ((i.frame h.machine).kernel h.kernel).processes
    rw [hset]
    exact hf

/-- No step loses a process as long as pids are distinct. -/
theorem retains (hc : h.Consistent) (x : SetStep) (hn : ((h.step x).given.map Given.pid).Nodup) : h.Retains x where
  started call id hx hrun := by
    subst hx
    exact hc.retains_started hrun
  member id hf := hc.retains_member hn hf

end History.Consistent

/-- What is given stays on the list. -/
theorem History.given_sublist (h : History) (x : SetStep) : h.given.Sublist (h.step x).given := by
  cases x with
  | start x =>
    cases ha : x.admitted? (h.machine.kernel h.kernel) with
    | some capabilities =>
      rw [Consistent.step_of_admitted ha]
      exact List.sublist_append_left _ _
    | none =>
      rw [Consistent.step_of_refused ha]
  | shutDown => exact List.sublist_append_left _ _
  | reap | interlude i => exact List.Sublist.refl _

/-- What was given stays given. -/
theorem History.given_sublist_foldl (h : History) (steps : List SetStep) : h.given.Sublist (steps.foldl step h).given := by
  induction steps generalizing h with
  | nil => exact List.Sublist.refl _
  | cons x rest ih => exact (h.given_sublist x).trans (ih _)

/-- No pid is given twice exactly if fewer than 0x51 service hosts or no applications were given pids, and then no process is lost. -/
theorem pids_distinct_iff (x : Setup) (steps : List SetStep) :
    (((History.after x steps).given.map Given.pid).Nodup ↔
      (History.after x steps).count false < firstApplicationPid ∨ (History.after x steps).count true = 0) ∧
    (∀ g ∈ (History.after x steps).given, ∀ id, g.process = some id → ((History.after x steps).machine.process id).pid = g.pid) ∧
    (((History.after x steps).given.map Given.pid).Nodup →
      ∀ before step rest, steps = before ++ step :: rest → (History.after x before).Retains step) := by
  have hc := History.consistent_after x steps
  refine ⟨hc.nodup_iff, fun g hg id hp => (hc.made g hg id hp).2, ?_⟩
  rintro hn before step rest rfl
  refine (History.consistent_after x before).retains step (hn.sublist (List.Sublist.map _ ?_))
  unfold History.after
  rw [List.foldl_append]
  exact History.given_sublist_foldl _ rest

/-! ## When the kinds meet -/

/-- A process that is given the pid of a member takes its place, whatever the member is doing. -/
theorem History.Consistent.displaces {h : History} (hc : h.Consistent) {x : StartCall} {id started : RecordId} (hf : h.Finds id)
    (hpid : (h.machine.process id).pid = h.nextPid x.isApplication) (hrun : ((x.start h.kernel).run h.machine).1 = .ok started) :
    ¬(h.step (.start x)).Finds id := by
  have hlt := hc.id_lt hf
  obtain ⟨hfound, -⟩ := hc.retains_started hrun
  cases ha : x.admitted? (h.machine.kernel h.kernel) with
  | none =>
    obtain ⟨e, journal, hfail⟩ := StartCall.start_of_refused ha
    rw [hfail] at hrun
    cases hrun
  | some capabilities =>
    have hs := StartCall.start_starts ha fun pid id hm => hc.id_lt hm
    obtain ⟨rfl, hpid', -⟩ := hs.started started hrun
    have hsame : ((h.step (.start x)).machine.process id).pid = ((h.step (.start x)).machine.process h.machine.nextId).pid := by
      rw [step_of_admitted ha]
      exact ((congrArg Process.pid (hs.process id (Nat.ne_of_lt hlt))).trans hpid).trans hpid'.symm
    intro hagain
    unfold Finds at hfound hagain
    rw [hsame, hfound] at hagain
    exact Nat.ne_of_lt hlt (Option.some.inj hagain).symm

/-- What a kernel admits does not change by starting processes. -/
theorem History.Consistent.admitted?_step {h : History} (hc : h.Consistent) (x y : StartCall) :
    y.admitted? ((h.step (.start x)).machine.kernel (h.step (.start x)).kernel) = y.admitted? (h.machine.kernel h.kernel) := by
  cases ha : x.admitted? (h.machine.kernel h.kernel) with
  | none =>
    obtain ⟨e, journal, hrun⟩ := StartCall.start_of_refused ha
    rw [step_of_refused ha, hrun]
    rfl
  | some capabilities =>
    have hs := StartCall.start_starts ha fun pid id hm => hc.id_lt hm
    rw [step_of_admitted ha]
    simp only [StartCall.admitted?, hs.shuttingDown, hs.config]

/-- Starting one process after the other gives one pid to each, as long as the kernel takes the call. -/
theorem History.Consistent.count_replicate {h : History} (hc : h.Consistent) {x : StartCall} {capabilities : Capabilities}
    (ha : x.admitted? (h.machine.kernel h.kernel) = some capabilities) (n : Nat) (isApplication : Bool) :
    ((List.replicate n (SetStep.start x)).foldl History.step h).count isApplication =
      h.count isApplication + if x.isApplication = isApplication then n else 0 := by
  induction n generalizing h with
  | zero => split <;> rfl
  | succ n ih =>
    rw [List.replicate_succ, List.foldl_cons, ih (hc.step _) ((hc.admitted?_step x x).trans ha), step_of_admitted ha]
    change History.count { h with given := h.given ++ [_] } isApplication + _ = _
    rw [count_give]
    split <;> omega

/-- A call for a process without code, with the core and the priority of a service host. -/
def plainCall (flags : ProcessFlags) : StartCall where
  creation := { name := "plain", version := 0, programId := 0, codeAddress := 0, codePages := 0, flags }
  words := [50553847]
  priority := 44
  body := .guest

/-- One application and then eighty-one service hosts. -/
def crowd : List SetStep := .start (plainCall .application) :: List.replicate 81 (.start (plainCall .service))

/-- A new kernel of the smallest arrangement. -/
def plainSetup : Setup where
  config := {}
  host := { memory := .new 0x100000000 }
  fits := by decide

/-- One application and eighty-one hosts are given their pids. -/
theorem count_crowd : (History.after plainSetup crowd).count false = 81 ∧ (History.after plainSetup crowd).count true = 1 := by
  have hc := History.consistent_after plainSetup []
  have hkernel : (History.after plainSetup []).machine.kernel (History.after plainSetup []).kernel = plainSetup.newKernel :=
    plainSetup.kernel_machine
  have hcount (isApplication : Bool) : (History.after plainSetup []).count isApplication = 0 := rfl
  have hcrowd : History.after plainSetup crowd = (List.replicate 81 (.start (plainCall .service))).foldl History.step
      ((History.after plainSetup []).step (.start (plainCall .application))) := by
    unfold History.after crowd
    rw [List.foldl_cons, List.foldl_nil]
  have hadmitted (flags : ProcessFlags) :
      ∃ capabilities, (plainCall flags).admitted? plainSetup.newKernel = some capabilities :=
    Option.isSome_iff_exists.1 (by decide : ((plainCall .service).admitted? plainSetup.newKernel).isSome = true)
  obtain ⟨application, ha⟩ := hadmitted .application
  obtain ⟨service, hs⟩ := hadmitted .service
  rw [hcrowd]
  rw [← hkernel] at ha hs
  generalize History.after plainSetup [] = h at hc hcount ha hs
  have hone := hc.count_replicate ha 1
  have hnext := (hc.step (.start (plainCall .application))).count_replicate ((hc.admitted?_step _ _).trans hs) 81
  simp only [List.replicate_one, List.foldl_cons, List.foldl_nil] at hone
  simp only [hnext, hone, hcount]
  decide

/-- Pids are given twice, and processes may be lost. -/
theorem pids_distinct_false : ¬∀ (x : Setup) (steps : List SetStep), ((History.after x steps).given.map Given.pid).Nodup ∧
    ∀ before step rest, steps = before ++ step :: rest → (History.after x before).Retains step := by
  intro h
  have hdistinct := (History.consistent_after plainSetup crowd).nodup_iff.1 (h plainSetup crowd).1
  rw [count_crowd.1, count_crowd.2] at hdistinct
  exact absurd hdistinct (by decide)

end Microkernel.Machine
