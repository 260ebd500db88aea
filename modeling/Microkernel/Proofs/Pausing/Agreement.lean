import Microkernel.Proofs.Machine.ProcessIds
import Microkernel.Proofs.Pausing.GuestTime
import Microkernel.Proofs.Pausing.Toggling

/-!
# The pause flag, the applications and the clock

The applications of a kernel follow its flag, whatever calls come between, as long as nobody pauses a process by itself. The clock
follows exactly if the call that turned it last asked for the same as the call that turned the flag last (`Toggling.agrees_iff`). It
does when calls take turns; a call that overtakes another one between its two steps leaves a running kernel whose clock stands still
(`Toggling.agrees_false`).
-/

namespace Microkernel

/-- The process stands as the flag of its kernel says: an application is paused with the kernel, a service never. -/
structure Process.Follows (p : Process) (paused : Bool) : Prop where
  application : p.isApplication = true → p.state.isTerminating = false → p.paused = paused
  service : p.isApplication = false → p.paused = false

/-- An application that follows the flag follows it as long as it lasts. -/
theorem Process.Follows.lasts {p q : Process} {paused : Bool} (h : p.Follows paused) (hl : p.Lasts q) : q.Follows paused where
  application happ hstate := by
    have hbefore : p.state.isTerminating = false := eq_false_of_ne_true fun hp => by
      rw [hl.ending hp] at hstate
      cases hstate
    rcases hl.paused with hpaused | ⟨-, hending⟩
    · exact hpaused.trans (h.application (hl.isApplication.symm.trans happ) hbefore)
    · cases hstate.symm.trans hending
  service happ := by
    rcases hl.paused with hpaused | ⟨hpaused, -⟩
    · exact hpaused.trans (h.service (hl.isApplication.symm.trans happ))
    · exact hpaused

namespace Machine

variable {kernel id : RecordId} {s t : Machine}

/-- The members of the process set follow the flag. -/
def Follows (s : Machine) (kernel : RecordId) : Prop := ∀ (pid : Nat) id, (s.kernel kernel).processes[pid]? = some id →
  id < s.nextId ∧ (s.process id).Follows (s.kernel kernel).paused

/-- The flag and the clock are as they were, and the members of the process set follow if they did. -/
structure Upholds (kernel : RecordId) (s t : Machine) : Prop where
  paused : (t.kernel kernel).paused = (s.kernel kernel).paused
  clock : (t.kernel kernel).clock = (s.kernel kernel).clock
  follows : s.Follows kernel → t.Follows kernel

instance : IsPreorder Machine (Upholds kernel) where
  refl _ := ⟨rfl, rfl, fun h => h⟩
  trans _ _ _ h h' := ⟨h'.paused.trans h.paused, h'.clock.trans h.clock, fun hs => h'.follows (h.follows hs)⟩

/-- A machine that lasts upholds the flag and the clock. -/
theorem Upholds.of_lasts (h : Lasts s t) : Upholds kernel s t where
  paused := (h.kernel kernel).paused
  clock := (h.kernel kernel).clock
  follows hs pid id hm := by
    obtain ⟨hid, hf⟩ := hs pid id ((h.kernel kernel).member pid id hm)
    rw [(h.kernel kernel).paused]
    exact ⟨Nat.lt_of_lt_of_le hid h.nextId, hf.lasts (h.process id hid)⟩

/-! ## Turning the flag -/

/-- The processes of the list are paused, and no others. -/
theorem process_foldl_setPaused (ids : List RecordId) (paused : Bool) (s : Machine) (id : RecordId) :
    (ids.foldl (fun s id => (setPaused id paused s).2) s).process id =
      if id ∈ ids then { s.process id with paused } else s.process id := by
  induction ids generalizing s with
  | nil => rw [if_neg List.not_mem_nil, List.foldl_nil]
  | cons first rest ih =>
    have hfirst : (setPaused first paused s).2.process id =
        if id = first then { s.process first with paused } else s.process id := process_insert _ _ _ _
    rw [List.foldl_cons, ih, hfirst]
    by_cases hid : id = first
    · subst hid
      rw [if_pos rfl, if_pos List.mem_cons_self, ite_self]
    · simp only [hid, List.mem_cons, false_or, if_false]

/-- The applications of a kernel are the members of its process set that are applications. -/
theorem mem_applicationsOf : id ∈ s.applicationsOf kernel ↔
    (∃ pid : Nat, (s.kernel kernel).processes[pid]? = some id) ∧ (s.process id).isApplication = true := by
  rw [applicationsOf, List.mem_filter]
  exact and_congr_left fun _ => Records.mem_values

/-- Once the flag is turned all members of the process set follow it. -/
theorem Follows.flagged (h : s.Follows kernel) (paused : Bool) : (s.flagged kernel paused).Follows kernel := by
  have hnext : (s.flagged kernel paused).nextId = s.nextId := by rw [Machine.flagged, foldl_setPaused]; rfl
  intro pid id hm
  rw [kernel_flagged] at hm ⊢
  rw [hnext]
  obtain ⟨hid, hf⟩ := h pid id hm
  refine ⟨hid, ?_⟩
  rw [Machine.flagged, process_foldl_setPaused]
  split
  · next hmem => exact ⟨fun _ _ => rfl, fun happ => by cases (mem_applicationsOf.1 hmem).2.symm.trans happ⟩
  · next hmem => exact ⟨fun happ => absurd (mem_applicationsOf.2 ⟨⟨pid, hm⟩, happ⟩) hmem, hf.service⟩

/-! ## Starting a process -/

/-- A process that follows the flag is entered into the set. -/
theorem Upholds.insert (pid : Nat) (hid : id < s.nextId) (hn : t.nextId = s.nextId)
    (hf : ∀ other, (s.process other).Follows (s.kernel kernel).paused → (t.process other).Follows (s.kernel kernel).paused)
    (hnew : (t.process id).Follows (s.kernel kernel).paused) :
    Upholds kernel s (t.withKernel kernel { s.kernel kernel with processes := (s.kernel kernel).processes.insert pid id }) := by
  have hkernel (k : Kernel) : (t.withKernel kernel k).kernel kernel = k := (kernel_withKernel _ _ _ _).trans (if_pos rfl)
  constructor
  case paused => rw [hkernel]
  case clock => rw [hkernel]
  case follows =>
    intro hs pid other hm
    rw [hkernel] at hm ⊢
    have hm := (Records.getElem?_insert _ _ _ _).symm.trans hm
    change other < t.nextId ∧ (t.process other).Follows (s.kernel kernel).paused
    rw [hn]
    split at hm
    · obtain rfl := Option.some.inj hm
      exact ⟨hid, hnew⟩
    · obtain ⟨ho, hfollows⟩ := hs pid other hm
      exact ⟨ho, hf other hfollows⟩

/-- A process that is not paused joins the set: it is paused at once if it is an application and the kernel is paused. -/
theorem StartCall.join_upholds (x : StartCall) {thread : RecordId} (hid : id < s.nextId) (hp : (s.process id).paused = false) :
    Upholds kernel s (x.join kernel id thread s).2 := by
  have hannounce (text : String) (event : KernelEvent) : Keeps Lasts (do
      log .info text
      let _ ← audit kernel event
      startThread thread) := (log_lasts _ _).bind fun _ => (audit_lasts _ _).bind fun _ => startThread_lasts _
  have hlast (t : Machine) (hn : t.nextId = s.nextId)
      (hf : ∀ other, (s.process other).Follows (s.kernel kernel).paused → (t.process other).Follows (s.kernel kernel).paused)
      (hnew : (t.process id).Follows (s.kernel kernel).paused) (text : String) (event : KernelEvent) :
      Upholds kernel s ((do
        setKernel kernel { s.kernel kernel with processes := (s.kernel kernel).processes.insert (s.process id).pid id }
        log .info text
        let _ ← audit kernel event
        startThread thread : Update Unit) t).2 :=
    IsTrans.trans _ _ _ (Upholds.insert (s.process id).pid hid hn hf hnew) (.of_lasts (hannounce text event _))
  rw [join, Update.run_look, Update.run_look]
  dsimp only
  split
  · next hpaused =>
    obtain ⟨happ, hkernel⟩ := Bool.and_eq_true_iff.1 hpaused
    have hprocess (other : RecordId) : (setPaused id true s).2.process other =
        if other = id then { s.process id with paused := true } else s.process other := process_insert _ _ _ _
    have hnew : ((setPaused id true s).2.process id).Follows (s.kernel kernel).paused := by
      rw [hprocess, if_pos rfl]
      exact ⟨fun _ _ => hkernel.symm, fun hservice => by cases happ.symm.trans hservice⟩
    refine hlast (setPaused id true s).2 rfl (fun other hf => ?_) hnew _ _
    by_cases ho : other = id
    · exact ho ▸ hnew
    · rw [hprocess, if_neg ho]
      exact hf
  · next hpaused =>
    refine hlast s rfl (fun _ hf => hf) ⟨fun happ _ => ?_, fun _ => hp⟩ _ _
    rw [happ, Bool.true_and] at hpaused
    exact hp.trans (eq_false_of_ne_true hpaused).symm

/-- Starting a process upholds the flag. -/
theorem StartCall.start_upholds (x : StartCall) (kernel : RecordId) (s : Machine) :
    Upholds kernel s ((x.start kernel).run s).2 := by
  cases ha : x.admitted? (s.kernel kernel) with
  | none =>
    obtain ⟨e, journal, hrun⟩ := start_of_refused ha
    rw [hrun]
    exact .of_lasts (.of_eq (Nat.le_refl _) rfl rfl)
  | some capabilities =>
    obtain ⟨hid, hc⟩ : (x.create kernel capabilities s).1 = s.nextId ∧
        Creates kernel x.isApplication s (x.create kernel capabilities s).2 := createProcess_creates _ _ _ _ _ s
    have hcreate : Lasts s (x.create kernel capabilities s).2 := createProcess_lasts _ _ _ _ _ s
    have hunpaused : ((x.create kernel capabilities s).2.process s.nextId).paused = false :=
      congrArg Process.paused ((process_insert s s.nextId s.nextId _).trans (if_pos rfl))
    obtain ⟨hok, hfail⟩ := x.makeThread_lasts kernel hcreate (Nat.le_refl s.nextId)
    rw [start_of_admitted ha, hid]
    generalize (x.create kernel capabilities s).2 = c at hc hcreate hunpaused hok hfail ⊢
    rcases hrun : (x.makeThread kernel s.nextId).run c with ⟨e | thread, t⟩
    · exact .of_lasts (hfail e t hrun)
    · have hnew : s.nextId < c.nextId := hc.nextId ▸ Nat.lt_succ_self _
      -- what comes before the process joins the set pauses nothing
      have hready := IsTrans.trans _ _ _ (hok thread t hrun) (IsTrans.trans _ _ _ (moveProcess_lasts s.nextId .start t)
        (reapTerminated_lasts kernel _))
      refine IsTrans.trans _ _ _ (.of_lasts (IsTrans.trans _ _ _ hcreate hready)) (x.join_upholds ?_ ?_)
      · exact Nat.lt_of_lt_of_le hnew hready.nextId
      · rcases (hready.process s.nextId hnew).paused with hp | ⟨hp, -⟩
        · exact hp.trans hunpaused
        · exact hp

/-! ## Shutting down, time and the clock -/

/-- A shutdown upholds the flag and the clock once the kernel was resumed. -/
theorem shutDown_upholds (kernel : RecordId) (s : Machine) : Upholds kernel s ((shutDown kernel).run s).2 := by
  refine .of_lasts ?_
  have hbegin : Lasts s (setKernel kernel { s.kernel kernel with shuttingDown := true } s).2 :=
    .setKernel ⟨rfl, rfl, fun _ _ h => h, Nat.le_refl _⟩
  have hrest : Keeps Lasts (ExceptT.run (do
      let host ← createProcess kernel "KernelTermination" 0 .service {}
      shutDownFrom kernel host)) := .run_bind (.run_lift (createProcess_lasts _ _ _ _ _)) fun _ => shutDownFrom_lasts _ _
  rw [shutDown, Action.run_look, Action.run_lift_bind]
  exact IsTrans.trans _ _ _ hbegin (hrest _)

/-- Time that passes pauses nothing. -/
theorem pass_lasts (kernel : RecordId) (nanos : Nat) : Keeps Lasts (pass kernel nanos) :=
  Keeps.look fun _ => .setKernel ⟨rfl, rfl, fun _ _ h => h, Nat.le_refl _⟩

/-- Turning the clock touches neither the flag nor a process. -/
theorem turnClock_follows (paused : Bool) (h : s.Follows kernel) : (turnClock kernel paused s).2.Follows kernel ∧
    ((turnClock kernel paused s).2.kernel kernel).paused = (s.kernel kernel).paused ∧
    ((turnClock kernel paused s).2.kernel kernel).clock.isSuspended = paused := by
  have htell : Keeps Lasts (tellToggled kernel paused) := (log_lasts _ _).bind fun _ => (audit_lasts _ _).bind fun _ => .pure _
  rw [turnClock, Update.run_look, Update.run_bind]
  let k : Kernel := { s.kernel kernel with
    clock := if paused then (s.kernel kernel).clock.suspend (s.kernel kernel).host.now
      else (s.kernel kernel).clock.resume (s.kernel kernel).host.now }
  have hkernel : (s.withKernel kernel k).kernel kernel = k := (kernel_withKernel _ _ _ _).trans (if_pos rfl)
  have hturned : (s.withKernel kernel k).Follows kernel := by
    intro pid id hm
    rw [hkernel] at hm ⊢
    exact h pid id hm
  have hclock : k.clock.isSuspended = paused := by
    cases paused with
    | true => exact TickClock.isSuspended_suspend _ _
    | false => exact TickClock.isSuspended_resume _ _
  have hafter : Upholds kernel (s.withKernel kernel k) (tellToggled kernel paused (s.withKernel kernel k)).2 := .of_lasts (htell _)
  refine ⟨hafter.follows hturned, hafter.paused.trans ?_, (congrArg TickClock.isSuspended hafter.clock).trans ?_⟩
  · rw [hkernel]
  · rw [hkernel]
    exact hclock

/-! ## The invariant -/

namespace Toggling

variable {c : Toggling}

/-- Nothing was turned yet, or by a call that asked for this. -/
def Turned (c : Toggling) (turn : Option Nat) (paused : Bool) : Prop :=
  (turn = none ∧ paused = false) ∨ ∃ (i : Nat) (x : Toggle), turn = some i ∧ c.calls[i]? = some x ∧ x.paused = paused

/-- What holds between two steps. -/
structure Inv (c : Toggling) : Prop where
  follows : c.machine.Follows c.kernel
  flag : c.Turned c.flagTurned c.paused
  clock : c.Turned c.clockTurned c.clock.isSuspended

/-- The calls that there were ask for what they asked for. -/
theorem Turned.mono {c' : Toggling} {turn : Option Nat} {a : Bool} (h : c.Turned turn a)
    (hcalls : ∀ (i : Nat) x, c.calls[i]? = some x → ∃ y, c'.calls[i]? = some y ∧ y.paused = x.paused) : c'.Turned turn a := by
  rcases h with h | ⟨i, x, hi, hx, hpaused⟩
  · exact .inl h
  · obtain ⟨y, hy, hsame⟩ := hcalls i x hx
    exact .inr ⟨i, y, hi, hy, hsame.trans hpaused⟩

/-- A call goes on. -/
theorem calls_set {i : Nat} {x y : Toggle} {calls : List Toggle} (hx : calls[i]? = some x) (hy : y.paused = x.paused) :
    ∀ (j : Nat) z, calls[j]? = some z → ∃ w, (calls.set i y)[j]? = some w ∧ w.paused = z.paused := by
  intro j z hz
  by_cases hj : j = i
  · subst hj
    obtain rfl := Option.some.inj (hx.symm.trans hz)
    exact ⟨y, List.getElem?_set_self (List.getElem?_eq_some_iff.1 hx).1, hy⟩
  · exact ⟨z, (List.getElem?_set_ne (Ne.symm hj)).trans hz, rfl⟩

/-- What upholds the flag keeps the invariant. -/
theorem Inv.upheld (h : c.Inv) {t : Machine} (hu : Upholds c.kernel c.machine t) : Inv { c with machine := t } where
  follows := hu.follows h.follows
  flag := by
    rw [Toggling.paused, hu.paused]
    exact h.flag.mono fun i x hx => ⟨x, hx, rfl⟩
  clock := by
    rw [Toggling.clock, hu.clock]
    exact h.clock.mono fun i x hx => ⟨x, hx, rfl⟩

/-- A call that begins keeps the invariant. -/
theorem Inv.call (h : c.Inv) (paused : Bool) : Inv { c with calls := c.calls ++ [({ paused } : Toggle)] } := by
  have hcalls (i : Nat) (x : Toggle) (hx : c.calls[i]? = some x) :
      ∃ y, (c.calls ++ [({ paused } : Toggle)])[i]? = some y ∧ y.paused = x.paused :=
    ⟨x, (List.getElem?_append_left (List.getElem?_eq_some_iff.1 hx).1).trans hx, rfl⟩
  exact ⟨h.follows, h.flag.mono hcalls, h.clock.mono hcalls⟩

/-- A call that takes its next step keeps the invariant. -/
theorem Inv.advance (h : c.Inv) {i : Nat} {x : Toggle} (hx : c.calls[i]? = some x) : (c.advance i x).Inv := by
  have hlength := (List.getElem?_eq_some_iff.1 hx).1
  rw [Toggling.advance]
  cases x.stage with
  | called =>
    dsimp only
    rw [turnFlag_run]
    by_cases hsame : (c.machine.kernel c.kernel).paused = x.paused
    · rw [if_pos hsame, if_neg Bool.false_ne_true]
      exact ⟨h.follows, h.flag.mono (calls_set hx rfl), h.clock.mono (calls_set hx rfl)⟩
    · rw [if_neg hsame, if_pos rfl]
      constructor
      case follows => exact h.follows.flagged x.paused
      case flag =>
        refine .inr ⟨i, { x with stage := .turned }, rfl, List.getElem?_set_self hlength, ?_⟩
        exact congrArg Kernel.paused (kernel_flagged c.machine c.kernel x.paused).symm
      case clock =>
        have hclock : ((c.machine.flagged c.kernel x.paused).kernel c.kernel).clock = c.clock := by
          rw [kernel_flagged]
          rfl
        rw [Toggling.clock, hclock]
        exact h.clock.mono (calls_set hx rfl)
  | turned =>
    obtain ⟨hfollows, hpaused, hclock⟩ := turnClock_follows x.paused h.follows
    constructor
    case follows => exact hfollows
    case flag =>
      rw [Toggling.paused, hpaused]
      exact h.flag.mono (calls_set hx rfl)
    case clock => exact .inr ⟨i, { x with stage := .returned }, rfl, List.getElem?_set_self hlength, hclock.symm⟩
  | returned => exact h

/-- Every step that does not go past the kernel keeps the invariant. -/
theorem Inv.step (h : c.Inv) {x : Step} (hx : x.isApart = false) : (c.step x).Inv := by
  cases x with
  | call paused => exact h.call paused
  | advance i =>
    rw [Toggling.step]
    cases hx : c.calls[i]? with
    | none => exact h
    | some x => exact h.advance hx
  | start x => exact h.upheld (x.start_upholds _ _)
  | terminate id => exact h.upheld (.of_lasts (terminateProcess_lasts id none _))
  | exit thread ending => exact h.upheld (.of_lasts (exitThread_lasts thread ending _))
  | reap => exact h.upheld (.of_lasts (reapTerminated_lasts _ _))
  | shutDown => exact h.upheld (shutDown_upholds _ _)
  | pass nanos => exact h.upheld (.of_lasts (pass_lasts _ nanos _))
  | setPaused id paused => cases hx

/-- The invariant holds after all steps that stay with the kernel. -/
theorem inv_after (x : Setup) (steps : List Step) (h : ∀ step ∈ steps, step.isApart = false) : (after x steps).Inv := by
  have hnew : Inv { kernel := x.kernel, machine := x.machine } := by
    have hpaused : (x.machine.kernel x.kernel).paused = false := congrArg Kernel.paused x.kernel_machine
    have hclock : (x.machine.kernel x.kernel).clock.isSuspended = false :=
      congrArg (fun k => k.clock.isSuspended) x.kernel_machine
    have hset : (x.machine.kernel x.kernel).processes = {} := congrArg Kernel.processes x.kernel_machine
    refine ⟨fun pid id hm => ?_, .inl ⟨rfl, hpaused⟩, .inl ⟨rfl, hclock⟩⟩
    rw [hset] at hm
    cases (Std.TreeMap.getElem?_emptyc (a := pid)).symm.trans hm
  unfold after
  generalize ({ kernel := x.kernel, machine := x.machine } : Toggling) = c at hnew
  induction steps generalizing c with
  | nil => exact hnew
  | cons step rest ih =>
    exact ih (fun y hy => h y (List.mem_cons_of_mem _ hy)) (c.step step) (hnew.step (h step List.mem_cons_self))

/-! ## Agreement -/

/-- The applications of the process set that have not begun to end are paused exactly if the kernel is, and the services are not. -/
structure ProcessesAgree (c : Toggling) : Prop where
  applications : ∀ (pid : Nat) id, c.set[pid]? = some id → (c.machine.process id).isApplication = true →
    (c.machine.process id).state.isTerminating = false → (c.machine.process id).paused = c.paused
  services : ∀ (pid : Nat) id, c.set[pid]? = some id → (c.machine.process id).isApplication = false →
    (c.machine.process id).paused = false

/-- The clock stands still exactly if the kernel is paused. -/
def ClockAgrees (c : Toggling) : Prop := c.clock.isSuspended = c.paused

/-- What was asked for by the call that turned something last. A kernel runs before the first such call. -/
def asked (c : Toggling) (turn : Option Nat) : Bool := ((turn.bind fun i => c.calls[i]?).map Toggle.paused).getD false

/-- What was turned last is as the call asked that turned it. -/
theorem Turned.asked_eq {turn : Option Nat} {a : Bool} (h : c.Turned turn a) : c.asked turn = a := by
  rcases h with ⟨rfl, rfl⟩ | ⟨i, x, rfl, hx, rfl⟩
  · rfl
  · rw [asked, Option.bind_some, hx]
    rfl

/-! ### Calls in turn -/

/-- The step turns the flag for one call while another call has not yet turned the clock. -/
def Overtakes (c : Toggling) (step : Step) : Prop := ∃ (i j : Nat) (x y : Toggle), step = .advance i ∧ c.calls[i]? = some x ∧
  x.stage = .called ∧ x.paused ≠ c.paused ∧ c.calls[j]? = some y ∧ y.stage = .turned

/-- No call turns the flag between the two steps of another one. -/
def InTurn (x : Setup) (steps : List Step) : Prop :=
  ∀ before step rest, steps = before ++ step :: rest → ¬(after x before).Overtakes step

/-- Only the call that turned the flag last may still have to turn the clock, and when it has, both were turned by it. -/
structure Orderly (c : Toggling) : Prop where
  turning : ∀ (i : Nat) x, c.calls[i]? = some x → x.stage = .turned → c.flagTurned = some i
  turned : (∀ (i : Nat) x, c.calls[i]? = some x → x.stage ≠ .turned) → c.clockTurned = c.flagTurned

/-- What calls do not do leaves them in order. -/
theorem Orderly.congr {c' : Toggling} (h : c.Orderly) (hcalls : c'.calls = c.calls) (hflag : c'.flagTurned = c.flagTurned)
    (hclock : c'.clockTurned = c.clockTurned) : c'.Orderly := by
  constructor
  · rw [hcalls, hflag]
    exact h.turning
  · rw [hcalls, hflag, hclock]
    exact h.turned

/-- Where a call has gone on. -/
theorem getElem?_set_eq_some {calls : List Toggle} {i j : Nat} {y z : Toggle} (h : (calls.set i y)[j]? = some z) :
    (j = i ∧ z = y) ∨ (j ≠ i ∧ calls[j]? = some z) := by
  rw [List.getElem?_set] at h
  split at h
  · next hij =>
    split at h
    · exact .inl ⟨hij.symm, (Option.some.inj h).symm⟩
    · cases h
  · next hij => exact .inr ⟨Ne.symm hij, h⟩

/-- A call that is in turn takes a step. -/
theorem Orderly.advance (h : c.Orderly) {i : Nat} {x : Toggle} (hx : c.calls[i]? = some x) (hturn : ¬c.Overtakes (.advance i)) :
    (c.advance i x).Orderly := by
  have hself (y : Toggle) : (c.calls.set i y)[i]? = some y := List.getElem?_set_self (List.getElem?_eq_some_iff.1 hx).1
  rw [Toggling.advance]
  cases hstage : x.stage with
  | called =>
    dsimp only
    rw [turnFlag_run]
    by_cases hsame : (c.machine.kernel c.kernel).paused = x.paused
    · -- a call with nothing to turn returns, and was not between its steps before
      rw [if_pos hsame, if_neg Bool.false_ne_true]
      constructor
      · intro j y hy hturned
        rcases getElem?_set_eq_some hy with ⟨-, rfl⟩ | ⟨-, hy⟩
        · cases hturned
        · exact h.turning j y hy hturned
      · intro hnone
        refine h.turned fun j y hy hturned => ?_
        by_cases hji : j = i
        · subst hji
          obtain rfl := Option.some.inj (hx.symm.trans hy)
          cases hstage.symm.trans hturned
        · exact hnone j y ((List.getElem?_set_ne (Ne.symm hji)).trans hy) hturned
    · rw [if_neg hsame, if_pos rfl]
      constructor
      · intro j y hy hturned
        rcases getElem?_set_eq_some hy with ⟨rfl, -⟩ | ⟨-, hy⟩
        · rfl
        · exact absurd ⟨i, j, x, y, rfl, hx, hstage, Ne.symm hsame, hy, hturned⟩ hturn
      · exact fun hnone => absurd rfl (hnone i _ (hself _))
  | turned =>
    have hlast := h.turning i x hx hstage
    constructor
    · intro j y hy hturned
      rcases getElem?_set_eq_some hy with ⟨-, rfl⟩ | ⟨-, hy⟩
      · cases hturned
      · exact h.turning j y hy hturned
    · exact fun _ => hlast.symm
  | returned => exact h

/-- Steps that overtake no call keep the calls in order. -/
theorem Orderly.step (h : c.Orderly) {x : Step} (hturn : ¬c.Overtakes x) : (c.step x).Orderly := by
  cases x with
  | call paused =>
    have hnew {i : Nat} {y : Toggle} (hy : (c.calls ++ [({ paused } : Toggle)])[i]? = some y) (hturned : y.stage = .turned) :
        c.calls[i]? = some y := by
      by_cases hi : i < c.calls.length
      · rwa [List.getElem?_append_left hi] at hy
      · rw [List.getElem?_append_right (Nat.not_lt.1 hi)] at hy
        obtain rfl := List.mem_singleton.1 (List.mem_of_getElem? hy)
        cases hturned
    constructor
    · exact fun i y hy hturned => h.turning i y (hnew hy hturned) hturned
    · intro hnone
      refine h.turned fun i y hy hturned => hnone i y ?_ hturned
      exact (List.getElem?_append_left (List.getElem?_eq_some_iff.1 hy).1).trans hy
  | advance i =>
    rw [Toggling.step]
    cases hx : c.calls[i]? with
    | none => exact h
    | some y => exact h.advance hx hturn
  | start | terminate | exit | reap | shutDown | pass | setPaused => exact h.congr rfl rfl rfl

/-- If calls take turns, at most the last one still has to turn the clock. -/
theorem orderly_after (x : Setup) (steps : List Step) (h : InTurn x steps) : (after x steps).Orderly := by
  have hnew : Orderly { kernel := x.kernel, machine := x.machine } := ⟨nofun, fun _ => rfl⟩
  unfold InTurn after at h
  unfold after
  generalize ({ kernel := x.kernel, machine := x.machine } : Toggling) = c at h hnew
  induction steps generalizing c with
  | nil => exact hnew
  | cons first rest ih =>
    refine ih (c.step first) (fun before step after hsplit => ?_) (hnew.step (h [] first rest rfl))
    exact h (first :: before) step after (by rw [hsplit]; rfl)

/-! ### The exact condition -/

/-- The processes agree with the kernel at every moment, at rest or not, as long as nobody pauses one by itself or resumes it. The clock
agrees exactly if the call that turned it last asked for the same as the call that turned the flag last. When all calls have returned,
that is so if each turned the clock before the next one turned the flag. -/
theorem agrees_iff (x : Setup) (steps : List Step) (h : ∀ step ∈ steps, step.isApart = false) :
    let c := after x steps
    c.ProcessesAgree ∧ (c.ClockAgrees ↔ c.asked c.clockTurned = c.asked c.flagTurned) ∧
      (InTurn x steps → c.AtRest → c.ClockAgrees) := by
  intro c
  have hinv : c.Inv := inv_after x steps h
  have hclock : c.ClockAgrees ↔ c.asked c.clockTurned = c.asked c.flagTurned := by
    rw [hinv.clock.asked_eq, hinv.flag.asked_eq, ClockAgrees]
  refine ⟨⟨fun pid id hm => ?_, fun pid id hm => ?_⟩, hclock, fun hturn hrest => hclock.2 ?_⟩
  · exact (hinv.follows pid id hm).2.application
  · exact (hinv.follows pid id hm).2.service
  · have hturned : c.clockTurned = c.flagTurned := (orderly_after x steps hturn).turned fun i y hy hturned => by
      cases (hrest y (List.mem_of_getElem? hy)).symm.trans hturned
    rw [hturned]

/-- Three calls are under way at once, and their steps keep the order. One application is started between the steps of the first call
and a service later; another application is terminated. -/
def inOrder : List Step := [.start (plainCall .application), .call true, .call false, .call true, .advance 0,
  .start (plainCall .application), .advance 0, .pass 5, .advance 1, .terminate 1, .advance 1, .advance 2, .advance 2,
  .start (plainCall .service)]

/-- The calls in order come to rest in agreement. -/
theorem agrees_iff_inOrder : (∀ step ∈ inOrder, step.isApart = false) ∧ (after plainSetup inOrder).AtRest ∧
    (after plainSetup inOrder).ProcessesAgree ∧ (after plainSetup inOrder).ClockAgrees := by
  have happart : ∀ step ∈ inOrder, step.isApart = false := by decide
  obtain ⟨hprocesses, hclock, -⟩ := agrees_iff plainSetup inOrder happart
  exact ⟨happart, by decide +kernel, hprocesses, hclock.2 (by decide +kernel)⟩

/-- A kernel is paused and resumed, and the second call overtakes the first between the steps of it. -/
def overtaking : List Step := [.call true, .call false, .advance 0, .advance 1, .advance 1, .advance 0]

/-- The calls have returned and the kernel runs, but its clock stands still. -/
theorem agrees_false : (∀ step ∈ overtaking, step.isApart = false) ∧ (after plainSetup overtaking).AtRest ∧
    (after plainSetup overtaking).paused = false ∧ (after plainSetup overtaking).clock.isSuspended = true ∧
    ¬∀ (x : Setup) (steps : List Step), (∀ step ∈ steps, step.isApart = false) → (after x steps).AtRest →
      (after x steps).ClockAgrees := by
  have happart : ∀ step ∈ overtaking, step.isApart = false := by decide
  have hrest : (after plainSetup overtaking).AtRest := by decide +kernel
  have hruns : (after plainSetup overtaking).paused = false := by decide +kernel
  have hstands : (after plainSetup overtaking).clock.isSuspended = true := by decide +kernel
  refine ⟨happart, hrest, hruns, hstands, fun h => ?_⟩
  have hagrees : (after plainSetup overtaking).clock.isSuspended = (after plainSetup overtaking).paused :=
    h plainSetup overtaking happart hrest
  rw [hruns, hstands] at hagrees
  cases hagrees

/-- An application is paused by itself; then somebody calls to resume the kernel, which runs. -/
def pausedApart : List Step := [.start (plainCall .application), .setPaused 1 true, .call false, .advance 0]

/-- An application that is paused by itself stays paused in a kernel that runs. -/
theorem processesAgree_false : ¬∀ (x : Setup) (steps : List Step), (after x steps).AtRest → (after x steps).ProcessesAgree := by
  intro h
  have hpaused := (h plainSetup pausedApart (by decide +kernel)).applications 81 1 (by decide +kernel) (by decide +kernel)
    (by decide +kernel)
  exact absurd hpaused (by decide +kernel)

end Toggling

end Machine

end Microkernel
