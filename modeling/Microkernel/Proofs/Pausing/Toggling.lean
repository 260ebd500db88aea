import Microkernel.Proofs.Machine.Replacing
import Microkernel.Proofs.Pausing.Lasting

/-!
# Pausing and resuming step by step

A call that pauses a kernel or resumes it takes two steps. It turns the flag, together with the applications, while it has the
process set to itself; then it turns the clock. Between the two steps of a call others may take theirs, processes may be started and
ended, and time may pass.
-/

namespace Microkernel.Machine

/-! ## Steps -/

/-- Pauses a kernel or resumes it. -/
def toggle (kernel : RecordId) (paused : Bool) : Update Unit := if paused then pause kernel else resume kernel

/-- Turns the flag of a kernel and all its applications; answers whether there was something to turn. -/
def turnFlag (kernel : RecordId) (paused : Bool) : Update Bool := do
  let k := (← get).kernel kernel
  if k.paused = paused then return false
  setKernel kernel { k with paused }
  for id in (← get).applicationsOf kernel do setPaused id paused
  return true

/-- Tells that a kernel was paused or resumed. -/
def tellToggled (kernel : RecordId) (paused : Bool) : Update Unit := do
  log .info (if paused then "Emulation paused" else "Emulation resumed")
  let _ ← audit kernel (if paused then .paused else .resumed)

/-- Stops the clock of a kernel or lets it go on, and tells. -/
def turnClock (kernel : RecordId) (paused : Bool) : Update Unit := do
  let k := (← get).kernel kernel
  setKernel kernel { k with clock := if paused then k.clock.suspend k.host.now else k.clock.resume k.host.now }
  tellToggled kernel paused

/-- What a shutdown does once it has resumed the kernel. -/
def shutDown (kernel : RecordId) : Action Unit := do
  setKernel kernel { (← get).kernel kernel with shuttingDown := true }
  let host ← createProcess kernel "KernelTermination" 0 .service {}
  shutDownFrom kernel host

/-- Lets time pass on the host of a kernel. -/
def pass (kernel : RecordId) (nanos : Nat) : Update Unit := do
  let k := (← get).kernel kernel
  setKernel kernel { k with host := { k.host with now := k.host.now + nanos } }

/-- How far a call has come. -/
inductive ToggleStage
  | called
  /-- The flag is turned, and the clock is not yet. -/
  | turned
  | returned
  deriving DecidableEq

/-- A call that pauses a kernel or resumes it. -/
structure Toggle where
  paused : Bool
  stage : ToggleStage := .called

/-- A machine, and the calls that pause one of its kernels and resume it. -/
structure Toggling where
  kernel : RecordId
  machine : Machine
  calls : List Toggle := []
  /-- The call that turned the flag last. -/
  flagTurned : Option Nat := none
  /-- The call that turned the clock last. -/
  clockTurned : Option Nat := none

namespace Toggling

/-- A call takes its next step. -/
def advance (c : Toggling) (i : Nat) (x : Toggle) : Toggling :=
  match x.stage with
  | .called =>
    let r := turnFlag c.kernel x.paused c.machine
    if r.1 then { c with machine := r.2, calls := c.calls.set i { x with stage := .turned }, flagTurned := some i }
    else { c with machine := r.2, calls := c.calls.set i { x with stage := .returned } }
  | .turned => { c with
      machine := (turnClock c.kernel x.paused c.machine).2
      calls := c.calls.set i { x with stage := .returned }
      clockTurned := some i }
  | .returned => c

/-- What happens next. -/
inductive Step
  /-- Somebody calls to pause the kernel or to resume it. -/
  | call (paused : Bool)
  | advance (i : Nat)
  | start (x : StartCall)
  | terminate (id : RecordId)
  /-- The body of a thread is over. -/
  | exit (thread : RecordId) (ending : ThreadEnd)
  | reap
  /-- A shutdown goes on. The call that resumes the kernel first is one of the calls. -/
  | shutDown
  | pass (nanos : Nat)
  /-- The host pauses a process or resumes it, whatever the kernel does. -/
  | setPaused (id : RecordId) (paused : Bool)

/-- The step goes past the kernel. -/
def Step.isApart : Step → Bool
  | setPaused _ _ => true
  | _ => false

def step (c : Toggling) : Step → Toggling
  | .call paused => { c with calls := c.calls ++ [{ paused }] }
  | .advance i => (c.calls[i]?).elim c (c.advance i)
  | .start x => { c with machine := ((x.start c.kernel).run c.machine).2 }
  | .terminate id => { c with machine := (terminateProcess id none c.machine).2 }
  | .exit thread ending => { c with machine := (exitThread thread ending c.machine).2 }
  | .reap => { c with machine := (reapTerminated c.kernel c.machine).2 }
  | .shutDown => { c with machine := ((Machine.shutDown c.kernel).run c.machine).2 }
  | .pass nanos => { c with machine := (Machine.pass c.kernel nanos c.machine).2 }
  | .setPaused id paused => { c with machine := (Machine.setPaused id paused c.machine).2 }

/-- Calls on a new kernel and what happens besides, in an order. -/
def after (x : Setup) (steps : List Step) : Toggling := steps.foldl step { kernel := x.kernel, machine := x.machine }

/-- The process set of the kernel. -/
def set (c : Toggling) : Std.TreeMap Nat RecordId := (c.machine.kernel c.kernel).processes

def paused (c : Toggling) : Bool := (c.machine.kernel c.kernel).paused

def clock (c : Toggling) : TickClock := (c.machine.kernel c.kernel).clock

/-- All calls have returned. -/
def AtRest (c : Toggling) : Prop := ∀ x ∈ c.calls, x.stage = .returned

instance (c : Toggling) : Decidable c.AtRest := inferInstanceAs (Decidable (∀ x ∈ c.calls, x.stage = .returned))

end Toggling

/-! ## Steps in a row -/

/-- Pausing processes changes nothing but the processes. -/
theorem foldl_setPaused (ids : List RecordId) (paused : Bool) (s : Machine) :
    ids.foldl (fun s id => (setPaused id paused s).2) s = { s with
      processes := ids.foldl (fun processes id => processes.insert id { processes.getD id default with paused }) s.processes } := by
  induction ids generalizing s with
  | nil => rfl
  | cons id rest ih => exact ih _

/-- A kernel with the same process set has the same applications. -/
theorem applicationsOf_withKernel {kernel : RecordId} {s : Machine} {k : Kernel} (h : k.processes = (s.kernel kernel).processes) :
    (s.withKernel kernel k).applicationsOf kernel = s.applicationsOf kernel := by
  rw [applicationsOf, applicationsOf, processesOf, processesOf, kernel_withKernel, if_pos rfl, h]
  rfl

/-- The machine after its flag and its applications were turned. -/
def flagged (s : Machine) (kernel : RecordId) (paused : Bool) : Machine :=
  (s.applicationsOf kernel).foldl (fun t id => (setPaused id paused t).2)
    (s.withKernel kernel { s.kernel kernel with paused })

/-- Turning the flag changes nothing else of the kernel. -/
theorem kernel_flagged (s : Machine) (kernel : RecordId) (paused : Bool) :
    (s.flagged kernel paused).kernel kernel = { s.kernel kernel with paused } := by
  rw [flagged, foldl_setPaused]
  exact (kernel_withKernel _ _ _ _).trans (if_pos rfl)

/-- A flag is turned unless it stands as asked for. -/
theorem turnFlag_run (kernel : RecordId) (paused : Bool) (s : Machine) : turnFlag kernel paused s =
    if (s.kernel kernel).paused = paused then (false, s) else (true, s.flagged kernel paused) := by
  rw [turnFlag, Update.run_look]
  split
  · rfl
  · rw [Update.run_bind, Update.run_look, Update.run_bind, Update.run_forIn]
    have hsame : (s.withKernel kernel { s.kernel kernel with paused }).applicationsOf kernel = s.applicationsOf kernel :=
      applicationsOf_withKernel rfl
    rw [flagged, ← hsame]
    rfl

/-- A call that has something to turn turns the flag and the clock, and then the applications. -/
theorem toggle_run {kernel : RecordId} {paused : Bool} {s : Machine} (h : (s.kernel kernel).paused ≠ paused) :
    (toggle kernel paused s).2 =
      (tellToggled kernel paused ((s.applicationsOf kernel).foldl (fun t id => (setPaused id paused t).2)
        (s.withKernel kernel { s.kernel kernel with
          paused
          clock := if paused then (s.kernel kernel).clock.suspend (s.kernel kernel).host.now
            else (s.kernel kernel).clock.resume (s.kernel kernel).host.now }))).2 := by
  cases paused with
  | true =>
    have hk : (!(s.kernel kernel).paused) = true := by rw [eq_false_of_ne_true h, Bool.not_false]
    change (pause kernel s).2 = _
    rw [pause, Update.run_look, if_pos hk, Update.run_bind, Update.run_look, Update.run_bind, Update.run_forIn]
    rw [← applicationsOf_withKernel (s := s) (k := { s.kernel kernel with
      paused := true, clock := (s.kernel kernel).clock.suspend (s.kernel kernel).host.now }) rfl]
    rfl
  | false =>
    change (resume kernel s).2 = _
    rw [resume, Update.run_look, if_pos (eq_true_of_ne_false h), Update.run_bind, Update.run_look, Update.run_bind,
      Update.run_forIn]
    rw [← applicationsOf_withKernel (s := s) (k := { s.kernel kernel with
      paused := false, clock := (s.kernel kernel).clock.resume (s.kernel kernel).host.now }) rfl]
    rfl

/-- A call that asks for what already holds changes nothing. -/
theorem toggle_of_eq {kernel : RecordId} {paused : Bool} {s : Machine} (h : (s.kernel kernel).paused = paused) :
    (toggle kernel paused s).2 = s := by
  cases paused with
  | true =>
    change (pause kernel s).2 = _
    rw [pause, Update.run_look, if_neg (by rw [h]; exact Bool.false_ne_true)]
    rfl
  | false =>
    change (resume kernel s).2 = _
    rw [resume, Update.run_look, if_neg (by rw [h]; exact Bool.false_ne_true)]
    rfl

/-- The steps of a call that nobody comes between are the call. -/
theorem toggle_of_steps {kernel : RecordId} {paused : Bool} {s : Machine} {k : Kernel} (hk : s.kernels[kernel]? = some k) :
    (toggle kernel paused s).2 = if (turnFlag kernel paused s).1 then (turnClock kernel paused (turnFlag kernel paused s).2).2
      else s := by
  rw [turnFlag_run]
  by_cases h : (s.kernel kernel).paused = paused
  · rw [if_pos h, toggle_of_eq h]
    rfl
  · rw [if_neg h, toggle_run h]
    dsimp only
    rw [if_pos rfl, turnClock, Update.run_look, Update.run_bind]
    refine congrArg (fun t => (tellToggled kernel paused t).2) ?_
    rw [kernel_flagged, flagged, foldl_setPaused, foldl_setPaused]
    change _ = { s with kernels := (s.kernels.insert kernel _).insert kernel _, processes := _ }
    rw [Records.insert_insert hk]
    rfl

/-- A call that nobody comes between is carried out as a whole, and if it turns anything it turns both. -/
theorem Toggling.call_alone (c : Toggling) (paused : Bool) {k : Kernel} (hk : c.machine.kernels[c.kernel]? = some k) :
    let c' := ((c.step (.call paused)).step (.advance c.calls.length)).step (.advance c.calls.length)
    c'.machine = (toggle c.kernel paused c.machine).2 ∧ (c.clockTurned = c.flagTurned → c'.clockTurned = c'.flagTurned) := by
  have hlast (x : Toggle) : (c.calls ++ [x])[c.calls.length]? = some x := List.getElem?_concat_length
  have hset (x y : Toggle) : ((c.calls ++ [x]).set c.calls.length y)[c.calls.length]? = some y :=
    List.getElem?_set_self (by rw [List.length_append]; exact Nat.lt_succ_self _)
  rw [toggle_of_steps hk]
  simp only [step, hlast, Option.elim_some, advance]
  by_cases hturned : (turnFlag c.kernel paused c.machine).1 = true
  · simp only [if_pos hturned, hset, Option.elim_some, advance]
    exact ⟨trivial, fun _ => trivial⟩
  · simp only [if_neg hturned, hset, Option.elim_some, advance]
    refine ⟨?_, fun h => h⟩
    rw [turnFlag_run] at hturned ⊢
    split
    · rfl
    · next hne => exact absurd (by rw [if_neg hne]) hturned

/-- A shutdown is a call to resume the kernel and what follows. -/
theorem terminateAll_run (kernel : RecordId) (s : Machine) :
    (terminateAll kernel (pure ())).run s = (shutDown kernel).run (toggle kernel false s).2 := by
  unfold terminateAll shutDown
  rw [Action.run_lift_bind]
  rfl

end Microkernel.Machine
