import Microkernel.AuditLog
import Microkernel.Memory.Host
import Microkernel.Proofs.Since

/-!
# Guest time

A clock counts the nanoseconds of host time that lie in no suspension. At every moment of a run, whatever was suspended and resumed
before and how often, what the clock shows is that count (`Counts`, kept by calls and by time that passes), and no difference it takes
is cut off at zero (`Counts.exact`).
-/

namespace Microkernel.TickClock

/-- What can be asked of a clock. -/
inductive Action
  | suspend
  | resume
  | read
  deriving DecidableEq

/-- A call at a host time. -/
structure Call where
  time : Nat
  action : Action

/-- The clock after a call. -/
def step (c : TickClock) (call : Call) : TickClock :=
  match call.action with
  | .suspend => c.suspend call.time
  | .resume => c.resume call.time
  | .read => c

/-- A clock made at `epoch`, after calls. -/
def after (epoch : Nat) (calls : List Call) : TickClock := calls.foldl step (new epoch)

/-- The moment lies in a suspension: a call suspended the clock by then, and no call resumed it since. -/
def Suspended (calls : List Call) (moment : Nat) : Prop :=
  Since (fun call => call.action = .suspend ∧ call.time ≤ moment) (fun call => call.action = .resume ∧ call.time ≤ moment) calls

instance (calls : List Call) (moment : Nat) : Decidable (Suspended calls moment) :=
  inferInstanceAs (Decidable (Since _ _ calls))

/-- How many nanoseconds between two times lie in no suspension. -/
def unsuspended (calls : List Call) (start finish : Nat) : Nat :=
  (List.range' start (finish - start)).countP fun moment => ¬ Suspended calls moment

/-- The host times of a start, calls and a finish do not decrease. -/
def InOrder (start : Nat) (calls : List Call) (finish : Nat) : Prop :=
  List.IsChain (· ≤ ·) (start :: (calls.map Call.time ++ [finish]))

/-- Nothing is lost in what a call at this time computes: no difference is cut off at zero, and no sum or product leaves its word. -/
structure Exact (c : TickClock) (now : Nat) : Prop where
  epoch_le : c.epoch ≤ c.suspendedAt.getD now
  total_le : c.suspendedTotal ≤ c.suspendedAt.getD now - c.epoch
  start_le : ∀ start ∈ c.suspendedAt, start ≤ now
  total_lt : ∀ start ∈ c.suspendedAt, c.suspendedTotal + (now - start) < wordLimit
  product_lt : c.elapsed now * tickFrequency < wordLimit * wordLimit
  ticks_lt : c.ticks now < wordLimit

variable {c : TickClock} {call : Call} {calls more : List Call} {epoch now later moment : Nat}

/-- More calls are made of the clock that the first ones left. -/
theorem after_append (epoch : Nat) (calls more : List Call) :
    after epoch (calls ++ more) = more.foldl step (after epoch calls) := List.foldl_append

/-- A clock that was suspended is suspended. -/
theorem isSuspended_suspend (c : TickClock) (now : Nat) : (c.suspend now).isSuspended = true := by
  unfold suspend isSuspended
  cases h : c.suspendedAt with
  | none => rfl
  | some _ => exact congrArg Option.isSome h

/-- A clock that was resumed is not suspended. -/
theorem isSuspended_resume (c : TickClock) (now : Nat) : (c.resume now).isSuspended = false := by
  unfold resume isSuspended
  cases h : c.suspendedAt with
  | none => exact congrArg Option.isSome h
  | some _ => rfl

/-- A clock is suspended after a call that suspends it, and as before after any other that does not resume it. -/
theorem isSuspended_step (c : TickClock) (call : Call) :
    (c.step call).isSuspended = true ↔ call.action = .suspend ∨ (c.isSuspended = true ∧ call.action ≠ .resume) := by
  rw [step]
  cases call.action with
  | suspend => simp [isSuspended_suspend]
  | resume => simp [isSuspended_resume]
  | read => simp

theorem inOrder_nil : InOrder now [] later ↔ now ≤ later := by
  simp [InOrder]

/-- Calls are in order if the first is not before the start and the others follow it. -/
theorem inOrder_cons : InOrder now (call :: calls) later ↔ now ≤ call.time ∧ InOrder call.time calls later :=
  List.isChain_cons_cons

/-- Calls in order do not end before they start. -/
theorem InOrder.le (h : InOrder now calls later) : now ≤ later := by
  induction calls generalizing now with
  | nil => exact inOrder_nil.1 h
  | cons call rest ih =>
    obtain ⟨hle, hrest⟩ := inOrder_cons.1 h
    exact Nat.le_trans hle (ih hrest)

/-- No call in order is before the start. -/
theorem InOrder.le_time (h : InOrder now calls later) : ∀ call ∈ calls, now ≤ call.time := by
  induction calls generalizing now with
  | nil => exact fun _ hcall => absurd hcall List.not_mem_nil
  | cons first rest ih =>
    obtain ⟨hle, hrest⟩ := inOrder_cons.1 h
    rw [List.forall_mem_cons]
    exact ⟨hle, fun call hcall => Nat.le_trans hle (ih hrest call hcall)⟩

/-! ## Counting moments -/

/-- No time passes between a moment and itself. -/
theorem unsuspended_self (calls : List Call) (now : Nat) : unsuspended calls now now = 0 := by
  rw [unsuspended, Nat.sub_self]
  rfl

/-- What is unsuspended in two stretches of time adds up. -/
theorem unsuspended_add (calls : List Call) (hle : epoch ≤ now) (hlater : now ≤ later) :
    unsuspended calls epoch later = unsuspended calls epoch now + unsuspended calls now later := by
  have hlength : later - epoch = (now - epoch) + (later - now) := by omega
  rw [unsuspended, unsuspended, unsuspended, hlength, ← List.range'_append_1, List.countP_append, Nat.add_sub_cancel' hle]

/-- What calls at later times do is not seen before. -/
theorem unsuspended_append (hmore : ∀ call ∈ more, now ≤ call.time) (epoch : Nat) :
    unsuspended (calls ++ more) epoch now = unsuspended calls epoch now := by
  refine List.countP_congr fun moment hmoment => ?_
  rw [List.mem_range'_1] at hmoment
  have hsame : Suspended (calls ++ more) moment ↔ Suspended calls moment :=
    Since.append_of_idle fun call hcall => by
      have := hmore call hcall
      omega
  simp only [decide_eq_true_eq, hsame]

/-- Nothing is counted in a suspension. -/
theorem unsuspended_eq_zero (h : ∀ moment, now ≤ moment → moment < later → Suspended calls moment) : unsuspended calls now later = 0 := by
  refine List.countP_eq_zero.2 fun moment hmoment => ?_
  rw [List.mem_range'_1] at hmoment
  simpa using h moment hmoment.1 (by omega)

/-- All is counted where nothing is suspended. -/
theorem unsuspended_eq_sub (h : ∀ moment, now ≤ moment → moment < later → ¬ Suspended calls moment) :
    unsuspended calls now later = later - now := by
  have hall : (List.range' now (later - now)).countP (fun moment => ¬ Suspended calls moment) =
      (List.range' now (later - now)).length := by
    refine List.countP_eq_length.2 fun moment hmoment => ?_
    rw [List.mem_range'_1] at hmoment
    simpa using h moment hmoment.1 (by omega)
  rw [unsuspended, hall, List.length_range']

/-! ## What a run preserves -/

/-- The clock is that of a run, at a time by which all its calls are made: what it shows is counted, and what it knows of a suspension
holds from then on. -/
structure Counts (epoch : Nat) (calls : List Call) (c : TickClock) (now : Nat) : Prop where
  epoch_eq : c.epoch = epoch
  epoch_le : epoch ≤ c.suspendedAt.getD now
  start_le : ∀ start ∈ c.suspendedAt, start ≤ now
  total_le : c.suspendedTotal ≤ c.suspendedAt.getD now - epoch
  elapsed_eq : c.elapsed now = unsuspended calls epoch now
  suspended_iff : ∀ moment, now ≤ moment → (Suspended calls moment ↔ c.isSuspended = true)

namespace Counts

/-- A new clock counts from its epoch. -/
theorem new (epoch : Nat) : Counts epoch [] (TickClock.new epoch) epoch where
  epoch_eq := rfl
  epoch_le := Nat.le_refl _
  start_le _ hstart := by cases hstart
  total_le := Nat.zero_le _
  elapsed_eq := by simp [TickClock.new, elapsed, unsuspended_self]
  suspended_iff moment _ := by simp [TickClock.new, isSuspended, Suspended, Since]

/-- Time passes: guest time with it, unless the clock is suspended. -/
theorem pass (h : Counts epoch calls c now) (hle : now ≤ later) : Counts epoch calls c later := by
  obtain ⟨epoch', suspendedAt, total⟩ := c
  obtain ⟨rfl, hepoch, hstart, htotal, helapsed, hsuspended⟩ := h
  have hlasting : ∀ moment, later ≤ moment → (Suspended calls moment ↔ isSuspended ⟨epoch', suspendedAt, total⟩ = true) :=
    fun moment hmoment => hsuspended moment (Nat.le_trans hle hmoment)
  cases suspendedAt with
  | none =>
    have hrunning : unsuspended calls now later = later - now :=
      unsuspended_eq_sub fun moment hmoment _ => by simp [hsuspended moment hmoment, isSuspended]
    simp only [Option.getD_none] at hepoch htotal
    refine ⟨rfl, Nat.le_trans hepoch hle, fun _ => nofun, ?_, ?_, hlasting⟩
    · simp only [Option.getD_none]
      omega
    · rw [unsuspended_add calls hepoch hle, hrunning, ← helapsed]
      simp only [elapsed, Option.getD_none]
      omega
  | some start =>
    have hstill : unsuspended calls now later = 0 :=
      unsuspended_eq_zero fun moment hmoment _ => (hsuspended moment hmoment).2 rfl
    have hnow : epoch' ≤ now := Nat.le_trans hepoch (hstart start rfl)
    refine ⟨rfl, hepoch, fun other hother => Nat.le_trans (hstart other hother) hle, htotal, ?_, hlasting⟩
    rw [unsuspended_add calls hnow hle, hstill, Nat.add_zero, ← helapsed]
    rfl

/-- A call leaves what the clock shows at its time. -/
theorem step (h : Counts epoch calls c call.time) : Counts epoch (calls ++ [call]) (c.step call) call.time := by
  have hcount : unsuspended (calls ++ [call]) epoch call.time = unsuspended calls epoch call.time :=
    unsuspended_append (by simp) epoch
  have hsince (moment : Nat) (hmoment : call.time ≤ moment) :
      Suspended (calls ++ [call]) moment ↔ (c.step call).isSuspended = true := by
    rw [Suspended, Since.concat, isSuspended_step, ← h.suspended_iff moment hmoment]
    simp only [hmoment, and_true]
    rfl
  obtain ⟨time, action⟩ := call
  obtain ⟨epoch', suspendedAt, total⟩ := c
  obtain ⟨rfl, hepoch, hstart, htotal, helapsed, -⟩ := h
  dsimp only at *
  cases action with
  | read => exact ⟨rfl, hepoch, hstart, htotal, hcount ▸ helapsed, hsince⟩
  | suspend =>
    cases suspendedAt with
    | some start => exact ⟨rfl, hepoch, hstart, htotal, hcount ▸ helapsed, hsince⟩
    | none =>
      refine ⟨rfl, hepoch, ?_, htotal, hcount ▸ helapsed, hsince⟩
      rintro start ⟨⟩
      exact Nat.le_refl time
  | resume =>
    cases suspendedAt with
    | none => exact ⟨rfl, hepoch, hstart, htotal, hcount ▸ helapsed, hsince⟩
    | some start =>
      -- what has passed since the suspension began joins the total, so that the difference stays
      have hle := hstart start rfl
      simp only [Option.getD_some] at hepoch htotal
      refine ⟨rfl, Nat.le_trans hepoch hle, fun _ => nofun, ?_, ?_, hsince⟩
      · simp only [TickClock.step, TickClock.resume, Option.getD_none]
        omega
      · rw [hcount, ← helapsed]
        simp only [TickClock.step, TickClock.resume, elapsed, Option.getD_none, Option.getD_some]
        omega

/-- A run goes on. -/
theorem foldl (h : Counts epoch calls c now) (hmore : InOrder now more later) :
    Counts epoch (calls ++ more) (more.foldl TickClock.step c) later := by
  induction more generalizing calls c now with
  | nil =>
    rw [List.append_nil]
    exact h.pass (inOrder_nil.1 hmore)
  | cons call rest ih =>
    obtain ⟨hle, hrest⟩ := inOrder_cons.1 hmore
    rw [List.append_cons]
    exact ih (h.pass hle).step hrest

/-- A clock shows no more than the host time. -/
theorem elapsed_le (h : Counts epoch calls c now) : c.elapsed now ≤ now := by
  have hle : c.suspendedAt.getD now ≤ now := by
    cases hstart : c.suspendedAt with
    | none => exact Nat.le_refl _
    | some start => exact h.start_le start hstart
  exact Nat.le_trans (Nat.sub_le _ _) (Nat.le_trans (Nat.sub_le _ _) hle)

/-- Nothing is lost at a host time of the word. -/
theorem exact (h : Counts epoch calls c now) (hword : now < wordLimit) : c.Exact now := by
  have helapsed := h.elapsed_le
  have hfrequency : tickFrequency = 19200000 ∧ nanosPerSecond = 1000000000 ∧ wordLimit = 18446744073709551616 := ⟨rfl, rfl, rfl⟩
  refine ⟨h.epoch_eq ▸ h.epoch_le, h.epoch_eq ▸ h.total_le, h.start_le, fun start hstart => ?_, ?_, ?_⟩
  · have hle := h.start_le start hstart
    have htotal := h.total_le
    rw [show c.suspendedAt = some start from hstart, Option.getD_some] at htotal
    omega
  · rw [hfrequency.1, hfrequency.2.2]
    omega
  · rw [ticks, hfrequency.1, hfrequency.2.1]
    omega

end Counts

/-- After calls in order a clock counts what was unsuspended. -/
theorem counts_after (h : InOrder epoch calls now) : Counts epoch calls (after epoch calls) now := (Counts.new epoch).foldl h

/-- Guest time goes on by the time that lies in no suspension. -/
theorem elapsed_append (hcalls : InOrder epoch calls now) (hmore : InOrder now more later) :
    (after epoch (calls ++ more)).elapsed later = (after epoch calls).elapsed now + unsuspended (calls ++ more) now later := by
  have hrun := (counts_after hcalls).foldl hmore
  rw [← after_append] at hrun
  rw [hrun.elapsed_eq, (counts_after hcalls).elapsed_eq, unsuspended_add _ hcalls.le hmore.le, unsuspended_append hmore.le_time]

/-- At every moment of a run at times that do not decrease, guest time is the host time since the clock was made that lies in no
suspension, and the ticks are that time in units of a tick, rounded down. Nothing is cut off and nothing overflows on the way. Guest
time and ticks do not decrease as the run goes on, and guest time stands still while the clock is suspended. -/
theorem elapsed_eq_unsuspended (hcalls : InOrder epoch calls now) (hmore : InOrder now more later) (hword : later < wordLimit) :
    let c := after epoch calls
    let d := after epoch (calls ++ more)
    c.elapsed now = unsuspended calls epoch now ∧ (c.isSuspended = true ↔ Suspended calls now) ∧ c.Exact now ∧
    (c.ticks now * 1000000000 ≤ c.elapsed now * 19200000 ∧ c.elapsed now * 19200000 < (c.ticks now + 1) * 1000000000) ∧
    c.elapsed now ≤ d.elapsed later ∧ c.ticks now ≤ d.ticks later ∧
    ((∀ moment, now ≤ moment → moment < later → Suspended (calls ++ more) moment) → d.elapsed later = c.elapsed now) := by
  intro c d
  have hcounts : Counts epoch calls c now := counts_after hcalls
  have helapsed : d.elapsed later = c.elapsed now + unsuspended (calls ++ more) now later := elapsed_append hcalls hmore
  have hle : c.elapsed now ≤ d.elapsed later := helapsed ▸ Nat.le_add_right _ _
  refine ⟨hcounts.elapsed_eq, (hcounts.suspended_iff now (Nat.le_refl _)).symm,
    hcounts.exact (Nat.lt_of_le_of_lt hmore.le hword), ?_, hle, ?_, fun hstill => ?_⟩
  · simp only [ticks, tickFrequency, nanosPerSecond]
    omega
  · exact Nat.div_le_div_right (Nat.mul_le_mul_right _ hle)
  · rw [helapsed, unsuspended_eq_zero hstill, Nat.add_zero]

/-- A suspension that is nested, looked at and resumed once too often; guest time stands still while it lasts. -/
theorem elapsed_eq_unsuspended_nested :
    let calls : List Call := [⟨1005, .suspend⟩, ⟨1008, .suspend⟩]
    let more : List Call := [⟨1012, .read⟩, ⟨1020, .resume⟩, ⟨1021, .resume⟩, ⟨1030, .suspend⟩]
    (InOrder 1000 calls 1010 ∧ InOrder 1010 more 1040 ∧ 1040 < wordLimit) ∧
    (∀ moment, 1010 ≤ moment → moment < 1012 → Suspended (calls ++ more.take 1) moment) ∧
    (after 1000 calls).elapsed 1010 = unsuspended calls 1000 1010 ∧ unsuspended calls 1000 1010 = 5 ∧
    (after 1000 (calls ++ more.take 1)).elapsed 1012 = (after 1000 calls).elapsed 1010 ∧
    (after 1000 calls).elapsed 1010 ≤ (after 1000 (calls ++ more)).elapsed 1040 ∧
    (after 1000 (calls ++ more)).elapsed 1040 = 15 := by
  intro calls more
  have hcalls : InOrder 1000 calls 1010 := by simp [InOrder, calls]
  have hmore : InOrder 1010 more 1040 := by simp [InOrder, more]
  have hword : 1040 < wordLimit := by decide
  have hfirst : InOrder 1010 (more.take 1) 1012 := by simp [InOrder, more]
  have hstill : ∀ moment, 1010 ≤ moment → moment < 1012 → Suspended (calls ++ more.take 1) moment := by
    intro moment hle hlt
    simp [Suspended, Since, calls, more]
    omega
  obtain ⟨hcount, -, -, -, hle, -, -⟩ := elapsed_eq_unsuspended hcalls hmore hword
  obtain ⟨-, -, -, -, -, -, hsame⟩ := elapsed_eq_unsuspended hcalls hfirst (by decide)
  exact ⟨⟨hcalls, hmore, hword⟩, hstill, hcount, by decide, hsame hstill, hle, by decide⟩

end Microkernel.TickClock
