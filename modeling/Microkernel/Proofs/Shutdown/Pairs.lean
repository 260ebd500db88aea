import Microkernel.Proofs.Shutdown.Closing

/-!
# The pairs of start calls

A process and its first thread are a pair. Pairs that share nothing (`Apart`) stay where they are while a program goes on with another
one (`Shifts`). There are few places where a pair can stand (`Phase`): what decides is whether its thread was started, and whether its
process was terminated before.
-/

namespace Microkernel.Machine

variable {α : Type} {kernel : RecordId} {s t u : Machine}

/-! ## Pairs -/

/-- A pair of the machine, of which no other process and no other thread is part. -/
structure Pair.Lives (p : Pair) (s : Machine) : Prop where
  process : p.process < s.nextId
  thread : p.thread < s.nextId
  solo : Solo s p.process p.thread

/-- Where a pair stands. -/
def Pair.standing (p : Pair) (s : Machine) : Standing := s.standing p.process p.thread

/-- The pairs of the seats live, and no two seats share a process or a thread. -/
structure Apart {κ : Type} (seats : κ → Option Pair) (s : Machine) : Prop where
  lives : ∀ k p, seats k = some p → p.Lives s
  apart : ∀ k l p q, seats k = some p → seats l = some q → k ≠ l → p.process ≠ q.process ∧ p.thread ≠ q.thread

/-- The pairs of the seats have kept their pids, and stand where `f` says. -/
structure Shifts {κ : Type} (seats : κ → Option Pair) (f : κ → Standing → Standing) (s t : Machine) : Prop where
  lives : ∀ k p, seats k = some p → p.Lives t
  standing : ∀ k p, seats k = some p → p.standing t = f k (p.standing s)
  pid : ∀ k p, seats k = some p → (t.process p.process).pid = (s.process p.process).pid

section

variable {κ : Type} {seats seats' : κ → Option Pair}

/-- Only the pause flags of processes have changed. -/
structure Quiet (s t : Machine) : Prop where
  nextId : s.nextId ≤ t.nextId
  process : ∀ id, t.process id = { s.process id with paused := (t.process id).paused }
  thread : ∀ id, t.thread id = s.thread id

instance : IsPreorder Machine Quiet where
  refl _ := ⟨Nat.le_refl _, fun _ => rfl, fun _ => rfl⟩
  trans s _ u h h' := by
    refine ⟨Nat.le_trans h.nextId h'.nextId, fun id => ?_, fun id => (h'.thread id).trans (h.thread id)⟩
    rw [h'.process id, h.process id]

/-- Pairs of which nothing but the pause flag has changed. -/
theorem Pair.Lives.of_quiet {p : Pair} (h : p.Lives s) (hq : Quiet s t) : p.Lives t ∧ p.standing t = p.standing s := by
  have hstanding : p.standing t = p.standing s := by
    rw [Pair.standing, Pair.standing, Machine.standing, Machine.standing, hq.process, hq.thread]
  refine ⟨⟨Nat.lt_of_lt_of_le h.process hq.nextId, Nat.lt_of_lt_of_le h.thread hq.nextId, ?_⟩, hstanding⟩
  constructor
  case threads =>
    rw [hq.process]
    exact h.solo.threads
  case owner =>
    rw [hq.thread]
    exact h.solo.owner
  case body =>
    rw [hq.thread]
    exact h.solo.body
  case plain =>
    exact (congrArg Standing.IsPlain hstanding).mpr h.solo.plain

/-- Pairs stay where they are while only pause flags change. -/
theorem Apart.shifts_of_quiet (h : Apart seats s) (hq : Quiet s t) : Shifts seats (fun _ x => x) s t where
  lives k p hp := ((h.lives k p hp).of_quiet hq).1
  standing k p hp := ((h.lives k p hp).of_quiet hq).2
  pid k p hp := by rw [hq.process]

/-- A pair that is not looked at. -/
theorem Pair.Lives.of_eq {p : Pair} (h : p.Lives s) (hn : s.nextId ≤ t.nextId) (hprocess : t.process p.process = s.process p.process)
    (hthread : t.thread p.thread = s.thread p.thread) : p.Lives t ∧ p.standing t = p.standing s := by
  have hstanding : p.standing t = p.standing s := by
    rw [Pair.standing, Pair.standing, Machine.standing, Machine.standing, hprocess, hthread]
  refine ⟨⟨Nat.lt_of_lt_of_le h.process hn, Nat.lt_of_lt_of_le h.thread hn, ?_⟩, hstanding⟩
  exact ⟨hprocess ▸ h.solo.threads, hthread ▸ h.solo.owner, hthread ▸ h.solo.body,
    (congrArg Standing.IsPlain hstanding).mpr h.solo.plain⟩

/-- A program for the pair of one seat. -/
theorem Apart.shifts_of_brings (h : Apart seats s) [DecidableEq κ] {k : κ} {p : Pair} (hk : seats k = some p)
    {f : Standing → Standing} {program : Update α} (hp : Brings p.process p.thread f program) :
    Shifts seats (fun l x => if l = k then f x else x) s (program s).2 := by
  have hb := hp.becomes s (h.lives k p hk).solo
  have hother (l : κ) (q : Pair) (hq : seats l = some q) (hl : l ≠ k) :
      (program s).2.process q.process = s.process q.process ∧ (program s).2.thread q.thread = s.thread q.thread := by
    obtain ⟨hprocess, hthread⟩ := h.apart l k q p hq hk hl
    exact ⟨hb.otherProcess _ hprocess, hb.otherThread _ hthread⟩
  have hsame (l : κ) (q : Pair) (hq : seats l = some q) (hl : l ≠ k) :=
    (h.lives l q hq).of_eq hb.nextId (hother l q hq hl).1 (hother l q hq hl).2
  constructor
  case lives =>
    intro l q hq
    by_cases hl : l = k
    · subst hl
      obtain rfl := Option.some.inj (hk.symm.trans hq)
      have hlives := h.lives l p hk
      exact ⟨Nat.lt_of_lt_of_le hlives.process hb.nextId, Nat.lt_of_lt_of_le hlives.thread hb.nextId, hb.solo hp.plain hlives.solo⟩
    · exact (hsame l q hq hl).1
  case standing =>
    intro l q hq
    by_cases hl : l = k
    · subst hl
      obtain rfl := Option.some.inj (hk.symm.trans hq)
      rw [if_pos rfl]
      exact hb.standing
    · rw [if_neg hl]
      exact (hsame l q hq hl).2
  case pid =>
    intro l q hq
    by_cases hl : l = k
    · subst hl
      obtain rfl := Option.some.inj (hk.symm.trans hq)
      exact hb.pid
    · rw [(hother l q hq hl).1]

/-- Nothing that there was is touched. -/
theorem Apart.shifts_of_old (h : Apart seats s) (hn : s.nextId ≤ t.nextId)
    (hprocess : ∀ id, id < s.nextId → t.process id = s.process id) (hthread : ∀ id, id < s.nextId → t.thread id = s.thread id) :
    Shifts seats (fun _ x => x) s t where
  lives k p hp := ((h.lives k p hp).of_eq hn (hprocess _ (h.lives k p hp).process) (hthread _ (h.lives k p hp).thread)).1
  standing k p hp := ((h.lives k p hp).of_eq hn (hprocess _ (h.lives k p hp).process) (hthread _ (h.lives k p hp).thread)).2
  pid k p hp := by rw [hprocess _ (h.lives k p hp).process]

/-- The seats keep their pairs, or lose them. -/
theorem Apart.shift {f : κ → Standing → Standing} (h : Apart seats s) (hs : Shifts seats f s t)
    (hseats : ∀ k p, seats' k = some p → seats k = some p) : Apart seats' t where
  lives k p hp := hs.lives k p (hseats k p hp)
  apart k l p q hp hq := h.apart k l p q (hseats k p hp) (hseats l q hq)

/-- A seat gets a pair that was not there before. -/
theorem Apart.seat {f : κ → Standing → Standing} (h : Apart seats s) (hs : Shifts seats f s t) {k : κ} {p : Pair} (hp : p.Lives t)
    (hfresh : s.nextId ≤ p.process ∧ s.nextId ≤ p.thread)
    (hseats : ∀ l q, seats' l = some q → (l = k ∧ q = p) ∨ (l ≠ k ∧ seats l = some q)) : Apart seats' t where
  lives l q hq := by
    rcases hseats l q hq with ⟨-, rfl⟩ | ⟨-, hq⟩
    · exact hp
    · exact hs.lives l q hq
  apart l m q r hq hr hne := by
    have hold (l : κ) (q : Pair) (hq : seats l = some q) : q.process < p.process ∧ q.thread < p.thread :=
      ⟨Nat.lt_of_lt_of_le (h.lives l q hq).process hfresh.1, Nat.lt_of_lt_of_le (h.lives l q hq).thread hfresh.2⟩
    rcases hseats l q hq with ⟨rfl, rfl⟩ | ⟨-, hq⟩ <;> rcases hseats m r hr with ⟨rfl, rfl⟩ | ⟨-, hr⟩
    · exact absurd rfl hne
    · exact ⟨(Nat.ne_of_lt (hold m r hr).1).symm, (Nat.ne_of_lt (hold m r hr).2).symm⟩
    · exact ⟨Nat.ne_of_lt (hold l q hq).1, Nat.ne_of_lt (hold l q hq).2⟩
    · exact h.apart l m q r hq hr hne

end

/-! ## Phases -/

/-- Where the thread of a start call is, and whether its process was terminated before. -/
inductive Phase
  /-- It was never started. -/
  | waiting (killed : Bool)
  /-- It is on its way to its entry. -/
  | starting (late : Bool)
  | inside (late : Bool)
  | left (late : Bool)

namespace Phase

def process (killed : Bool) : ProcessState := if killed then .terminated else .running

/-- Where process and thread stand. -/
def standing : Phase → Standing
  | waiting killed => { process := process killed, thread := .created, activity := .none }
  | starting late => { process := process late, thread := .started, activity := .starting }
  | inside late => { process := process late, thread := .running, activity := .idle }
  | left _ => { process := .terminated, thread := .exited, activity := .none }

def isStarted : Phase → Bool
  | waiting _ => false
  | _ => true

def startedLate : Phase → Bool
  | waiting _ => false
  | starting late | inside late | left late => late

def enteredLate : Phase → Bool
  | inside late | left late => late
  | _ => false

/-- The thread runs. -/
def ran : Phase → Phase
  | waiting killed => waiting killed
  | starting late => inside late
  | inside late | left late => left late

/-- The process is terminated. -/
def terminated : Phase → Phase
  | waiting _ => waiting true
  | starting late => if late then starting late else left late
  | inside late => if late then inside late else left late
  | left late => left late

/-- A thread that waits to be started is started and starts, whether its process was terminated or not. -/
theorem standing_waiting (killed : Bool) : (waiting killed).standing.started = (starting killed).standing := by cases killed <;> rfl

/-- A thread that runs to its next point goes to the next phase. -/
theorem standing_ran (φ : Phase) : φ.standing.ran = φ.ran.standing := by
  cases φ <;> next b => cases b <;> rfl

/-- A process that is terminated goes to the phase that says so. -/
theorem standing_terminated (φ : Phase) : φ.standing.terminated = φ.terminated.standing := by
  cases φ <;> next b => cases b <;> rfl

/-- A termination makes no thread late. -/
theorem terminated_late (φ : Phase) : φ.terminated.isStarted = φ.isStarted ∧ φ.terminated.startedLate = φ.startedLate ∧
    φ.terminated.enteredLate = φ.enteredLate ∧ φ.terminated.standing.process = .terminated := by
  cases φ <;> next b => cases b <;> exact ⟨rfl, rfl, rfl, rfl⟩

/-- A thread that runs is late if it was on its way to its entry in a terminated process. -/
theorem ran_late (φ : Phase) : φ.ran.isStarted = φ.isStarted ∧ φ.ran.startedLate = φ.startedLate ∧
    φ.ran.enteredLate = (φ.enteredLate || (decide (φ.standing.thread = .started) && decide (φ.standing.process = .terminated))) ∧
    (φ.standing.process = .terminated → φ.ran.standing.process = .terminated) := by
  cases φ <;> next b => cases b <;> exact ⟨rfl, rfl, rfl, fun h => by first | exact h | rfl⟩

end Phase

/-! ## Programs that only pause -/

/-- What changes no more than the pause flag of a process is quiet. -/
theorem Quiet.of_still (h : Still Paused s t) : Quiet s t where
  nextId := h.frame.nextId
  process := h.frame.process
  thread id := by rw [Machine.thread, Machine.thread, h.threads]

/-- Setting a kernel is quiet. -/
theorem Quiet.withKernel (s : Machine) (kernel : RecordId) (k : Kernel) : Quiet s (s.withKernel kernel k) :=
  ⟨Nat.le_refl _, fun _ => rfl, fun _ => rfl⟩

/-- Joining the process set changes nothing else of a process than its pause flag. -/
theorem StartCall.enlist_still (x : StartCall) (kernel id : RecordId) (s : Machine) :
    Still Paused (s.withKernel kernel { s.kernel kernel with
      processes := (s.kernel kernel).processes.insert (s.process id).pid id }) (x.enlist kernel id s).2 := by
  have hlast (text : String) (event : KernelEvent) (t : Machine) (ht : Still Paused s t) (k : Kernel) :
      Still Paused (s.withKernel kernel k) ((do
        setKernel kernel k
        log .info text
        let _ ← audit kernel event : Update Unit) t).2 :=
    IsTrans.trans _ (t.withKernel kernel k) _ ⟨ht.frame.withKernel kernel (refl k), ht.threads⟩ (tell_still kernel text event _)
  rw [enlist, Update.run_look, Update.run_look]
  dsimp only
  split
  · exact hlast _ _ _ (setPaused_still id true s) _
  · exact hlast _ _ _ (refl s) _

end Microkernel.Machine
