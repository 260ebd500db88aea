import Microkernel.Machine.Settling
import Microkernel.Proofs.Machine.Frames

/-!
# A process and its only thread

What starting, running, leaving and terminating do to a process with one thread of guest code that takes no calls. Where the two stand
is a `Standing`, and every program does to it what a function on standings says (`Becomes`); no other process or thread is touched.
-/

namespace Microkernel

/-! ## Standings -/

/-- Where a process and its only thread stand. -/
structure Standing where
  process : ProcessState
  thread : ThreadState
  activity : Activity

namespace Standing

/-- The process runs, and its thread was never started. -/
def fresh : Standing where
  process := .running
  thread := .created
  activity := .none

/-- Something happens to the process, if it can. -/
def moved (x : Standing) (event : ProcessEvent) : Standing := { x with process := (x.process.next? event).getD x.process }

/-- Something happens to the thread, if it can. -/
def turned (x : Standing) (event : ThreadEvent) : Standing := { x with thread := (x.thread.next? event).getD x.thread }

def started (x : Standing) : Standing := { x.turned .start with activity := .starting }

/-- The thread enters its entry. -/
def entered (x : Standing) : Standing := { x.turned .run with activity := .idle }

/-- The process ends with its thread. -/
def concluded (x : Standing) : Standing :=
  if x.thread = .exited then (if x.process = .running then x.moved .beginTermination else x).moved .finishTermination else x

/-- The end of a process leaves what its thread does. -/
theorem concluded_activity (x : Standing) : x.concluded.activity = x.activity := by
  unfold concluded
  split
  · split <;> rfl
  · rfl

/-- The entry of the thread is over. -/
def left (x : Standing) : Standing := ((({ x with activity := .none }).turned .exit).turned .finish).concluded

/-- The thread is made to exit. -/
def stopped (x : Standing) : Standing :=
  match x.activity with
  | .starting => (x.turned .run).left
  | .idle => x.left
  | _ => x

/-- The thread runs to the next point at which it can block; guest code that is past its entry returns from it. -/
def ran (x : Standing) : Standing :=
  match x.activity with
  | .starting => x.entered
  | .idle => x.left
  | _ => x

/-- The process is terminated from outside. -/
def terminated (x : Standing) : Standing :=
  if x.process.next? .beginTermination = none then x else ((x.moved .beginTermination).stopped).moved .finishTermination

/-- The thread has not come further than a point between two calls. -/
def IsPlain (x : Standing) : Prop := x.activity = .none ∨ x.activity = .starting ∨ x.activity = .idle

end Standing

/-- Where a process and a thread of a machine stand. -/
def Machine.standing (s : Machine) (id thread : RecordId) : Standing where
  process := (s.process id).state
  thread := (s.thread thread).state
  activity := (s.thread thread).activity

/-- A process has one thread, and that runs guest code that takes no calls. -/
structure Solo (s : Machine) (id thread : RecordId) : Prop where
  threads : (s.process id).threads = [thread]
  owner : (s.thread thread).process = id
  body : (s.thread thread).body = .guest
  plain : (s.standing id thread).IsPlain

/-! ## What is touched -/

variable {α β : Type} {id thread : RecordId} {s t u : Machine}

/-- Of all processes and threads only these two have changed. The process has its pid and its threads, and the thread is whose it was
and runs what it did. -/
structure Touches (id thread : RecordId) (s t : Machine) : Prop where
  nextId : s.nextId ≤ t.nextId
  kernel : ∀ k, (s.kernel k).SameSet (t.kernel k)
  otherProcess : ∀ other, other ≠ id → t.process other = s.process other
  otherThread : ∀ other, other ≠ thread → t.thread other = s.thread other
  pid : (t.process id).pid = (s.process id).pid
  threads : (t.process id).threads = (s.process id).threads
  owner : (t.thread thread).process = (s.thread thread).process
  body : (t.thread thread).body = (s.thread thread).body

/-- Only these two are touched, and they stand where the function says. -/
structure Becomes (id thread : RecordId) (f : Standing → Standing) (s t : Machine) : Prop extends Touches id thread s t where
  standing : t.standing id thread = f (s.standing id thread)

namespace Becomes

/-- A machine becomes itself. -/
theorem same (id thread : RecordId) (s : Machine) : Becomes id thread (fun x => x) s s where
  nextId := Nat.le_refl _
  kernel _ := refl _
  otherProcess _ _ := rfl
  otherThread _ _ := rfl
  pid := rfl
  threads := rfl
  owner := rfl
  body := rfl
  standing := rfl

/-- What becomes of a machine becomes of it in two parts, one after the other. -/
theorem trans {f g : Standing → Standing} (h : Becomes id thread f s t) (h' : Becomes id thread g t u) :
    Becomes id thread (fun x => g (f x)) s u where
  nextId := Nat.le_trans h.nextId h'.nextId
  kernel k := IsTrans.trans _ _ _ (h.kernel k) (h'.kernel k)
  otherProcess other ho := (h'.otherProcess other ho).trans (h.otherProcess other ho)
  otherThread other ho := (h'.otherThread other ho).trans (h.otherThread other ho)
  pid := h'.pid.trans h.pid
  threads := h'.threads.trans h.threads
  owner := h'.owner.trans h.owner
  body := h'.body.trans h.body
  standing := by rw [h'.standing, h.standing]

/-- What touches no process and no thread leaves all standings. -/
theorem of_frame (h : Frame Unchanged s t) (ht : t.threads = s.threads) : Becomes id thread (fun x => x) s t := by
  have hthread (other : RecordId) : t.thread other = s.thread other := by rw [Machine.thread, Machine.thread, ht]
  have hprocess (other : RecordId) : t.process other = s.process other := h.process other
  constructor
  case standing =>
    unfold Machine.standing
    rw [hthread, hprocess]
  case toTouches =>
    constructor
    case nextId => exact h.nextId
    case kernel => exact h.kernel
    case otherProcess => exact fun other _ => hprocess other
    case otherThread => exact fun other _ => hthread other
    case pid => rw [hprocess]
    case threads => rw [hprocess]
    case owner => rw [hthread]
    case body => rw [hthread]

/-- Setting the thread brings it where the new one stands. -/
theorem setThread {f : Standing → Standing} {x : Thread} (howner : x.process = (s.thread thread).process)
    (hbody : x.body = (s.thread thread).body)
    (hf : f (s.standing id thread) = { s.standing id thread with thread := x.state, activity := x.activity }) :
    Becomes id thread f s (Machine.setThread thread x s).2 := by
  have hthread (other : RecordId) : (Machine.setThread thread x s).2.thread other = if other = thread then x else s.thread other :=
    Records.getD_insert _ _ _ _ _
  constructor
  case standing =>
    rw [hf]
    unfold Machine.standing
    rw [hthread, if_pos rfl]
    rfl
  case toTouches =>
    constructor
    case nextId => exact Nat.le_refl _
    case kernel => exact fun _ => refl _
    case otherProcess => exact fun _ _ => rfl
    case otherThread => exact fun other ho => (hthread other).trans (if_neg ho)
    case pid => rfl
    case threads => rfl
    case owner => rw [hthread, if_pos rfl, howner]
    case body => rw [hthread, if_pos rfl, hbody]

/-- Setting the process brings it where the new one stands. -/
theorem setProcess {f : Standing → Standing} {p : Process} (hpid : p.pid = (s.process id).pid)
    (hthreads : p.threads = (s.process id).threads)
    (hf : f (s.standing id thread) = { s.standing id thread with process := p.state }) :
    Becomes id thread f s (Machine.setProcess id p s).2 := by
  have hprocess (other : RecordId) : (Machine.setProcess id p s).2.process other = if other = id then p else s.process other :=
    Records.getD_insert _ _ _ _ _
  constructor
  case standing =>
    rw [hf]
    unfold Machine.standing
    rw [hprocess, if_pos rfl]
    rfl
  case toTouches =>
    constructor
    case nextId => exact Nat.le_refl _
    case kernel => exact fun _ => refl _
    case otherProcess => exact fun other ho => (hprocess other).trans (if_neg ho)
    case otherThread => exact fun _ _ => rfl
    case pid => rw [hprocess, if_pos rfl, hpid]
    case threads => rw [hprocess, if_pos rfl, hthreads]
    case owner => rfl
    case body => rfl

/-- Where the two stood before, the functions say the same. -/
theorem congr {f g : Standing → Standing} (h : Becomes id thread f s t) (hfg : f (s.standing id thread) = g (s.standing id thread)) :
    Becomes id thread g s t := ⟨h.toTouches, h.standing.trans hfg⟩

/-- A process with one plain thread keeps one, if it is brought to where its thread is plain. -/
theorem solo {f : Standing → Standing} (h : Becomes id thread f s t) (hf : ∀ x : Standing, x.IsPlain → (f x).IsPlain)
    (hs : Solo s id thread) : Solo t id thread where
  threads := h.threads.trans hs.threads
  owner := h.owner.trans hs.owner
  body := h.body.trans hs.body
  plain := h.standing ▸ hf _ hs.plain

end Becomes

variable (id thread) in
/-- The program touches nothing but the two, and brings them where the function says. -/
structure Brings (f : Standing → Standing) (p : Update α) : Prop where
  plain : ∀ x : Standing, x.IsPlain → (f x).IsPlain
  becomes : ∀ s, Solo s id thread → Becomes id thread f s (p s).2

variable {f g : Standing → Standing}

/-- What the first step does from one machine on, and a program behind it. -/
theorem Becomes.bind {p : Update α} {q : α → Update β} (hp : Becomes id thread f s (p s).2)
    (hf : ∀ x : Standing, x.IsPlain → (f x).IsPlain) (hs : Solo s id thread) (hq : ∀ a, Brings id thread g (q a)) :
    Becomes id thread (fun x => g (f x)) s ((p >>= q) s).2 :=
  hp.trans ((hq _).becomes _ (hp.solo hf hs))

namespace Brings

/-- What changes no process and no thread. -/
theorem of_frame {p : Update α} (h : Keeps (Frame Unchanged) p) (ht : ∀ s, (p s).2.threads = s.threads) :
    Brings id thread (fun x => x) p where
  plain _ hx := hx
  becomes s _ := .of_frame (h s) (ht s)

theorem pure (a : α) : Brings id thread (fun x => x) (Pure.pure a : Update α) where
  plain _ hx := hx
  becomes s _ := .same id thread s

/-- One program behind another. -/
theorem bind {p : Update α} {q : α → Update β} (hp : Brings id thread f p) (hq : ∀ a, Brings id thread g (q a)) :
    Brings id thread (fun x => g (f x)) (p >>= q) where
  plain x hx := (hq (p default).1).plain _ (hp.plain x hx)
  becomes s hs := (hp.becomes s hs).bind hp.plain hs hq

/-- A program behind one that brings the two nowhere. -/
theorem skip {p : Update α} {q : α → Update β} (hp : Brings id thread (fun x => x) p) (hq : ∀ a, Brings id thread g (q a)) :
    Brings id thread g (p >>= q) := hp.bind hq

/-- A program that begins with a look at the machine. -/
theorem look {q : Machine → Update β} (hf : ∀ x : Standing, x.IsPlain → (f x).IsPlain)
    (h : ∀ s, Solo s id thread → Becomes id thread f s (q s s).2) : Brings id thread f (get >>= q) := ⟨hf, h⟩

/-- A loop brings them nowhere if its body does not. -/
theorem forIn {l : List α} {q : α → PUnit → Update (ForInStep PUnit)} (hq : ∀ a u, Brings id thread (fun x => x) (q a u)) :
    Brings id thread (fun x => x) (ForIn.forIn l PUnit.unit q) := by
  induction l with
  | nil => exact pure _
  | cons a rest ih =>
    rw [List.forIn_cons]
    refine (hq a _).skip fun step => ?_
    cases step with
    | done u => exact pure u
    | yield u => exact ih

/-- A loop over one item. -/
theorem forIn_one {a : α} {q : α → PUnit → Update (ForInStep PUnit)} (hq : Brings id thread f (q a ⟨⟩)) :
    Brings id thread f (ForIn.forIn [a] PUnit.unit q) := by
  rw [List.forIn_cons]
  refine hq.bind (g := fun x => x) fun step => ?_
  cases step with
  | done u => exact pure u
  | yield u => exact pure u

end Brings

namespace Machine

variable (id thread : RecordId)

theorem log_brings (level : Level) (text : String) : Brings id thread (fun x => x) (log level text) :=
  .of_frame (log_frame level text) fun _ => rfl

theorem wake_brings (l : WaitList) : Brings id thread (fun x => x) (wake l) := .of_frame (wake_frame l) fun _ => rfl

theorem audit_brings (kernel : RecordId) (event : KernelEvent) : Brings id thread (fun x => x) (audit kernel event) :=
  .of_frame (audit_frame kernel event) fun _ => rfl

/-- A closed handle brings the two nowhere. -/
theorem handleClosed_brings (object : KernelObject) : Brings id thread (fun x => x) (handleClosed object) :=
  .of_frame (handleClosed_frame object) fun s => (handleClosed_keeps object s).threads

/-- Setting what the thread does brings it there, as long as that is plain. -/
theorem setActivity_brings {activity : Activity} (h : activity = .none ∨ activity = .starting ∨ activity = .idle) :
    Brings id thread ({ · with activity }) (setActivity thread activity) :=
  .look (fun _ _ => h) fun _ _ => .setThread rfl rfl rfl

/-- A move of the thread turns it. -/
theorem moveThread_brings (event : ThreadEvent) : Brings id thread (·.turned event) (moveThread thread event) := by
  refine .look (fun _ hx => hx) fun s hs => ?_
  cases hnext : (s.thread thread).state.next? event with
  | some state =>
    have hset : Becomes id thread (·.turned event) s (setThread thread { s.thread thread with state } s).2 := by
      refine .setThread rfl rfl ?_
      simp only [Standing.turned, standing, hnext, Option.getD_some]
    have hwake : Brings id thread (fun x => x) (if state = .exited then wake (s.thread thread).waiters else pure ()) := by
      split
      · exact wake_brings id thread _
      · exact .pure _
    exact hset.trans (hwake.becomes _ (hset.solo (fun _ hx => hx) hs))
  | none =>
    have hlog := (log_brings id thread .warn
      s!"thread {(s.thread thread).threadId}: {(s.thread thread).state.refusal event}").becomes s hs
    have hstays : (s.standing id thread).turned event = s.standing id thread := by
      simp only [Standing.turned, standing, hnext, Option.getD_none]
    exact ⟨hlog.toTouches, hlog.standing.trans hstays.symm⟩

/-- Asking a plain thread to exit brings the two nowhere. -/
theorem requestTermination_brings : Brings id thread (fun x => x) (requestTermination thread) := by
  refine .look (fun _ hx => hx) fun s _ => ?_
  have hset : Becomes id thread (fun x => x) s (setThread thread { s.thread thread with terminationRequested := true } s).2 :=
    .setThread rfl rfl rfl
  exact hset.trans (.of_frame (wakeOne_frame thread _) rfl)

/-- Setting the pause flag brings the two nowhere. -/
theorem setPaused_brings (paused : Bool) : Brings id thread (fun x => x) (setPaused id paused) :=
  .look (fun _ hx => hx) fun _ _ => .setProcess rfl rfl rfl

/-- A move of the process moves it if its state can, and tells whether it could. -/
theorem moveProcess_becomes (event : ProcessEvent) (s : Machine) :
    Becomes id thread (·.moved event) s (moveProcess id event s).2 ∧
      (moveProcess id event s).1 = ((s.process id).state.next? event).isSome := by
  rw [moveProcess, Update.run_look]
  cases hnext : (s.process id).state.next? event with
  | some state =>
    refine ⟨Becomes.setProcess (p := { s.process id with state }) rfl rfl ?_, rfl⟩
    simp only [Standing.moved, standing, hnext, Option.getD_some]
  | none =>
    have hstays : (s.standing id thread).moved event = s.standing id thread := by
      simp only [Standing.moved, standing, hnext, Option.getD_none]
    exact ⟨⟨(Becomes.same id thread s).toTouches, hstays.symm⟩, rfl⟩

/-- A move of the process brings the two where it leads. -/
theorem moveProcess_brings (event : ProcessEvent) : Brings id thread (·.moved event) (moveProcess id event) where
  plain _ hx := hx
  becomes s _ := (moveProcess_becomes id thread event s).1

/-- The end of a termination; closing the handles touches neither of the two. -/
theorem finishTermination_brings : Brings id thread (·.moved .finishTermination) (finishTermination id) := by
  refine .look (fun _ hx => hx) fun s hs => ?_
  dsimp only
  cases hnext : (s.process id).state.next? .finishTermination with
  | some state =>
    have hend : Brings id thread ({ · with process := state }) (do setProcess id { (← get).process id with state }) :=
      .look (fun _ hx => hx) fun _ _ => .setProcess rfl rfl rfl
    have hlast : Brings id thread (fun x => x) (do
        wake ((← get).process id).waiters
        log .info s!"Process {(s.process id).name} ({(s.process id).pidText}) terminated"
        let _ ← audit (s.process id).kernel (.processTerminated (s.process id).pid)) := by
      refine .look (fun _ hx => hx) fun v hv => ((wake_brings id thread _).skip fun _ => ?_).becomes v hv
      exact (log_brings id thread _ _).skip fun _ => (audit_brings id thread _ _).skip fun _ => .pure _
    refine Becomes.congr (f := fun x => { x with process := state }) ?_ ?_
    · refine Becomes.bind (f := fun x => x) (.setProcess rfl rfl rfl) (fun _ hx => hx) hs fun _ => ?_
      refine (Brings.forIn fun _ _ => (handleClosed_brings id thread _).skip fun _ => .pure _).skip fun _ => ?_
      exact hend.bind fun _ => hlast
    · simp only [Standing.moved, standing, hnext, Option.getD_some]
  | none =>
    have hstays : (s.standing id thread).moved .finishTermination = s.standing id thread := by
      simp only [Standing.moved, standing, hnext, Option.getD_none]
    exact ⟨(Becomes.same id thread s).toTouches, hstays.symm⟩

/-- What a process does when its only thread has exited concludes it. -/
theorem threadExited_brings : Brings id thread (·.concluded) (threadExited id) := by
  refine .look (fun x hx => ?_) fun s hs => ?_
  · rw [Standing.IsPlain, Standing.concluded_activity]
    exact hx
  have hall : ((s.process id).threads.all fun t => (s.thread t).state = .exited) =
      decide ((s.standing id thread).thread = .exited) := by
    rw [hs.threads, List.all_cons, List.all_nil, Bool.and_true]
    rfl
  dsimp only
  rw [hall]
  by_cases hexited : (s.standing id thread).thread = .exited
  · rw [if_pos (decide_eq_true hexited)]
    by_cases hrunning : (s.standing id thread).process = .running
    · rw [if_pos (show (s.process id).state = .running from hrunning)]
      have h := ((moveProcess_brings id thread .beginTermination).bind fun _ => finishTermination_brings id thread).becomes s hs
      refine ⟨h.toTouches, h.standing.trans ?_⟩
      rw [Standing.concluded, if_pos hexited, if_pos hrunning]
    · rw [if_neg (show (s.process id).state ≠ .running from hrunning)]
      have h := (finishTermination_brings id thread).becomes s hs
      refine ⟨h.toTouches, h.standing.trans ?_⟩
      rw [Standing.concluded, if_pos hexited, if_neg hrunning]
  · rw [if_neg (by rw [decide_eq_false hexited]; exact Bool.false_ne_true)]
    refine ⟨(Becomes.same id thread s).toTouches, ?_⟩
    rw [Standing.concluded, if_neg hexited]
    rfl

/-- A thread that exits leaves its entry. -/
theorem exitThread_brings : Brings id thread (·.left) (exitThread thread .returned) := by
  have hexit : Brings id thread (·.left) (do
      setActivity thread .none
      moveThread thread .exit
      moveThread thread .finish
      threadExited id) :=
    (setActivity_brings id thread (.inl rfl)).bind fun _ => (moveThread_brings id thread .exit).bind fun _ =>
      (moveThread_brings id thread .finish).bind fun _ => threadExited_brings id thread
  refine .look hexit.plain fun s hs => ?_
  have h := hexit.becomes s hs
  rw [← hs.owner] at h
  exact hs.owner ▸ h

/-- Starting the thread brings it where it is started. -/
theorem startThread_brings : Brings id thread (·.started) (startThread thread) :=
  (moveThread_brings id thread .start).bind fun _ => setActivity_brings id thread (.inr (.inl rfl))

/-- Stopping the thread brings it where it is stopped. -/
theorem stopThread_brings : Brings id thread (·.stopped) (stopThread thread) := by
  have hleft := exitThread_brings id thread
  have hrun := (moveThread_brings id thread .run).bind fun _ => hleft
  have hplain (x : Standing) (hx : x.IsPlain) : x.stopped.IsPlain := by
    unfold Standing.stopped
    split
    · exact hrun.plain x hx
    · exact hleft.plain x hx
    · exact hx
  refine .look hplain fun s hs => ?_
  dsimp only
  rw [hs.body]
  rcases hs.plain with hactivity | hactivity | hactivity <;> rw [show (s.thread thread).activity = _ from hactivity]
  · exact (Becomes.same id thread s).congr (by rw [Standing.stopped, hactivity])
  · exact (hrun.becomes s hs).congr (by rw [Standing.stopped, hactivity])
  · exact (hleft.becomes s hs).congr (by rw [Standing.stopped, hactivity])

/-- What is left to do once the process is terminating. -/
theorem stopAll_brings : Brings id thread (fun x => x.stopped.moved .finishTermination) (do
    let p := (← get).process id
    log .info s!"Terminating process {p.name} ({p.pidText})"
    for thread in p.threads do requestTermination thread
    setPaused id false
    for thread in p.threads do
      if some thread ≠ none then stopThread thread
    let s ← get
    let callerAlive := (none : Option RecordId).any fun thread => p.threads.contains thread && (s.thread thread).state ≠ .exited
    if !callerAlive then finishTermination id) := by
  have hrest (text : String) : Brings id thread (fun x => x.stopped.moved .finishTermination) (do
      log .info text
      for thread in [thread] do requestTermination thread
      setPaused id false
      for thread in [thread] do
        if some thread ≠ none then stopThread thread
      let s ← get
      let callerAlive := (none : Option RecordId).any fun t => [thread].contains t && (s.thread t).state ≠ .exited
      if !callerAlive then finishTermination id) := by
    refine (log_brings id thread _ _).skip fun _ => ?_
    refine (Brings.forIn_one ((requestTermination_brings id thread).skip fun _ => .pure _)).skip fun _ => ?_
    refine (setPaused_brings id thread false).skip fun _ => ?_
    refine (Brings.forIn_one (f := (·.stopped)) ?_).bind (g := (·.moved .finishTermination)) fun _ => ?_
    · rw [if_pos (Option.some_ne_none _)]
      exact (stopThread_brings id thread).bind fun _ => .pure _
    · exact .look (fun _ hx => hx) fun s hs => (finishTermination_brings id thread).becomes s hs
  refine .look (hrest "").plain fun s hs => ?_
  dsimp only
  rw [hs.threads]
  exact (hrest _).becomes s hs

/-- Terminating the process brings the two where it is terminated. -/
theorem terminateProcess_brings : Brings id thread (·.terminated) (terminateProcess id none) := by
  have hrest := stopAll_brings id thread
  constructor
  case plain =>
    intro x hx
    unfold Standing.terminated
    split
    · exact hx
    · exact hrest.plain _ hx
  case becomes =>
    intro s hs
    obtain ⟨hmove, hmoved⟩ := moveProcess_becomes id thread .beginTermination s
    rw [terminateProcess, Update.run_bind, hmoved]
    cases hnext : (s.process id).state.next? .beginTermination with
    | some state =>
      refine (hmove.trans (hrest.becomes _ (hmove.solo (fun _ hx => hx) hs))).congr ?_
      rw [Standing.terminated, if_neg]
      exact fun h => nomatch hnext.symm.trans h
    | none =>
      have hstays : (s.standing id thread).process.next? .beginTermination = none := hnext
      refine hmove.congr ?_
      rw [Standing.terminated, if_pos hstays, Standing.moved, hstays, Option.getD_none]

/-- Running the thread brings it to its next point. -/
theorem runThread_brings : Brings id thread (·.ran) (runThread thread) := by
  have hleft := exitThread_brings id thread
  have hentered : Brings id thread (·.entered) (do
      moveThread thread .run
      setActivity thread .idle) :=
    (moveThread_brings id thread .run).bind fun _ => setActivity_brings id thread (.inr (.inr rfl))
  have hplain (x : Standing) (hx : x.IsPlain) : x.ran.IsPlain := by
    unfold Standing.ran
    split
    · exact hentered.plain x hx
    · exact hleft.plain x hx
    · exact hx
  refine .look hplain fun s hs => ?_
  rw [hs.body]
  rcases hs.plain with hactivity | hactivity | hactivity <;> rw [show (s.thread thread).activity = _ from hactivity]
  · exact (Becomes.same id thread s).congr (by rw [Standing.ran, hactivity])
  · exact (hentered.becomes s hs).congr (by rw [Standing.ran, hactivity])
  · exact (hleft.becomes s hs).congr (by rw [Standing.ran, hactivity])

end Machine

end Microkernel
