import Microkernel.Proofs.Shutdown.Seniority
import Microkernel.Proofs.Supervising.Undoing
import Microkernel.Proofs.Teardown.Once

/-!
# The order of a shutdown

A shutdown terminates the applications of the process set, the newest first, runs its hook, terminates the other processes, the
newest first, and clears the set. Seen from outside, the processes that had not begun to end do so in just this order
(`terminateProcesses_in_order`), whatever the set was made of and whatever else goes on meanwhile, as long as nobody else ends a
process.
-/

namespace Microkernel

/-! ## Terminating one process -/

/-- Nothing but this process has begun to end. -/
def Sparing (id other : RecordId) (p q : Process) : Prop := other ≠ id → q.state.isTerminating = p.state.isTerminating

instance (id other : RecordId) : IsPreorder Process (Sparing id other) where
  refl _ _ := rfl
  trans _ _ _ h h' := fun ho => (h' ho).trans (h ho)

instance (id : RecordId) : Passive (Sparing id) where
  waited _ _ _ _ := rfl
  paused _ _ _ _ := rfl

/-- As long as the known threads belong to the process they go on doing so, and nothing but the process has begun to end. -/
def Within (id : RecordId) (known : RecordId → Prop) (s t : Machine) : Prop :=
  (∀ th, known th → (s.thread th).process = id) → Frame (Sparing id) s t ∧ ∀ th, known th → (t.thread th).process = id

instance (id : RecordId) (known : RecordId → Prop) : IsPreorder Machine (Within id known) where
  refl s := fun hs => ⟨refl s, hs⟩
  trans _ _ _ h h' := fun hs => by
    obtain ⟨hframe, howned⟩ := h hs
    obtain ⟨hframe', howned'⟩ := h' howned
    exact ⟨IsTrans.trans _ _ _ hframe hframe', howned'⟩

namespace Machine

variable {α : Type} {id th : RecordId} {known : RecordId → Prop} {s t : Machine}

/-- A program stays within a process if it keeps whose threads they are and nothing else begins to end. -/
theorem within_of {p : Update α} (hg : Keeps SameGates p) (hf : Keeps (Frame (Sparing id)) p) : Keeps (Within id known) p :=
  fun s hs => ⟨hf s, fun th hth => ((hg s).owner th).trans (hs th hth)⟩

/-- Whatever becomes of the process itself. -/
theorem setProcess_sparing (id : RecordId) (p : Process) : Keeps (Frame (Sparing id)) (setProcess id p) :=
  fun _ => .setProcess fun h => absurd rfl h

/-- Moving a process spares the others. -/
theorem moveProcess_sparing (id : RecordId) (event : ProcessEvent) : Keeps (Frame (Sparing id)) (moveProcess id event) := by
  refine Keeps.get.bind fun s => ?_
  dsimp only
  split
  · exact (setProcess_sparing _ _).bind fun _ => .pure _
  · exact .pure _

/-- Finishing the termination of a process spares the others. -/
theorem finishTermination_sparing (id : RecordId) : Keeps (Frame (Sparing id)) (finishTermination id) := by
  intro s
  by_cases h : (s.process id).state = .terminating
  · obtain ⟨t, hreleased, hlast⟩ := finishTermination_run h
    have hsame {s t : Machine} (hf : Frame Unchanged s t) : Frame (Sparing id) s t := hf.mono fun _ _ _ h _ => by rw [h]
    exact IsTrans.trans _ _ _ (setProcess_sparing _ _ s) (IsTrans.trans _ _ _ (hsame hreleased)
      (IsTrans.trans _ _ _ (setProcess_sparing _ _ t) (hsame hlast)))
  · rw [finishTermination_of_not h]
    exact refl s

/-- What a process does when one of its threads has exited spares the others. -/
theorem threadExited_sparing (id : RecordId) : Keeps (Frame (Sparing id)) (threadExited id) := by
  refine Keeps.get.bind fun _ => ?_
  split
  · split
    · exact (moveProcess_sparing _ _).bind fun _ => finishTermination_sparing _
    · exact finishTermination_sparing _
  · exact .pure _

/-- The exit of a thread of the process ends nothing else. -/
theorem exitThread_within (hth : known th) (ending : ThreadEnd) : Keeps (Within id known) (exitThread th ending) := by
  have hexit : Keeps (Within id known) (do
      setActivity th .none
      moveThread th .exit
      moveThread th .finish
      threadExited id) :=
    (within_of (setActivity_gates _ _) (setActivity_frame _ _)).bind fun _ =>
      (within_of (moveThread_gates _ _) (moveThread_frame _ _)).bind fun _ =>
        (within_of (moveThread_gates _ _) (moveThread_frame _ _)).bind fun _ =>
          within_of (threadExited_gates _) (threadExited_sparing _)
  have hlog (level : Level) (text : String) : Keeps (Within id known) (log level text) :=
    within_of (log_gates _ _) (log_frame _ _)
  intro s hs
  rw [exitThread, Update.run_look, Update.run_look]
  dsimp only
  rw [hs th hth]
  cases ending with
  | returned => exact hexit s hs
  | failed e =>
    cases e
    case terminationRequested => exact hexit s hs
    all_goals exact ((hlog _ _).bind fun _ => hexit) s hs
  | panicked => exact ((hlog _ _).bind fun _ => hexit) s hs

/-- Stopping a thread of a process stays within the process. -/
theorem stopThread_within (hth : known th) : Keeps (Within id known) (stopThread th) := by
  have hsessions (server : RecordId) : Keeps (Within id known) (closeSessions server) :=
    within_of (closeSessions_gates server) (closeSessions_frame server)
  have hclose (t : Thread) := keeps_closeAndExit hsessions (exitThread_within hth .returned) t
  have hanswer (answer : Except KernelError CallValue) : Keeps (Within id known) (answerCall th answer) :=
    within_of (answerCall_gates _ _) (answerCall_frame _ _)
  refine Keeps.get.bind fun s => ?_
  dsimp only
  split
  · exact .pure _
  · exact (within_of (moveThread_gates _ _) (moveThread_frame _ _)).bind fun _ => hclose _
  · exact hclose _
  · exact (hanswer _).bind fun _ => hclose _
  · exact hclose _
  · refine (within_of (leaveWait_gates _ _) (leaveWait_frame _ _)).bind fun _ => ?_
    split
    · exact hclose _
    · exact (within_of (completeRequest_gates _ _) (completeRequest_frame _ _)).bind fun _ =>
        (hanswer _).bind fun _ => hclose _
    · exact (hanswer _).bind fun _ => hclose _

/-- Terminating a process ends its threads, and nothing else as long as these are its own. -/
theorem terminateProcess_within (id : RecordId) (caller : Option RecordId) (s : Machine) :
    Within id (· ∈ (s.process id).threads) s (terminateProcess id caller s).2 := by
  have hmove : Within id (· ∈ (s.process id).threads) s (moveProcess id .beginTermination s).2 :=
    within_of (moveProcess_gates id .beginTermination) (moveProcess_sparing id .beginTermination) s
  have hthreads : ((moveProcess id .beginTermination s).2.process id).threads = (s.process id).threads :=
    (moveProcess_frame (R := SameThreads) id (by decide) s).process id
  rw [terminateProcess, Update.run_bind]
  split
  · rw [Update.run_look, hthreads]
    generalize (moveProcess id .beginTermination s).2 = t at hmove
    refine IsTrans.trans _ _ _ hmove ((?_ : Keeps (Within id (· ∈ (s.process id).threads)) _) t)
    refine (within_of (log_gates _ _) (log_frame _ _)).bind fun _ => ?_
    refine .bind (.forIn fun _ _ => (within_of (requestTermination_gates _) (requestTermination_frame _)).bind fun _ => .pure _)
      fun _ => ?_
    refine (within_of (setPaused_gates _ _) (setPaused_frame _ _)).bind fun _ => .bind (.forIn_mem fun th hth _ => ?_) fun _ => ?_
    · split
      · exact (stopThread_within hth).bind fun _ => .pure _
      · exact .pure _
    · refine Keeps.get.bind fun _ => ?_
      dsimp only
      split
      · exact within_of (finishTermination_gates _) (finishTermination_sparing _)
      · exact .pure _
  · exact hmove

/-! ## What begins to end -/

/-- The processes that have not begun to end in the first machine and have in the second. -/
def begunBetween (s t : Machine) : List RecordId :=
  t.processes.keys.filter fun id => !(s.process id).state.isTerminating && (t.process id).state.isTerminating

/-- Where every process stands as it did nothing has begun to end between. -/
theorem begunBetween_of_same (h : ∀ id, (t.process id).state.isTerminating = (s.process id).state.isTerminating) :
    begunBetween s t = [] := by
  refine List.filter_eq_nil_iff.2 fun id _ hboth => ?_
  rw [h, Bool.not_and_self] at hboth
  cases hboth

/-- Where one process alone has begun to end, it is what has begun to end between. -/
theorem begunBetween_of_one (hs : (s.process id).state.isTerminating = false) (ht : (t.process id).state.isTerminating = true)
    (hothers : ∀ other, other ≠ id → (t.process other).state.isTerminating = (s.process other).state.isTerminating) :
    begunBetween s t = [id] := by
  have hmem : id ∈ t.processes.keys := by
    rw [Std.TreeMap.mem_keys, Std.TreeMap.mem_iff_contains]
    refine has_process_of_state fun hcreated => ?_
    rw [hcreated] at ht
    cases ht
  have hone : begunBetween s t = t.processes.keys.filter (· == id) := by
    refine List.filter_congr fun other _ => ?_
    by_cases hother : other = id
    · rw [hother, hs, ht, beq_self_eq_true]
      rfl
    · rw [hothers other hother, Bool.not_and_self, beq_false_of_ne hother]
  rw [hone, List.filter_beq, List.count_eq_one_of_mem Std.TreeMap.nodup_keys hmem]
  rfl

/-- A process that is terminated begins to end unless it has, and nothing else does. -/
theorem begunBetween_terminateProcess (hs : s.Crewed) (id : RecordId) :
    begunBetween s (terminateProcess id none s).2 = if (s.process id).state.isTerminating then [] else [id] := by
  obtain ⟨hframe, -⟩ := terminateProcess_within id none s fun th hth => (hs id th hth).2
  split
  · next hending =>
    refine begunBetween_of_same fun other => ?_
    rw [Teardown.terminateProcess_of_ending hending]
  · next hending =>
    have hending := eq_false_of_ne_true hending
    refine begunBetween_of_one hending ?_ fun other hother => hframe.process other hother
    rw [(terminateProcess_finishes id s).2 fun hstate => by rw [hstate] at hending; cases hending]
    rfl

/-! ## The order of the members -/

/-- The members of the process set of a kernel, the newest first. -/
def newestFirst (s : Machine) (kernel : RecordId) : List RecordId :=
  (s.processesOf kernel).mergeSort fun a b => (s.process b).creationOrder ≤ (s.process a).creationOrder

/-- The members of the process set, the newest first, are its members. -/
theorem mem_newestFirst {kernel : RecordId} : id ∈ s.newestFirst kernel ↔ id ∈ s.processesOf kernel := List.mem_mergeSort

/-- In a ranked set the members stand by their creation order. -/
theorem Ranked.pairwise_newestFirst {kernel : RecordId} (h : Ranked kernel s) :
    (s.newestFirst kernel).Pairwise fun a b => (s.process b).creationOrder < (s.process a).creationOrder := by
  have hdistinct : (s.newestFirst kernel).Pairwise fun a b => (s.process a).creationOrder ≠ (s.process b).creationOrder :=
    ((List.mergeSort_perm _ _).pairwise_iff Ne.symm).2 h.pairwise_processesOf
  have hsorted : (s.newestFirst kernel).Pairwise fun a b => (s.process b).creationOrder ≤ (s.process a).creationOrder := by
    refine (List.pairwise_mergeSort ?_ ?_ (s.processesOf kernel)).imp of_decide_eq_true
    · exact fun a b c hab hbc => decide_eq_true (Nat.le_trans (of_decide_eq_true hbc) (of_decide_eq_true hab))
    · intro a b
      rw [Bool.or_eq_true, decide_eq_true_iff, decide_eq_true_iff]
      exact Nat.le_total _ _
  exact hsorted.imp₂ (fun _ _ hle hne => Nat.lt_of_le_of_ne hle (Ne.symm hne)) hdistinct

/-! ## A shutdown step by step -/

/-- What a shutdown does with the process set. -/
inductive Duty
  | terminate (id : RecordId)
  | hook
  | clear

/-- What is seen of a shutdown. -/
inductive Milestone
  /-- A process has begun to end. -/
  | begun (id : RecordId)
  | hooked
  /-- The process set is empty. -/
  | emptied
  deriving DecidableEq, Repr

/-- A program that ends no process and gives no thread away. -/
structure Onlooker (α : Type) where
  program : Update α
  ending : ∀ s id, ((program s).2.process id).state.isTerminating = (s.process id).state.isTerminating
  crewed : ∀ s, s.Crewed → (program s).2.Crewed

/-- Whoever signals, sends, answers, opens or closes looks on. -/
def Onlooker.of_owners (program : Update α) (h : Keeps SameOwners program) (hf : Keeps (Frame Unchanged) program) :
    Onlooker α where
  program := program
  ending s id := by rw [hf s |>.process id]
  crewed s := (SameCrews.of_eq (hf s).nextId (h s).threads (h s).processes).crewed

/-- Ports may be closed while a kernel is shut down, and its hook may close one. -/
def Onlooker.closing (port : RecordId) : Onlooker Unit := .of_owners (closePort port) (closePort_keeps port) (closePort_frame port)

/-- A machine, what a shutdown is still to do, what the hook has answered, and what was seen so far. -/
structure Rundown (α : Type) where
  machine : Machine
  duties : List Duty
  answer : Option α := none
  chronicle : List Milestone := []

/-- Whose turn it is. -/
inductive Turn
  | shutdown
  | other (onlooker : Onlooker Unit)

namespace Rundown

/-- Takes down what has begun to end, and what else is seen. -/
def record (r : Rundown α) (t : Machine) (more : List Milestone) : Rundown α :=
  { r with machine := t, chronicle := r.chronicle ++ (begunBetween r.machine t).map .begun ++ more }

def perform (kernel : RecordId) (hook : Onlooker α) (r : Rundown α) : Duty → Rundown α
  | .terminate id => r.record (terminateProcess id none r.machine).2 []
  | .hook => { r.record (hook.program r.machine).2 [.hooked] with answer := some (hook.program r.machine).1 }
  | .clear =>
    let t := r.machine.withKernel kernel { r.machine.kernel kernel with processes := {} }
    r.record t (if (t.kernel kernel).processes.isEmpty then [.emptied] else [])

def step (kernel : RecordId) (hook : Onlooker α) (r : Rundown α) : Turn → Rundown α
  | .shutdown =>
    match r.duties with
    | [] => r
    | duty :: rest => { r with duties := rest }.perform kernel hook duty
  | .other onlooker => r.record (onlooker.program r.machine).2 []

/-- What is to be done with applications and hosts in an order. -/
def dutiesFor (applications hosts : List RecordId) : List Duty :=
  applications.map .terminate ++ .hook :: (hosts.map .terminate ++ [.clear])

/-- A shutdown that begins. What it is to do depends on the process set as it is now. -/
def start (α : Type) (kernel : RecordId) (s : Machine) : Rundown α where
  machine := s
  duties := dutiesFor ((s.newestFirst kernel).filter fun id => (s.process id).isApplication)
    ((s.newestFirst kernel).filter fun id => !(s.process id).isApplication)

/-- A shutdown and others taking turns. -/
def after (kernel : RecordId) (hook : Onlooker α) (s : Machine) (turns : List Turn) : Rundown α :=
  turns.foldl (step kernel hook) (start α kernel s)

/-- A shutdown that nobody disturbs. -/
def whole (kernel : RecordId) (hook : Onlooker α) (s : Machine) : Rundown α :=
  after kernel hook s (List.replicate (start α kernel s).duties.length .shutdown)

end Rundown

/-! ### What is to be seen -/

/-- What is to be seen of a duty. -/
def Duty.milestones (s : Machine) : Duty → List Milestone
  | terminate id => if (s.process id).state.isTerminating then [] else [.begun id]
  | hook => [.hooked]
  | clear => [.emptied]

/-- The process that a duty ends. -/
def Duty.process? : Duty → Option RecordId
  | terminate id => some id
  | _ => none

/-- What is to be seen depends on the processes that are still to be ended. -/
theorem milestones_congr {duties : List Duty} (h : ∀ id ∈ duties.filterMap Duty.process?,
    (t.process id).state.isTerminating = (s.process id).state.isTerminating) :
    duties.flatMap (Duty.milestones t) = duties.flatMap (Duty.milestones s) := by
  refine List.flatMap_congr fun duty hduty => ?_
  cases duty with
  | terminate id =>
    rw [Duty.milestones, h id (List.mem_filterMap.2 ⟨_, hduty, rfl⟩), Duty.milestones]
  | hook | clear => rfl

/-- What is to be seen of terminating processes are those that have not begun to end. -/
theorem milestones_terminate (s : Machine) (ids : List RecordId) : (ids.map Duty.terminate).flatMap (Duty.milestones s) =
    (ids.filter fun id => !(s.process id).state.isTerminating).map .begun := by
  induction ids with
  | nil => rfl
  | cons id rest ih =>
    rw [List.map_cons, List.flatMap_cons, ih, Duty.milestones, List.filter_cons]
    cases (s.process id).state.isTerminating <;> rfl

/-- The duties of a shutdown end the applications and then the hosts. -/
theorem process?_dutiesFor (applications hosts : List RecordId) :
    (Rundown.dutiesFor applications hosts).filterMap Duty.process? = applications ++ hosts := by
  have hall (ids : List RecordId) : (ids.map Duty.terminate).filterMap Duty.process? = ids := by
    rw [List.filterMap_map]
    exact List.filterMap_some
  rw [Rundown.dutiesFor, List.filterMap_append, hall, List.filterMap_cons_none rfl, List.filterMap_append, hall]
  exact congrArg (applications ++ ·) (List.append_nil hosts)

/-- What is to be seen of the duties of a shutdown: applications that begin to end, the hook, and hosts that do. -/
theorem milestones_dutiesFor (s : Machine) (applications hosts : List RecordId) :
    (Rundown.dutiesFor applications hosts).flatMap (Duty.milestones s) =
      (applications.filter fun id => !(s.process id).state.isTerminating).map .begun ++ .hooked ::
        ((hosts.filter fun id => !(s.process id).state.isTerminating).map .begun ++ [.emptied]) := by
  rw [Rundown.dutiesFor, List.flatMap_append, milestones_terminate, List.flatMap_cons, List.flatMap_append, milestones_terminate]
  rfl

/-- What was seen and what is to be seen make up the whole; no process is ended twice. -/
structure Rundown.Ordered (r : Rundown α) (whole : List Milestone) : Prop where
  crewed : r.machine.Crewed
  nodup : (r.duties.filterMap Duty.process?).Nodup
  whole : r.chronicle ++ r.duties.flatMap (Duty.milestones r.machine) = whole

namespace Rundown.Ordered

variable {kernel : RecordId} {r : Rundown α} {whole : List Milestone}

/-- Somebody else does something that ends no process. -/
theorem look (h : r.Ordered whole) (onlooker : Onlooker Unit) :
    (r.record (onlooker.program r.machine).2 []).Ordered whole where
  crewed := onlooker.crewed _ h.crewed
  nodup := h.nodup
  whole := by
    have hsame := onlooker.ending r.machine
    rw [← h.whole, record, begunBetween_of_same hsame, List.map_nil, List.append_nil, List.append_nil]
    exact congrArg (r.chronicle ++ ·) (milestones_congr fun id _ => hsame id)

/-- A duty is done, and what is seen of it is what was to be seen. -/
theorem record {duty : Duty} {rest : List Duty} (h : r.Ordered whole) (hduties : r.duties = duty :: rest) (more : List Milestone)
    (ht : t.Crewed) (hseen : (begunBetween r.machine t).map .begun ++ more = duty.milestones r.machine)
    (hrest : ∀ id ∈ rest.filterMap Duty.process?, (t.process id).state.isTerminating = (r.machine.process id).state.isTerminating) :
    ({ r with duties := rest }.record t more).Ordered whole where
  crewed := ht
  nodup := by
    have hnodup := h.nodup
    rw [hduties] at hnodup
    exact hnodup.sublist ((List.sublist_cons_self duty rest).filterMap _)
  whole := by
    have hwhole := h.whole
    rw [hduties, List.flatMap_cons, ← hseen, ← milestones_congr hrest] at hwhole
    rw [← hwhole, Rundown.record, ← List.append_assoc, ← List.append_assoc]

/-- The shutdown does what is to be done next. -/
theorem perform (hook : Onlooker α) {duty : Duty} {rest : List Duty} (h : r.Ordered whole) (hduties : r.duties = duty :: rest) :
    ({ r with duties := rest }.perform kernel hook duty).Ordered whole := by
  cases duty with
  | terminate id =>
    obtain ⟨hframe, -⟩ := terminateProcess_within id none r.machine fun th hth => (h.crewed id th hth).2
    refine h.record hduties [] ((terminateProcess_persists id none r.machine).crewed h.crewed) ?_ fun other hother => ?_
    · rw [begunBetween_terminateProcess h.crewed, List.append_nil, Duty.milestones]
      split <;> rfl
    · have hnodup := h.nodup
      rw [hduties] at hnodup
      exact hframe.process other fun heq => (List.nodup_cons.1 hnodup).1 (heq ▸ hother)
  | hook =>
    have hsame := hook.ending r.machine
    have hdone := h.record hduties [.hooked] (hook.crewed _ h.crewed)
      (by rw [begunBetween_of_same hsame]; rfl) fun id _ => hsame id
    exact ⟨hdone.crewed, hdone.nodup, hdone.whole⟩
  | clear =>
    let t := r.machine.withKernel kernel { r.machine.kernel kernel with processes := {} }
    have hempty : (t.kernel kernel).processes.isEmpty = true := by
      rw [kernel_withKernel, if_pos rfl]
      rfl
    refine h.record (t := t) hduties _ h.crewed ?_ fun _ _ => rfl
    rw [show begunBetween r.machine t = [] from begunBetween_of_same fun _ => rfl]
    exact if_pos hempty

/-- A turn keeps what was seen in order. -/
theorem step (hook : Onlooker α) (h : r.Ordered whole) (turn : Turn) : (r.step kernel hook turn).Ordered whole := by
  cases turn with
  | shutdown =>
    rw [Rundown.step]
    split
    · exact h
    · next hduties => exact h.perform hook hduties
  | other onlooker => exact h.look onlooker

/-- Turns one after the other keep what was seen in order. -/
theorem foldl (hook : Onlooker α) (h : r.Ordered whole) (turns : List Turn) :
    (turns.foldl (Rundown.step kernel hook) r).Ordered whole := by
  induction turns generalizing r with
  | nil => exact h
  | cons turn rest ih => exact ih (h.step hook turn)

/-- A shutdown that begins has all there is to be seen ahead. -/
theorem start (h : Ranked kernel s) : (Rundown.start α kernel s).Ordered
    ((Rundown.start α kernel s).duties.flatMap (Duty.milestones s)) where
  crewed := h.crewed
  nodup := by
    have hnodup : (s.newestFirst kernel).Nodup := h.pairwise_newestFirst.imp fun hless heq => by
      rw [heq] at hless
      exact Nat.lt_irrefl _ hless
    rw [Rundown.start, process?_dutiesFor, List.nodup_append]
    refine ⟨hnodup.filter _, hnodup.filter _, fun id hid other hother heq => ?_⟩
    have happlication := (List.mem_filter.1 hid).2
    have hhost := (List.mem_filter.1 hother).2
    rw [← heq, happlication] at hhost
    cases hhost
  whole := rfl

/-- After any turns what was seen and what is to be seen are the milestones of the shutdown at its start. -/
theorem after (h : Ranked kernel s) (hook : Onlooker α) (turns : List Turn) : (Rundown.after kernel hook s turns).Ordered
    ((Rundown.start α kernel s).duties.flatMap (Duty.milestones s)) := (Ordered.start h).foldl hook turns

end Rundown.Ordered

/-! ### Undisturbed -/

/-- Terminating all processes terminates the applications in order, runs the hook, terminates the others in order, and clears the
set. -/
theorem terminateProcesses_run (kernel : RecordId) (hook : Update α) (s : Machine) : terminateProcesses kernel hook s =
    let t := ((s.newestFirst kernel).filter fun id => (s.process id).isApplication).foldl
      (fun t id => (terminateProcess id none t).2) s
    let u := ((s.newestFirst kernel).filter fun id => !(s.process id).isApplication).foldl
      (fun t id => (terminateProcess id none t).2) (hook t).2
    ((hook t).1, u.withKernel kernel { u.kernel kernel with processes := {} }) := by
  rw [terminateProcesses, Update.run_look, newestFirst]
  dsimp only
  rw [Update.run_bind, Update.run_forIn, Update.run_bind, Update.run_bind, Update.run_forIn]
  rfl

namespace Rundown

variable (kernel : RecordId) (hook : Onlooker α)

/-- Processes are terminated in a row. -/
theorem foldl_terminate {ids : List RecordId} {rest : List Duty} {r : Rundown α}
    (hduties : r.duties = ids.map Duty.terminate ++ rest) :
    ∃ chronicle, (List.replicate ids.length Turn.shutdown).foldl (step kernel hook) r =
      { r with machine := ids.foldl (fun s id => (terminateProcess id none s).2) r.machine, duties := rest, chronicle } := by
  induction ids generalizing r with
  | nil => exact ⟨r.chronicle, by rw [← hduties.trans (List.nil_append rest)]; rfl⟩
  | cons id more ih =>
    have hstep : r.step kernel hook .shutdown =
        { r with duties := more.map Duty.terminate ++ rest }.perform kernel hook (.terminate id) := by
      rw [step, hduties]
      rfl
    obtain ⟨chronicle, hrun⟩ := ih (r := r.step kernel hook .shutdown) (by rw [hstep]; rfl)
    refine ⟨chronicle, ?_⟩
    rw [List.length_cons, List.replicate_succ, List.foldl_cons, hrun, hstep]
    rfl

/-- The duties of a shutdown in a row. -/
theorem foldl_duties {applications hosts : List RecordId} {r : Rundown α} (hduties : r.duties = dutiesFor applications hosts) :
    let t := applications.foldl (fun t id => (terminateProcess id none t).2) r.machine
    let u := hosts.foldl (fun t id => (terminateProcess id none t).2) (hook.program t).2
    ∃ chronicle, (List.replicate r.duties.length Turn.shutdown).foldl (step kernel hook) r =
      { machine := u.withKernel kernel { u.kernel kernel with processes := {} }, duties := [], answer := some (hook.program t).1
        chronicle } := by
  intro t u
  have hlength : r.duties.length = applications.length + (1 + (hosts.length + 1)) := by
    rw [hduties, dutiesFor, List.length_append, List.length_cons, List.length_append, List.length_map, List.length_map,
      List.length_singleton, Nat.add_comm 1]
  let hooked (chronicle : List Milestone) : Rundown α :=
    { machine := (hook.program t).2, duties := hosts.map .terminate ++ [.clear], answer := some (hook.program t).1, chronicle }
  obtain ⟨seen, hfirst⟩ := foldl_terminate kernel hook hduties
  obtain ⟨seen', hmiddle⟩ : ∃ chronicle, Rundown.step kernel hook
    { machine := t, duties := .hook :: (hosts.map .terminate ++ [.clear]), answer := r.answer, chronicle := seen } .shutdown =
      hooked chronicle := ⟨_, rfl⟩
  obtain ⟨seen'', hsecond⟩ := foldl_terminate kernel hook (r := hooked seen') rfl
  rw [hlength, List.replicate_add, List.foldl_append, hfirst, List.replicate_add, List.foldl_append, List.replicate_one,
    List.foldl_cons, List.foldl_nil, hmiddle, List.replicate_add, List.foldl_append, hsecond]
  exact ⟨_, rfl⟩

/-- The duties of a shutdown that nobody disturbs are the shutdown. -/
theorem whole_spec (s : Machine) :
    (whole kernel hook s).duties = [] ∧ (whole kernel hook s).answer = some (terminateProcesses kernel hook.program s).1 ∧
      (whole kernel hook s).machine = (terminateProcesses kernel hook.program s).2 := by
  obtain ⟨chronicle, hrun⟩ := foldl_duties kernel hook (r := start α kernel s) rfl
  rw [terminateProcesses_run, whole, after, hrun]
  exact ⟨rfl, rfl, rfl⟩

end Rundown

/-! ### The order -/

/-- Whatever was started and ended before, and whatever others do meanwhile that ends no process: of the members of the process set
that have not begun to end, first the applications do so, the newest first, then the hook is run, then the others do so, the newest
first, and then the set is empty. -/
theorem terminateProcesses_in_order {α : Type} (x : Setup) (steps : List RosterStep) (hook : Onlooker α) :
    let s := afterRoster x steps
    ∃ applications hosts : List RecordId,
      (∀ id, id ∈ applications ↔
        id ∈ s.processesOf x.kernel ∧ (s.process id).isApplication = true ∧ (s.process id).state.isTerminating = false) ∧
      (∀ id, id ∈ hosts ↔
        id ∈ s.processesOf x.kernel ∧ (s.process id).isApplication = false ∧ (s.process id).state.isTerminating = false) ∧
      (applications.Pairwise fun a b => (s.process b).creationOrder < (s.process a).creationOrder) ∧
      (hosts.Pairwise fun a b => (s.process b).creationOrder < (s.process a).creationOrder) ∧
      let order := applications.map Milestone.begun ++ .hooked :: (hosts.map .begun ++ [.emptied])
      (∀ turns, (Rundown.after x.kernel hook s turns).chronicle <+: order ∧
        ((Rundown.after x.kernel hook s turns).duties = [] → (Rundown.after x.kernel hook s turns).chronicle = order)) ∧
      (Rundown.whole x.kernel hook s).duties = [] ∧
      (Rundown.whole x.kernel hook s).answer = some (terminateProcesses x.kernel hook.program s).1 ∧
      (Rundown.whole x.kernel hook s).machine = (terminateProcesses x.kernel hook.program s).2 ∧
      ((terminateProcesses x.kernel hook.program s).2.kernel x.kernel).processes = {} := by
  intro s
  have hranked : Ranked x.kernel s := ranked_after x steps
  let alive (id : RecordId) : Bool := !(s.process id).state.isTerminating
  have hmem (p : RecordId → Bool) (id : RecordId) : id ∈ ((s.newestFirst x.kernel).filter p).filter alive ↔
      id ∈ s.processesOf x.kernel ∧ p id = true ∧ (s.process id).state.isTerminating = false := by
    rw [List.mem_filter, List.mem_filter, mem_newestFirst, and_assoc, Bool.not_eq_true']
  have hsorted (p : RecordId → Bool) : (((s.newestFirst x.kernel).filter p).filter alive).Pairwise fun a b =>
      (s.process b).creationOrder < (s.process a).creationOrder := (hranked.pairwise_newestFirst.filter p).filter alive
  obtain ⟨hduties, hanswer, hmachine⟩ := Rundown.whole_spec x.kernel hook s
  refine ⟨_, _, hmem fun id => (s.process id).isApplication, fun id => ?_, hsorted _,
    hsorted fun id => !(s.process id).isApplication, fun turns => ?_, hduties, hanswer, hmachine, ?_⟩
  · rw [hmem, Bool.not_eq_true']
  · have hwhole := (Rundown.Ordered.after hranked hook turns).whole
    rw [Rundown.start, milestones_dutiesFor] at hwhole
    refine ⟨⟨_, hwhole⟩, fun hdone => ?_⟩
    rw [hdone] at hwhole
    exact (List.append_nil _).symm.trans hwhole
  · rw [terminateProcesses_run, kernel_withKernel, if_pos rfl]

/-- A kernel without processes has nothing to end before its hook, which closes a port here, or after it. -/
example : (Rundown.after 0 (.closing 1) default [.shutdown, .other (.closing 2), .shutdown]).chronicle = [.hooked, .emptied] := by
  decide +kernel

end Machine

end Microkernel
