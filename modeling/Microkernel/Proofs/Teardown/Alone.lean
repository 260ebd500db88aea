import Microkernel.Proofs.Machine.Frames
import Microkernel.Proofs.Teardown.Scenes

/-!
# Ending a process undisturbed

The steps of one party, taken in a row, do to a machine what the program does that they are steps of: `finishTermination`
(`finishTermination_of_steps`), `exitThread` (`exitThread_of_steps`), and `terminateProcess` (`terminateProcess_of_steps`), which ends
the threads that a call waits for in their place.
-/

namespace Microkernel.Machine

variable {α β : Type} {id : RecordId} {s t : Machine}

/-! ## Steps in a row -/

/-- Steps in a row lead from a stage and a machine to another stage and machine. -/
inductive InRow (step : Machine → α → α × Machine) : α × Machine → α × Machine → Prop
  | none (x : α × Machine) : InRow step x x
  | cons {x y : α × Machine} (rest : InRow step (step x.2 x.1) y) : InRow step x y

namespace InRow

variable {step : Machine → α → α × Machine} {x y z : α × Machine}

/-- Steps in a row and more of them behind are steps in a row. -/
theorem trans (h : InRow step x y) (h' : InRow step y z) : InRow step x z := by
  induction h with
  | none => exact h'
  | cons _ ih => exact .cons (ih h')

/-- Stages that are part of others are gone through there. -/
theorem map (step' : Machine → β → β × Machine) (f : α → β) (hstep : ∀ s a, step' s (f a) = (f (step s a).1, (step s a).2))
    (h : InRow step x y) : InRow step' (f x.1, x.2) (f y.1, y.2) := by
  induction h with
  | none => exact .none _
  | @cons x y _ ih =>
    refine .cons ?_
    rwa [hstep]

end InRow

/-! ## The end of a termination -/

/-- A termination is finished by releasing what the process holds, and by telling so if there was something to release. -/
theorem finishTermination_eq (id : RecordId) (s : Machine) : finishTermination id s = (do
    if ← release id then tellTerminated id) s := by
  rw [finishTermination, Update.run_look, Update.run_bind]
  rcases release_cases id s with ⟨hstate, hrun⟩ | ⟨hstate, hrun⟩
  · have hnext : (s.process id).state.next? .finishTermination = some .terminated := by
      rw [hstate]
      rfl
    rw [hrun, hnext]
    change (do
      wake ((← get).process id).waiters
      log .info s!"Process {(s.process id).name} ({(s.process id).pidText}) terminated"
      let _ ← audit (s.process id).kernel (.processTerminated (s.process id).pid) : Update Unit)
        (setProcess id { (s.closeAllOf id).process id with state := .terminated } (s.closeAllOf id)).2 = tellTerminated id _
    rw [process_closeAllOf, tellTerminated, Update.run_look, Update.run_look, setProcess_process]
    rfl
  · have hnext : (s.process id).state.next? .finishTermination = none := by
      cases h : (s.process id).state
      case terminating => exact absurd h hstate
      all_goals rfl
    rw [hrun, hnext]
    rfl

/-- The steps of releasing a process are `finishTermination`. -/
theorem finishTermination_of_steps (id : RecordId) (s : Machine) :
    InRow (FinishStage.advance id) (.releasing, s) (.finished, (finishTermination id s).2) := by
  rw [finishTermination_eq, Update.run_bind]
  refine .cons ?_
  rw [show FinishStage.advance id s .releasing = (if (release id s).1 then .telling else .finished, (release id s).2) from rfl]
  cases (release id s).1 with
  | false => exact .none _
  | true => exact .cons (.none _)

/-! ## The end of a thread -/

/-- A look at one thread after the other finds out whether all have exited. -/
theorem looking_of_steps (id th : RecordId) (s : Machine) (rest : List RecordId) :
    InRow (ThreadStage.advance id · th) (.looking rest, s)
      (if rest.all fun other => (s.thread other).state = .exited then .deciding else .finishing .finished, s) := by
  induction rest with
  | nil => exact .cons (.none _)
  | cons other rest ih =>
    refine .cons ?_
    rw [show ThreadStage.advance id s th (.looking (other :: rest)) =
      (if (s.thread other).state = .exited then .looking rest else .finishing .finished, s) from rfl, List.all_cons]
    by_cases hexited : (s.thread other).state = .exited
    · rw [if_pos hexited, decide_eq_true hexited, Bool.true_and]
      exact ih
    · rw [if_neg hexited, decide_eq_false hexited, Bool.false_and]
      exact .none _

/-- A thread that finishes the termination of its process takes the steps of releasing it. -/
theorem finishing_of_steps (id th : RecordId) (s : Machine) :
    InRow (ThreadStage.advance id · th) (.finishing .releasing, s) (.finishing .finished, (finishTermination id s).2) :=
  (finishTermination_of_steps id s).map (ThreadStage.advance id · th) .finishing fun _ _ => rfl

/-- A thread that has exited finishes the termination if it finds that all have. -/
theorem threadExited_of_steps (id th : RecordId) (s : Machine) :
    InRow (ThreadStage.advance id · th) (.looking (s.process id).threads, s) (.finishing .finished, (threadExited id s).2) := by
  refine (looking_of_steps id th s _).trans ?_
  rw [threadExited, Update.run_look]
  split
  · refine .cons ?_
    rw [show ThreadStage.advance id s th .deciding =
      (if (s.process id).state = .running then .beginning else .finishing .releasing, s) from rfl]
    split
    · exact .cons (finishing_of_steps id th _)
    · exact finishing_of_steps id th s
  · exact .none _

/-- The steps of a thread whose body is over. -/
theorem exitThread_of_steps {th : RecordId} (hth : (s.thread th).process = id) (ending : ThreadEnd) :
    InRow (ThreadStage.advance id · th) (.ended, (endBody th ending s).2) (.finishing .finished, (exitThread th ending s).2) := by
  have hexit : exitThread th ending s = (do
      moveThread th .exit
      moveThread th .finish
      threadExited id) (endBody th ending s).2 := by
    rw [exitThread, endBody, Update.run_look, Update.run_look, Update.run_look, Update.run_look, hth]
    cases ending with
    | returned => simp only [Update.run_bind]
    | failed e => cases e <;> simp only [Update.run_bind]
    | panicked => simp only [Update.run_bind]
  rw [hexit, Update.run_bind, Update.run_bind]
  have hthreads (s : Machine) : ((moveThread th .finish s).2.process id).threads = (s.process id).threads :=
    congrArg Scene.threads (scene_moveThread id th .finish s)
  have hrest := threadExited_of_steps id th (moveThread th .finish (moveThread th .exit (endBody th ending s).2).2).2
  rw [hthreads] at hrest
  exact .cons (.cons hrest)

/-! ## A call -/

/-- Ends the threads of a process, all of them but one. -/
def stopOthers (threads : List RecordId) (caller : Option RecordId) : Update Unit := do
  for thread in threads do
    if some thread ≠ caller then stopThread thread

/-- What a call asks of the threads. -/
def askAll (id : RecordId) (threads : List RecordId) : Update Unit := do
  for thread in threads do requestTermination thread
  setPaused id false

/-- A call that has asked all threads waits for those that are not its caller. -/
theorem requesting_of_steps (id : RecordId) (caller : Option RecordId) (threads : List RecordId) (s : Machine) :
    InRow (CallStage.advance id · caller) (.requesting threads, s)
      (.joining ((s.process id).threads.filter (some · ≠ caller)), (askAll id threads s).2) := by
  induction threads generalizing s with
  | nil => exact .cons (.none _)
  | cons thread rest ih =>
    refine .cons ?_
    have hthreads : ((requestTermination thread s).2.process id).threads = (s.process id).threads := rfl
    have hrest := ih (requestTermination thread s).2
    rw [hthreads] at hrest
    rw [askAll, List.forIn_cons]
    exact hrest

/-- A call that waits for threads that have exited goes on to the check. -/
theorem joining_of_steps (id : RecordId) (caller : Option RecordId) (rest : List RecordId) (s : Machine)
    (h : ∀ th ∈ rest, (s.thread th).state = .exited) :
    InRow (CallStage.advance id · caller) (.joining rest, s) (.checking, s) := by
  induction rest with
  | nil => exact .cons (.none _)
  | cons th rest ih =>
    refine .cons ?_
    rw [show CallStage.advance id s caller (.joining (th :: rest)) =
      (if (s.thread th).state = .exited then .joining rest else .joining (th :: rest), s) from rfl,
      if_pos (h th List.mem_cons_self)]
    exact ih fun other hother => h other (List.mem_cons_of_mem th hother)

/-- What a call does when the others have been ended. -/
def endCall (id : RecordId) (threads : List RecordId) (caller : Option RecordId) : Update Unit := do
  let s ← get
  let callerAlive := caller.any fun thread => threads.contains thread && (s.thread thread).state ≠ .exited
  if !callerAlive then finishTermination id

/-- A call that has checked releases the process, unless the thread that calls is still to exit. -/
theorem checking_of_steps (id : RecordId) (caller : Option RecordId) {s : Machine} {threads : List RecordId}
    (hthreads : (s.process id).threads = threads) :
    InRow (CallStage.advance id · caller) (.checking, s) (.finishing .finished, (endCall id threads caller s).2) := by
  subst hthreads
  have hfinish := (finishTermination_of_steps id s).map (CallStage.advance id · caller) .finishing fun _ _ => rfl
  rw [endCall, Update.run_look]
  refine .cons ?_
  rw [CallStage.advance]
  dsimp only
  cases caller.any fun thread => (s.process id).threads.contains thread && (s.thread thread).state ≠ .exited with
  | false => exact hfinish
  | true => exact .none _

/-- Terminating a process asks its threads and stops them, and then ends the call. -/
theorem terminateProcess_eq (id : RecordId) (caller : Option RecordId) (s : Machine) : terminateProcess id caller s = (do
    if ← beginEnding id then
      let threads := ((← get).process id).threads
      askAll id threads
      stopOthers threads caller
      endCall id threads caller) s := by
  rw [terminateProcess, Update.run_bind, Update.run_bind, beginEnding, Update.run_bind]
  cases (moveProcess id .beginTermination s).1 with
  | false => rfl
  | true =>
    simp only [askAll, stopOthers, endCall]
    rfl

/-- The process has the threads that it had. -/
def SameThreads (_ : RecordId) (p q : Process) : Prop := q.threads = p.threads

instance (id : RecordId) : IsPreorder Process (SameThreads id) where
  refl _ := rfl
  trans _ _ _ h h' := Eq.trans h' h

instance : Tame SameThreads where
  waited _ _ _ := rfl
  paused _ _ _ := rfl
  moved _ _ _ _ _ _ := rfl
  ended _ _ _ := rfl

/-- Asking all threads leaves every process the threads that it had. -/
theorem askAll_frame (id : RecordId) (threads : List RecordId) : Keeps (Frame SameThreads) (askAll id threads) :=
  Keeps.bind (.forIn fun th _ => (requestTermination_frame th).bind fun _ => .pure _) fun _ => setPaused_frame id false

/-- Stopping the other threads leaves every process the threads that it had. -/
theorem stopOthers_frame (threads : List RecordId) (caller : Option RecordId) :
    Keeps (Frame SameThreads) (stopOthers threads caller) := by
  refine .forIn fun th _ => ?_
  split
  · exact (stopThread_frame th).bind fun _ => .pure _
  · exact .pure _

/-- A call that nobody disturbs while it takes its steps: it asks the threads to exit; when the others have been ended, it goes on. -/
theorem terminateProcess_of_steps (id : RecordId) (caller : Option RecordId) (s : Machine)
    (hstate : (s.process id).state.isTerminating = false) :
    ∃ asked, InRow (CallStage.advance id · caller) (.called, s)
        (.joining ((s.process id).threads.filter (some · ≠ caller)), asked) ∧
      ((∀ th ∈ (s.process id).threads, some th ≠ caller →
          ((stopOthers (s.process id).threads caller asked).2.thread th).state = .exited) →
        InRow (CallStage.advance id · caller)
          (.joining ((s.process id).threads.filter (some · ≠ caller)), (stopOthers (s.process id).threads caller asked).2)
          (.finishing .finished, (terminateProcess id caller s).2)) := by
  rcases beginEnding_cases id s with ⟨-, begun, hbegin, hscene⟩ | ⟨hending, -⟩
  case inr => cases hstate.symm.trans hending
  have hthreads : (begun.process id).threads = (s.process id).threads := congrArg Scene.threads hscene
  have hrun : terminateProcess id caller s = endCall id (s.process id).threads caller
      (stopOthers (s.process id).threads caller (askAll id (s.process id).threads begun).2).2 := by
    rw [terminateProcess_eq, Update.run_bind, hbegin, if_pos rfl, Update.run_look, hthreads]
    rfl
  have hcalled : CallStage.advance id s caller .called = (.requesting (s.process id).threads, begun) := by
    rw [CallStage.advance, hbegin]
    rfl
  generalize (s.process id).threads = threads at hthreads hrun hcalled ⊢
  refine ⟨(askAll id threads begun).2, .cons ?_, fun hexited => ?_⟩
  · rw [hcalled, ← hthreads]
    exact requesting_of_steps id caller _ begun
  · refine (joining_of_steps id caller _ _ fun th hth => ?_).trans ?_
    · obtain ⟨hth, hother⟩ := List.mem_filter.1 hth
      exact hexited th hth (of_decide_eq_true hother)
    · rw [hrun]
      exact checking_of_steps id caller
        (((stopOthers_frame threads caller _).process id).trans (((askAll_frame id threads begun).process id).trans hthreads))

end Microkernel.Machine
