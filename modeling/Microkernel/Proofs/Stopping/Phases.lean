import Microkernel.Proofs.Service.Handlers
import Microkernel.Proofs.Stopping.Stages
import Microkernel.Proofs.Teardown.Parties

/-!
# How far the thread and the call that stops a server are

The thread leaves its loop only when it was asked to exit, and only the call that stops the server asks it, late; and that call goes on
behind the thread only when it has exited (`Phases`). Whatever leaves the host process and its thread alone keeps this (`SameHost`).
-/

namespace Microkernel.Machine

variable {process thread : RecordId} {s t u : Machine} {loop loop' : LoopStage} {stop stop' : StopStage}

/-! ## Stages -/

/-- The call has asked the thread to exit, or is about to. -/
def StopStage.hasAsked : StopStage → Bool
  | idle | called | emptying _ | closing _ | terminating .called => false
  | terminating _ | returned => true

/-- The call has waited for the thread. -/
def StopStage.hasJoined : StopStage → Bool
  | terminating .checking | terminating (.finishing _) | returned => true
  | idle | called | emptying _ | closing _ | terminating _ => false

/-- What is known at a stage of the call. -/
def StopStage.Fits (x : Scene) : StopStage → Prop
  | terminating stage => stage.Fits x none
  | _ => True

/-- The thread is in its loop and does not wait. -/
def LoopStage.isInside : LoopStage → Bool
  | entering | waiting _ | ending | closing _ | leaving _ => false
  | _ => true

/-- The thread has left its loop. -/
def LoopStage.isLeft : LoopStage → Bool
  | ending | closing _ | leaving _ => true
  | _ => false

/-- What is known at a stage of the thread. -/
def LoopStage.Fits (x : Scene) (th : RecordId) : LoopStage → Prop
  | entering => x.threadState th = .started
  | waiting _ => x.threadState th = .waiting
  | leaving stage => stage.Fits x th
  | _ => x.threadState th = .running

/-- A call that has waited for the thread has asked it to exit. -/
theorem StopStage.asked_of_joined (h : stop.hasJoined = true) : stop.hasAsked = true := by
  cases stop
  case terminating stage => cases stage <;> first | rfl | cases h
  all_goals first | rfl | cases h

/-- Before the call has asked the thread to exit it has to know nothing of the host process. -/
theorem StopStage.fits_of_unasked (h : stop.hasAsked = false) (x : Scene) : stop.Fits x := by
  cases stop
  case terminating stage => cases stage <;> trivial
  all_goals trivial

/-- A thread in its loop has not left it. -/
theorem LoopStage.not_left_of_inside (h : loop.isInside = true) : loop.isLeft = false := by
  cases loop <;> first | rfl | cases h

/-- A thread in its loop runs. -/
theorem LoopStage.fits_of_inside (h : loop.isInside = true) (x : Scene) (th : RecordId) :
    loop.Fits x th = (x.threadState th = .running) := by
  cases loop <;> first | rfl | cases h

/-- A thread that has exited is past its loop. -/
theorem LoopStage.leaving_of_exited {x : Scene} {th : RecordId} (h : loop.Fits x th) (hexited : x.threadState th = .exited) :
    ∃ stage, loop = .leaving stage := by
  cases loop
  case leaving stage => exact ⟨stage, rfl⟩
  all_goals cases hexited.symm.trans h

/-! ## Hosts -/

namespace SameHost

/-- Where processes and threads stay, the host does. -/
theorem of_eq (hprocesses : t.processes = s.processes) (hthreads : t.threads = s.threads) : SameHost process s t := by
  constructor <;> intros <;> simp only [Machine.process, Machine.thread, hprocesses, hthreads]

/-- Where owners stay as they are, the host does. -/
theorem of_owners (h : SameOwners s t) : SameHost process s t := of_eq h.processes h.threads

/-- What is seen of the host process goes on. -/
theorem onward (h : SameHost process s t) : Onward none (s.scene process) (t.scene process) where
  threads := h.threads
  kernel := h.kernel
  pid := h.pid
  exited th hth hexited := (h.threadState th hth).trans hexited
  others th hth _ := h.threadState th hth
  state := .inl h.state

end SameHost

theorem log_host (level : Level) (text : String) : Keeps (SameHost process) (log level text) := fun _ => .of_eq rfl rfl

theorem setServer_host (id : RecordId) (x : Server) : Keeps (SameHost process) (setServer id x) := fun _ => .of_eq rfl rfl

/-- A thread that moves is asked to exit only if it was. -/
theorem asked_moveThread (event : ThreadEvent) (s : Machine) :
    ((moveThread thread event s).2.thread thread).terminationRequested = (s.thread thread).terminationRequested := by
  rw [moveThread, Update.run_look]
  cases (s.thread thread).state.next? event with
  | none => rfl
  | some state =>
    dsimp only
    rw [Update.run_bind]
    have hset : ((setThread thread { s.thread thread with state } s).2.thread thread).terminationRequested =
        (s.thread thread).terminationRequested := by
      change ((s.threads.insert thread _).getD thread default).terminationRequested = _
      rw [Records.getD_insert, if_pos rfl]
    split <;> exact hset

/-- The end of the body of a thread leaves the host. -/
theorem endBody_host (thread : RecordId) (s : Machine) : SameHost process s (endBody thread .returned s).2 := by
  have hthread (th : RecordId) : (endBody thread .returned s).2.thread th =
      if th = thread then { s.thread thread with activity := .none } else s.thread th := Records.getD_insert _ _ _ _ _
  refine ⟨rfl, rfl, rfl, rfl, fun th _ => ?_, fun th _ => ?_⟩ <;> rw [hthread] <;> split
  · next heq => rw [heq]
  · rfl
  · next heq => rw [heq]
  · rfl

/-! ## The invariant -/

/-- The host process has one thread, which is as far in the machine as its stage says, and the call that stops the server goes first:
the thread leaves its loop behind the request to exit, and the call goes on when it has exited. -/
structure Phases (process thread : RecordId) (s : Machine) (loop : LoopStage) (stop : StopStage) : Prop where
  threads : (s.scene process).threads = [thread]
  alive : (s.scene process).state ≠ .created
  running : stop.hasAsked = false → (s.scene process).state = .running
  asked : (s.thread thread).terminationRequested = true → stop.hasAsked = true
  left : loop.isLeft = true → stop.hasAsked = true
  joined : stop.hasJoined = true → (s.scene process).threadState thread = .exited
  loopFits : loop.Fits (s.scene process) thread
  stopFits : stop.Fits (s.scene process)

/-- What the call knows of the host process stays true while that goes onward. -/
theorem StopStage.Fits.onward {own : Option RecordId} (h : stop.Fits (s.scene process))
    (ho : Onward own (s.scene process) (t.scene process)) : stop.Fits (t.scene process) := by
  cases stop with
  | terminating stage => exact CallStage.Fits.onward h ho
  | _ => trivial

namespace Phases

/-- The thread is one of its process. -/
theorem mem (h : Phases process thread s loop stop) : thread ∈ (s.scene process).threads := by
  rw [h.threads]
  exact List.mem_singleton_self _

/-- What the thread knows of itself stays true while its process goes onward without it. -/
theorem loop_onward (h : Phases process thread s loop stop) (ho : Onward none (s.scene process) (t.scene process)) :
    loop.Fits (t.scene process) thread := by
  have hsame := ho.others thread h.mem nofun
  have hfits := h.loopFits
  cases loop
  case leaving stage => exact ThreadStage.Fits.onward hfits ho h.mem nofun
  all_goals exact hsame.trans hfits

/-- The host process does not come to be created anew. -/
theorem alive_onward {own : Option RecordId} (h : Phases process thread s loop stop)
    (ho : Onward own (s.scene process) (t.scene process)) : (t.scene process).state ≠ .created := by
  intro hcreated
  rcases ho.state with hsame | ⟨-, hstate⟩ | ⟨-, hstate⟩
  · exact h.alive (hsame.symm.trans hcreated)
  · cases hcreated.symm.trans hstate
  · cases hcreated.symm.trans hstate

/-- What leaves the host process alone. -/
theorem sameHost (h : Phases process thread s loop stop) (ht : SameHost process s t) : Phases process thread t loop stop where
  threads := ht.threads.trans h.threads
  alive := h.alive_onward ht.onward
  running hstop := ht.state.trans (h.running hstop)
  asked hasked := h.asked ((ht.unasked thread h.mem).symm.trans hasked)
  left := h.left
  joined hjoined := (ht.threadState thread h.mem).trans (h.joined hjoined)
  loopFits := h.loop_onward ht.onward
  stopFits := h.stopFits.onward ht.onward

/-! ### The thread -/

/-- The thread goes on in its loop. -/
theorem inside (h : Phases process thread s loop stop) (hin : loop.isInside = true) (hin' : loop'.isInside = true) :
    Phases process thread s loop' stop :=
  { h with
    left := fun hleft => nomatch (LoopStage.not_left_of_inside hin').symm.trans hleft
    loopFits := by
      have hfits := h.loopFits
      rw [LoopStage.fits_of_inside hin] at hfits
      rwa [LoopStage.fits_of_inside hin'] }

/-- The thread leaves its loop, or has left it. -/
theorem leaves (h : Phases process thread s loop stop) (hstop : stop.hasAsked = true)
    (hfits : loop'.Fits (s.scene process) thread) : Phases process thread s loop' stop :=
  { h with left := fun _ => hstop, loopFits := hfits }

/-- The thread moves itself. -/
theorem moves (h : Phases process thread s loop stop) (event : ThreadEvent) {state : ThreadState}
    (hnext : (s.thread thread).state.next? event = some state)
    (hfits : ∀ x : Scene, x.threadState thread = state → loop'.Fits x thread) (hleft : loop'.isLeft = true → stop.hasAsked = true) :
    Phases process thread (moveThread thread event s).2 loop' stop := by
  obtain ⟨hchange, hstate⟩ := moveThread_change process event hnext
  have ho := hchange.onward
  have hscene := scene_moveThread process thread event s
  constructor
  case threads => exact ho.threads.trans h.threads
  case alive => exact h.alive_onward ho
  case running =>
    intro hstop
    rw [hscene]
    exact h.running hstop
  case asked => exact fun hasked => h.asked ((asked_moveThread event s).symm.trans hasked)
  case left => exact hleft
  case joined =>
    intro hjoined
    have hexited : (s.thread thread).state = .exited := h.joined hjoined
    rw [hexited] at hnext
    cases event <;> cases hnext
  case loopFits => exact hfits _ hstate
  case stopFits => exact h.stopFits.onward ho

/-- The wait of the thread ends. -/
theorem wakes {window : List SessionEntry} (h : Phases process thread s (.waiting window) stop) (hin : loop'.isInside = true) :
    Phases process thread (moveThread thread .endWait s).2 loop' stop := by
  have hwaiting : (s.thread thread).state = .waiting := h.loopFits
  refine h.moves .endWait (by rw [hwaiting]; rfl) (fun x hx => ?_) fun hleft => ?_
  · rwa [LoopStage.fits_of_inside hin]
  · cases (LoopStage.not_left_of_inside hin).symm.trans hleft

/-- The thread takes a step behind its loop. -/
theorem exits {stage : ThreadStage} (h : Phases process thread s (.leaving stage) stop) :
    Phases process thread (stage.advance process s thread).2 (.leaving (stage.advance process s thread).1) stop := by
  obtain ⟨hchange, hfits⟩ := ThreadStage.advance_spec h.alive h.mem h.loopFits
  have ho := hchange.onward
  have hasked := h.left rfl
  constructor
  case threads => exact ho.threads.trans h.threads
  case alive => exact h.alive_onward ho
  case running => exact fun hstop => nomatch hasked.symm.trans hstop
  case asked => exact fun _ => hasked
  case left => exact fun _ => hasked
  case joined => exact fun hjoined => ho.exited thread h.mem (h.joined hjoined)
  case loopFits => exact hfits
  case stopFits => exact h.stopFits.onward ho

/-! ### The call -/

/-- The call goes on before it asks anybody to exit. -/
theorem before (h : Phases process thread s loop stop) (hstop : stop.hasAsked = false) (hstop' : stop'.hasAsked = false) :
    Phases process thread s loop stop' :=
  { h with
    running := fun _ => h.running hstop
    asked := fun hasked => nomatch hstop.symm.trans (h.asked hasked)
    left := fun hleft => nomatch hstop.symm.trans (h.left hleft)
    joined := fun hjoined => nomatch hstop'.symm.trans (StopStage.asked_of_joined hjoined)
    stopFits := StopStage.fits_of_unasked hstop' _ }

/-- A call that takes a step in terminating the process has begun, and so has asked. -/
theorem asked_advance (process : RecordId) (stage : CallStage) (s : Machine) :
    (StopStage.terminating (stage.advance process s none).1).hasAsked = true := by
  cases stage with
  | called =>
    rw [show CallStage.called.advance process s none = (if (beginEnding process s).1 then .requesting (s.process process).threads
      else .finishing .finished, (beginEnding process s).2) from rfl]
    split <;> rfl
  | requesting rest => cases rest <;> rfl
  | joining rest =>
    cases rest with
    | nil => rfl
    | cons th rest =>
      unfold CallStage.advance
      dsimp only
      split <;> rfl
  | checking => rfl
  | finishing stage => rfl

/-- The call takes a step in terminating the process. -/
theorem terminates {stage : CallStage} (h : Phases process thread s loop (.terminating stage)) :
    Phases process thread (stage.advance process s none).2 loop (.terminating (stage.advance process s none).1) := by
  obtain ⟨hchange, hfits⟩ := CallStage.advance_spec h.alive h.stopFits
  have ho := hchange.onward
  have hasked := asked_advance process stage s
  constructor
  case threads => exact ho.threads.trans h.threads
  case alive => exact h.alive_onward ho
  case running => exact fun hstop => nomatch hasked.symm.trans hstop
  case asked => exact fun _ => hasked
  case left => exact fun _ => hasked
  case joined =>
    intro hjoined
    cases stage with
    | called =>
      -- the process still runs, so that the call is the one that ends it
      have hrunning : (s.process process).state = .running := h.running rfl
      rcases beginEnding_cases process s with ⟨-, t, hrun, -⟩ | ⟨hending, -⟩
      · unfold CallStage.advance at hjoined
        rw [hrun] at hjoined
        cases hjoined
      · rw [hrunning] at hending
        cases hending
    | requesting rest => cases rest <;> cases hjoined
    | joining rest =>
      cases rest with
      | nil => exact hfits.2 thread (ho.threads ▸ h.mem) nofun
      | cons th rest =>
        unfold CallStage.advance at hjoined
        dsimp only at hjoined
        split at hjoined <;> cases hjoined
    | checking => exact ho.exited thread h.mem (h.joined rfl)
    | finishing stage => exact ho.exited thread h.mem (h.joined rfl)
  case loopFits => exact h.loop_onward ho
  case stopFits => exact hfits

/-- The call is over. -/
theorem returns (h : Phases process thread s loop (.terminating (.finishing .finished))) : Phases process thread s loop .returned :=
  { h with running := nofun, asked := fun _ => rfl, left := fun _ => rfl, joined := fun _ => h.joined rfl, stopFits := trivial }

/-- When the call has returned, the thread is behind its loop. -/
theorem behind (h : Phases process thread s loop stop) (hstop : stop = .returned) : ∃ stage, loop = .leaving stage := by
  subst hstop
  exact LoopStage.leaving_of_exited h.loopFits (h.joined rfl)

end Phases

end Microkernel.Machine
