import Microkernel.Proofs.Teardown.Scenes

/-!
# Who ends a process, and what each knows

A step of somebody who ends a process makes it go forward in one of a few ways (`Change`). Whoever comes to release the process has seen
every thread exit, and threads that have exited stay so: what is known at a stage stays true while others take their steps
(`ThreadStage.Fits.onward`), and a step leads to a stage at which more is known (`CallStage.advance_spec`, `ThreadStage.advance_spec`).
-/

namespace Microkernel

/-- Started, and not on the way out. -/
def ThreadState.isInside : ThreadState → Bool
  | started | running | waiting => true
  | created | exiting | exited => false

namespace Machine

variable {id : RecordId} {s t : Machine} {x y : Scene} {own caller : Option RecordId} {th : RecordId}

/-! ## What a step makes of the scene -/

def Scene.AllExited (x : Scene) : Prop := ∀ th ∈ x.threads, x.threadState th = .exited

/-- The machine after a process was released. -/
def afterRelease (id : RecordId) (s : Machine) : Machine :=
  (setProcess id { drained (s.process id) with state := .terminated } (s.closeAllOf id)).2

/-- What a step of a party makes of the machine. The two truth values say whether the party has to tell, before and after. -/
inductive Change (id : RecordId) (own : Option RecordId) (s : Machine) : Bool → Machine → Bool → Prop
  | same {t : Machine} (ht : t.scene id = s.scene id) : Change id own s false t false
  | begun {t : Machine} (h : (s.scene id).state = .running) (ht : t.scene id = { s.scene id with state := .terminating }) :
    Change id own s false t false
  | moved {t : Machine} {th : RecordId} {state : ThreadState} (hown : own = some th) (h : (s.scene id).threadState th ≠ .exited)
    (ht : t.scene id = (s.scene id).withThread th state) : Change id own s false t false
  | released (h : (s.scene id).state = .terminating) (hall : (s.scene id).AllExited) : Change id own s false (s.afterRelease id) true
  | told {t : Machine} (h : (s.scene id).state = .terminated)
    (ht : ∃ time, t.scene id =
      { s.scene id with audit := ((s.scene id).audit.record (.processTerminated (s.scene id).pid) time).2 }) :
    Change id own s true t false

/-- The process and its threads only go forward, and nobody but the owner of a thread moves it. -/
structure Onward (own : Option RecordId) (x y : Scene) : Prop where
  threads : y.threads = x.threads
  kernel : y.kernel = x.kernel
  pid : y.pid = x.pid
  exited : ∀ th ∈ x.threads, x.threadState th = .exited → y.threadState th = .exited
  others : ∀ th ∈ x.threads, some th ≠ own → y.threadState th = x.threadState th
  state : y.state = x.state ∨ x.state = .running ∧ y.state = .terminating ∨ x.state = .terminating ∧ y.state = .terminated

/-- A change goes onward. -/
theorem Change.onward {b b' : Bool} (h : Change id own s b t b') : Onward own (s.scene id) (t.scene id) := by
  cases h with
  | same ht =>
    rw [ht]
    exact ⟨rfl, rfl, rfl, fun _ _ h => h, fun _ _ _ => rfl, .inl rfl⟩
  | begun h ht =>
    rw [ht]
    exact ⟨rfl, rfl, rfl, fun _ _ h => h, fun _ _ _ => rfl, .inr (.inl ⟨h, rfl⟩)⟩
  | @moved _ th state hown h ht =>
    rw [ht]
    refine ⟨rfl, rfl, rfl, fun other _ ho => ?_, fun other _ ho => if_neg ?_, .inl rfl⟩
    · have hne : other ≠ th := by
        rintro rfl
        exact h ho
      exact (if_neg hne).trans ho
    · rintro rfl
      exact ho hown.symm
  | released h hall =>
    rw [afterRelease, scene_release]
    exact ⟨rfl, rfl, rfl, fun _ _ h => h, fun _ _ _ => rfl, .inr (.inr ⟨h, rfl⟩)⟩
  | told h ht =>
    obtain ⟨time, ht⟩ := ht
    rw [ht]
    exact ⟨rfl, rfl, rfl, fun _ _ h => h, fun _ _ _ => rfl, .inl rfl⟩

namespace Onward

/-- A process that does not run any more never runs again. -/
theorem not_running (h : Onward own x y) (hx : x.state ≠ .running) : y.state ≠ .running := by
  rcases h.state with hy | ⟨hrunning, -⟩ | ⟨-, hy⟩
  · rwa [hy]
  · exact absurd hrunning hx
  · rw [hy]
    exact ProcessState.noConfusion

/-- A terminated process stays terminated. -/
theorem terminated (h : Onward own x y) (hx : x.state = .terminated) : y.state = .terminated := by
  rcases h.state with hy | ⟨hx', -⟩ | ⟨-, hy⟩
  · rw [hy, hx]
  · cases hx.symm.trans hx'
  · exact hy

/-- Threads that have all exited stay so. -/
theorem allExited (h : Onward own x y) (hx : x.AllExited) : y.AllExited := by
  intro th hth
  rw [h.threads] at hth
  exact h.exited th hth (hx th hth)

end Onward

/-! ## What a stage tells -/

/-- What is known at a stage. -/
def FinishStage.Fits (x : Scene) : FinishStage → Prop
  | releasing => x.AllExited ∧ x.state ≠ .running
  | telling => x.AllExited ∧ x.state = .terminated
  | finished => True

def CallStage.Fits (x : Scene) (caller : Option RecordId) : CallStage → Prop
  | called => True
  | requesting _ => x.state ≠ .running
  | joining rest => x.state ≠ .running ∧ ∀ th ∈ x.threads, some th ≠ caller → th ∈ rest ∨ x.threadState th = .exited
  | checking => x.state ≠ .running ∧ ∀ th ∈ x.threads, some th ≠ caller → x.threadState th = .exited
  | finishing stage => x.state ≠ .running ∧ stage.Fits x

def ThreadStage.Fits (x : Scene) (th : RecordId) : ThreadStage → Prop
  | entered => (x.threadState th).isInside = true
  | calling stage => x.threadState th = .running ∧ stage.Fits x (some th)
  | ended => x.threadState th = .running
  | exiting => x.threadState th = .exiting
  | looking rest => x.threadState th = .exited ∧ (∀ other ∈ rest, other ∈ x.threads) ∧
      ∀ other ∈ x.threads, other ∈ rest ∨ x.threadState other = .exited
  | deciding => x.threadState th = .exited ∧ x.AllExited
  | beginning => x.threadState th = .exited ∧ x.AllExited
  | finishing stage => x.threadState th = .exited ∧ stage.Fits x

/-- What is known when a process is released stays true. -/
theorem FinishStage.Fits.onward {stage : FinishStage} (h : stage.Fits x) (ho : Onward own x y) : stage.Fits y := by
  cases stage with
  | releasing => exact ⟨ho.allExited h.1, ho.not_running h.2⟩
  | telling => exact ⟨ho.allExited h.1, ho.terminated h.2⟩
  | finished => trivial

/-- What a call knows stays true. -/
theorem CallStage.Fits.onward {stage : CallStage} (h : stage.Fits x caller) (ho : Onward own x y) : stage.Fits y caller := by
  cases stage with
  | called => trivial
  | requesting rest => exact ho.not_running h
  | joining rest =>
    refine ⟨ho.not_running h.1, fun th hth hne => ?_⟩
    rw [ho.threads] at hth
    exact (h.2 th hth hne).imp_right (ho.exited th hth)
  | checking =>
    refine ⟨ho.not_running h.1, fun th hth hne => ?_⟩
    rw [ho.threads] at hth
    exact ho.exited th hth (h.2 th hth hne)
  | finishing stage => exact ⟨ho.not_running h.1, h.2.onward ho⟩

/-- What a thread knows stays true while others take their steps. -/
theorem ThreadStage.Fits.onward {stage : ThreadStage} (h : stage.Fits x th) (ho : Onward own x y) (hth : th ∈ x.threads)
    (hne : some th ≠ own) : stage.Fits y th := by
  have hsame := ho.others th hth hne
  cases stage with
  | entered => exact (congrArg ThreadState.isInside hsame).trans h
  | calling stage => exact ⟨hsame.trans h.1, h.2.onward ho⟩
  | ended => exact hsame.trans h
  | exiting => exact hsame.trans h
  | looking rest =>
    refine ⟨hsame.trans h.1, fun other hother => ho.threads ▸ h.2.1 other hother, fun other hother => ?_⟩
    rw [ho.threads] at hother
    exact (h.2.2 other hother).imp_right (ho.exited other hother)
  | deciding => exact ⟨hsame.trans h.1, ho.allExited h.2⟩
  | beginning => exact ⟨hsame.trans h.1, ho.allExited h.2⟩
  | finishing stage => exact ⟨hsame.trans h.1, h.2.onward ho⟩

/-! ## Steps of parties -/

def FinishStage.isTelling : FinishStage → Bool
  | telling => true
  | _ => false

def CallStage.isTelling : CallStage → Bool
  | finishing stage => stage.isTelling
  | _ => false

def ThreadStage.isTelling : ThreadStage → Bool
  | calling stage => stage.isTelling
  | finishing stage => stage.isTelling
  | _ => false

/-- A step of releasing a process is a change, and leads to a stage at which more is known. -/
theorem FinishStage.advance_spec {stage : FinishStage} (h : stage.Fits (s.scene id)) :
    Change id none s stage.isTelling (stage.advance id s).2 (stage.advance id s).1.isTelling ∧
      (stage.advance id s).1.Fits ((stage.advance id s).2.scene id) := by
  cases stage with
  | releasing =>
    unfold advance
    rcases release_cases id s with ⟨hstate, hrun⟩ | ⟨-, hrun⟩ <;> rw [hrun]
    · have hchange : Change id none s false (s.afterRelease id) true := .released hstate h.1
      refine ⟨hchange, hchange.onward.allExited h.1, ?_⟩
      change ((afterRelease id s).scene id).state = _
      rw [afterRelease, scene_release]
      rfl
    · exact ⟨.same rfl, trivial⟩
  | telling => exact ⟨.told h.2 (scene_tellTerminated id s), trivial⟩
  | finished => exact ⟨.same rfl, trivial⟩

/-- A call of one of the threads never comes to release anything: its caller has not exited. -/
theorem CallStage.advance_spec (hs : (s.scene id).state ≠ .created) {stage : CallStage} (h : stage.Fits (s.scene id) caller) :
    Change id none s stage.isTelling (stage.advance id s caller).2 (stage.advance id s caller).1.isTelling ∧
      (stage.advance id s caller).1.Fits ((stage.advance id s caller).2.scene id) caller := by
  cases stage with
  | called =>
    unfold advance
    rcases beginEnding_cases id s with ⟨hstate, t, hrun, ht⟩ | ⟨hstate, hrun⟩ <;> rw [hrun]
    · have hrunning : (s.scene id).state = .running := by
        change (s.process id).state ≠ _ at hs
        change (s.process id).state = _
        cases hp : (s.process id).state
        case running => rfl
        case created => exact absurd hp hs
        all_goals rw [hp] at hstate; cases hstate
      refine ⟨.begun hrunning ht, ?_⟩
      change (t.scene id).state ≠ _
      rw [ht]
      exact ProcessState.noConfusion
    · refine ⟨.same rfl, fun hrunning => ?_, trivial⟩
      have hrunning : (s.process id).state = .running := hrunning
      rw [hrunning] at hstate
      cases hstate
  | requesting rest =>
    cases rest with
    | nil =>
      have hscene : ((setPaused id false s).2).scene id = s.scene id := scene_setPaused false s
      refine ⟨.same hscene, ?_⟩
      change (joining ((s.process id).threads.filter (some · ≠ caller))).Fits ((setPaused id false s).2.scene id) caller
      rw [hscene]
      refine ⟨h, fun th hth hne => .inl (List.mem_filter.2 ⟨hth, decide_eq_true hne⟩)⟩
    | cons th rest =>
      have hscene : (requestTermination th s).2.scene id = s.scene id := scene_requestTermination th s
      refine ⟨.same hscene, ?_⟩
      change (requesting rest).Fits ((requestTermination th s).2.scene id) caller
      rw [hscene]
      exact h
  | joining rest =>
    cases rest with
    | nil =>
      refine ⟨.same rfl, h.1, fun th hth hne => (h.2 th hth hne).resolve_left fun hnil => nomatch hnil⟩
    | cons th rest =>
      unfold advance
      dsimp only
      split
      · next hexited =>
        refine ⟨.same rfl, h.1, fun other hother hne => ?_⟩
        rcases h.2 other hother hne with hin | ho
        · rcases List.mem_cons.1 hin with rfl | hin
          · exact .inr hexited
          · exact .inl hin
        · exact .inr ho
      · exact ⟨.same rfl, h⟩
  | checking =>
    unfold advance
    dsimp only
    split
    · exact ⟨.same rfl, h.1, trivial⟩
    · next hdead =>
      refine ⟨.same rfl, h.1, fun th hth => ?_, h.1⟩
      by_cases hcaller : some th = caller
      · subst hcaller
        simp only [Option.any_some, Bool.and_eq_true, List.contains_iff_mem, decide_eq_true_eq, not_and, Decidable.not_not] at hdead
        exact hdead hth
      · exact h.2 th hth hcaller
  | finishing stage =>
    obtain ⟨hchange, hfits⟩ := FinishStage.advance_spec h.2
    exact ⟨hchange, hchange.onward.not_running h.1, hfits⟩

/-- What touches no thread may be done by the owner of one. -/
theorem Change.of_none {b b' : Bool} (h : Change id none s b t b') (own : Option RecordId) : Change id own s b t b' := by
  cases h with
  | same ht => exact .same ht
  | begun h ht => exact .begun h ht
  | moved hown => cases hown
  | released h hall => exact .released h hall
  | told h ht => exact .told h ht

/-- A thread moves itself on. -/
theorem moveThread_change (id : RecordId) {th : RecordId} (event : ThreadEvent) {state : ThreadState}
    (hnext : (s.thread th).state.next? event = some state) :
    Change id (some th) s false (moveThread th event s).2 false ∧
      ((moveThread th event s).2.scene id).threadState th = state := by
  have hscene := scene_moveThread id th event s
  rw [hnext, Option.getD_some] at hscene
  refine ⟨.moved rfl (fun hexited => ?_) hscene, ?_⟩
  · have hexited : (s.thread th).state = .exited := hexited
    rw [hexited] at hnext
    cases event <;> cases hnext
  · rw [hscene]
    exact if_pos rfl

/-- In a call that has not returned, a thread takes the steps of the call. -/
theorem ThreadStage.advance_calling {stage : CallStage} (h : stage ≠ .finishing .finished) : (calling stage).advance id s th =
    (calling (stage.advance id s (some th)).1, (stage.advance id s (some th)).2) := by
  cases stage with
  | finishing stage =>
    cases stage with
    | finished => exact absurd rfl h
    | _ => rfl
  | _ => rfl

/-- A step of a thread is a change of its own, and leads to a stage at which more is known. -/
theorem ThreadStage.advance_spec (hs : (s.scene id).state ≠ .created) (hth : th ∈ (s.scene id).threads) {stage : ThreadStage}
    (h : stage.Fits (s.scene id) th) :
    Change id (some th) s stage.isTelling (stage.advance id s th).2 (stage.advance id s th).1.isTelling ∧
      (stage.advance id s th).1.Fits ((stage.advance id s th).2.scene id) th := by
  cases stage with
  | entered => exact ⟨.same rfl, h⟩
  | calling stage =>
    obtain ⟨hrunning, hfits⟩ := h
    by_cases hfinished : stage = .finishing .finished
    · subst hfinished
      exact ⟨.same rfl, congrArg ThreadState.isInside hrunning⟩
    · obtain ⟨hchange, hfits⟩ := CallStage.advance_spec hs hfits
      rw [advance_calling hfinished]
      exact ⟨hchange.of_none _, (hchange.onward.others th hth nofun).trans hrunning, hfits⟩
  | ended =>
    have hrunning : (s.thread th).state = .running := h
    exact moveThread_change id .exit (by rw [hrunning]; rfl)
  | exiting =>
    have hexiting : (s.thread th).state = .exiting := h
    obtain ⟨hchange, hexited⟩ := moveThread_change id .finish (by rw [hexiting]; rfl)
    have hthreads := hchange.onward.threads
    exact ⟨hchange, hexited, fun other hother => (congrArg (other ∈ ·) hthreads).mpr hother,
      fun other hother => .inl ((congrArg (other ∈ ·) hthreads).mp hother)⟩
  | looking rest =>
    cases rest with
    | nil => exact ⟨.same rfl, h.1, fun other hother => (h.2.2 other hother).resolve_left fun hnil => nomatch hnil⟩
    | cons other rest =>
      unfold advance
      dsimp only
      split
      · next hexited =>
        refine ⟨.same rfl, h.1, fun o ho => h.2.1 o (List.mem_cons_of_mem _ ho), fun o ho => ?_⟩
        rcases h.2.2 o ho with hin | ho
        · rcases List.mem_cons.1 hin with rfl | hin
          · exact .inr hexited
          · exact .inl hin
        · exact .inr ho
      · exact ⟨.same rfl, h.1, trivial⟩
  | deciding =>
    unfold advance
    dsimp only
    split
    · exact ⟨.same rfl, h⟩
    · next hstate => exact ⟨.same rfl, h.1, h.2, hstate⟩
  | beginning =>
    have hscene := (scene_moveProcess id .beginTermination s).2
    have hchange : Change id (some th) s false (moveProcess id .beginTermination s).2 false ∧
        ((moveProcess id .beginTermination s).2.scene id).state ≠ .running := by
      rw [hscene]
      cases hstate : (s.process id).state
      case created => exact absurd hstate hs
      case running =>
        rw [hstate] at hscene
        exact ⟨.begun hstate hscene, ProcessState.noConfusion⟩
      all_goals
        rw [hstate] at hscene
        exact ⟨.same (hscene.trans (Scene.ext hstate.symm rfl rfl rfl rfl rfl rfl rfl rfl)), ProcessState.noConfusion⟩
    obtain ⟨hchange, hstate⟩ := hchange
    exact ⟨hchange, hchange.onward.exited th hth h.1, hchange.onward.allExited h.2, hstate⟩
  | finishing stage =>
    obtain ⟨hchange, hfits⟩ := FinishStage.advance_spec h.2
    exact ⟨hchange.of_none _, (hchange.onward.others th hth nofun).trans h.1, hfits⟩

/-! ## Who will end the process -/

/-- The call has made the process terminate, and has not released it. -/
def CallStage.willEnd : CallStage → Bool
  | called | finishing .telling | finishing .finished => false
  | requesting _ | joining _ | checking | finishing .releasing => true

/-- The thread has exited, and may release the process. -/
def ThreadStage.willEnd : ThreadStage → Bool
  | entered | calling _ | ended | exiting | finishing .telling | finishing .finished => false
  | looking _ | deciding | beginning | finishing .releasing => true

/-- Whoever is about to release the process leaves it terminated. -/
theorem FinishStage.terminated_of_releasing (hs : (s.scene id).state ≠ .created) (h : releasing.Fits (s.scene id)) :
    ((releasing.advance id s).2.scene id).state = .terminated := by
  unfold advance
  rcases release_cases id s with ⟨-, hrun⟩ | ⟨hstate, hrun⟩ <;> rw [hrun]
  · change ((afterRelease id s).scene id).state = _
    rw [afterRelease, scene_release]
    rfl
  · change (s.process id).state ≠ _ at hs
    have hrunning : (s.process id).state ≠ .running := h.2
    change (s.process id).state = _
    cases hp : (s.process id).state
    case terminated => rfl
    case created => exact absurd hp hs
    case running => exact absurd hp hrunning
    case terminating => exact absurd hp hstate

/-- A call from outside does nothing to the scene, or will release the process, or finds it released. -/
theorem CallStage.advance_ends (hs : (s.scene id).state ≠ .created) {stage : CallStage} (h : stage.Fits (s.scene id) none) :
    (stage.advance id s none).1.willEnd = true ∨ ((stage.advance id s none).2.scene id).state = .terminated ∨
      stage.willEnd = false ∧ (stage.advance id s none).2.scene id = s.scene id := by
  cases stage with
  | called =>
    unfold advance
    rcases beginEnding_cases id s with ⟨hstate, t, hrun, ht⟩ | ⟨hstate, hrun⟩ <;> rw [hrun]
    · exact .inl rfl
    · exact .inr (.inr ⟨rfl, rfl⟩)
  | requesting rest => cases rest <;> exact .inl rfl
  | joining rest =>
    cases rest with
    | nil => exact .inl rfl
    | cons th rest =>
      unfold advance
      dsimp only
      split <;> exact .inl rfl
  | checking => exact .inl rfl
  | finishing stage =>
    cases stage with
    | releasing => exact .inr (.inl (FinishStage.terminated_of_releasing hs h.2))
    | telling => exact .inr (.inl ((FinishStage.advance_spec h.2).1.onward.terminated h.2.2))
    | finished => exact .inr (.inr ⟨rfl, rfl⟩)

/-- A thread that takes a step has not exited, or may release the process, or finds it released or a thread that has not exited. -/
theorem ThreadStage.advance_ends (hs : (s.scene id).state ≠ .created) (hth : th ∈ (s.scene id).threads) {stage : ThreadStage}
    (h : stage.Fits (s.scene id) th) :
    (stage.advance id s th).1.willEnd = true ∨ ((stage.advance id s th).2.scene id).state = .terminated ∨
      ¬ ((stage.advance id s th).2.scene id).AllExited ∨
      stage.willEnd = false ∧ (stage.advance id s th).2.scene id = s.scene id := by
  obtain ⟨hchange, hfits⟩ := advance_spec hs hth h
  have hthreads := hchange.onward.threads
  have halive {state : ThreadState} (hstate : ((stage.advance id s th).2.scene id).threadState th = state) (hne : state ≠ .exited) :
      ¬ ((stage.advance id s th).2.scene id).AllExited := fun hall => hne (hstate.symm.trans (hall th (hthreads ▸ hth)))
  cases stage with
  | entered => exact .inr (.inr (.inr ⟨rfl, rfl⟩))
  | calling stage =>
    by_cases hfinished : stage = .finishing .finished
    · subst hfinished
      exact .inr (.inr (.inr ⟨rfl, rfl⟩))
    · rw [advance_calling hfinished] at hfits halive ⊢
      exact .inr (.inr (.inl (halive hfits.1 ThreadState.noConfusion)))
  | ended => exact .inr (.inr (.inl (halive hfits ThreadState.noConfusion)))
  | exiting => exact .inl rfl
  | looking rest =>
    cases rest with
    | nil => exact .inl rfl
    | cons other rest =>
      unfold advance
      dsimp only
      split
      · exact .inl rfl
      · next hother => exact .inr (.inr (.inl fun hall => hother (hall other (h.2.1 other List.mem_cons_self))))
  | deciding =>
    unfold advance
    dsimp only
    split <;> exact .inl rfl
  | beginning => exact .inl rfl
  | finishing stage =>
    cases stage with
    | releasing => exact .inr (.inl (FinishStage.terminated_of_releasing hs h.2))
    | telling => exact .inr (.inl (hchange.onward.terminated h.2.2))
    | finished => exact .inr (.inr (.inr ⟨rfl, rfl⟩))

/-! ## Parties -/

namespace Party

/-- The thread that the party is. -/
def thread? : Party → Option RecordId
  | outside _ => none
  | thread th _ => some th

def Fits (x : Scene) : Party → Prop
  | outside stage => stage.Fits x none
  | thread th stage => stage.Fits x th

def isTelling : Party → Bool
  | outside stage => stage.isTelling
  | thread _ stage => stage.isTelling

def willEnd : Party → Bool
  | outside stage => stage.willEnd
  | thread _ stage => stage.willEnd

/-- What a party knows stays true while others take their steps. -/
theorem Fits.onward {p : Party} (h : p.Fits x) (ho : Onward own x y) (hp : ∀ th, p.thread? = some th → th ∈ x.threads ∧ some th ≠ own) :
    p.Fits y := by
  cases p with
  | outside stage => exact CallStage.Fits.onward h ho
  | thread th stage =>
    obtain ⟨hth, hne⟩ := hp th rfl
    exact ThreadStage.Fits.onward h ho hth hne

/-- A party stays the thread that it is. -/
theorem thread?_advance (p : Party) : (p.advance id s).1.thread? = p.thread? := by
  cases p <;> rfl

/-- A step of a party changes the machine in one of the ways, and leads to a stage at which what is known is true. -/
theorem advance_spec (hs : (s.scene id).state ≠ .created) {p : Party} (hth : ∀ th, p.thread? = some th → th ∈ (s.scene id).threads)
    (h : p.Fits (s.scene id)) :
    Change id p.thread? s p.isTelling (p.advance id s).2 (p.advance id s).1.isTelling ∧
      (p.advance id s).1.Fits ((p.advance id s).2.scene id) := by
  cases p with
  | outside stage => exact CallStage.advance_spec hs h
  | thread th stage => exact ThreadStage.advance_spec hs (hth th rfl) h

/-- Behind a step the party may release the process, or finds it released or a thread that has not exited; or nothing has changed. -/
theorem advance_ends (hs : (s.scene id).state ≠ .created) {p : Party} (hth : ∀ th, p.thread? = some th → th ∈ (s.scene id).threads)
    (h : p.Fits (s.scene id)) : (p.advance id s).1.willEnd = true ∨ ((p.advance id s).2.scene id).state = .terminated ∨
      ¬ ((p.advance id s).2.scene id).AllExited ∨ p.willEnd = false ∧ (p.advance id s).2.scene id = s.scene id := by
  cases p with
  | outside stage => exact (CallStage.advance_ends hs h).imp_right (Or.imp_right .inr)
  | thread th stage => exact ThreadStage.advance_ends hs (hth th rfl) h

end Party

end Machine

end Microkernel
