import Mathlib.Logic.Function.Iterate
import Microkernel.Proofs.Machine.Acquisitions

/-!
# Waits and signals that nobody disturbs

The atomic steps of a call, taken without a step of anybody else in between, do to a machine what the call does as one action: a
wait up to the point where it blocks (`begin_alone`), from a wake-up on (`resume_alone`) and from the end of its time on
(`expire_alone`), a signal (`signal_alone`) and a request to exit (`askToExit_alone`).
-/

namespace Microkernel.Machine

/-! ## What the loops do -/

/-- A program that begins with a change of the machine. -/
theorem run_modify_bind {β : Type} (change : Machine → Machine) (f : PUnit → Action β) (s : Machine) :
    (modify change >>= f : Action β).run s = (f ⟨⟩).run (change s) := rfl

section

variable (s : Machine) (p : ParkerId) (index : Nat) (event : RecordId) (rest : List RecordId)

/-- A poll looks at the first event, and goes on if it is clear. -/
theorem pollFrom_cons : pollFrom index (.event event :: rest.map .event) s =
    if (s.event event).signaled then (some index, (tryAcquire (.event event) s).2)
    else pollFrom (index + 1) (rest.map .event) (tryAcquire (.event event) s).2 := by
  rw [pollFrom, Update.run_bind, tryAcquire_run]
  cases (s.event event).signaled <;> rfl

/-- Registering with all is registering with one after the other. -/
theorem registerAll_run (objects : List Waitable) :
    registerAll p objects s = (⟨⟩, objects.foldl (fun s object => (register p object s).2) s) := by
  rw [registerAll]
  exact Update.run_forIn (register p) objects s

/-- Leaving all is leaving one after the other. -/
theorem unregisterAll_run (objects : List Waitable) :
    unregisterAll p objects s = (⟨⟩, objects.foldl (fun s object => (unregister p object s).2) s) := by
  rw [unregisterAll]
  exact Update.run_forIn (unregister p) objects s

/-- Looks and registrations ask no thread to exit. -/
theorem exit_pollFrom : isUp (pollFrom index (rest.map .event) s).2 (.exit p) = isUp s (.exit p) := by
  induction rest generalizing index s with
  | nil => rfl
  | cons event rest ih =>
    rw [List.map_cons, pollFrom_cons]
    split
    · rfl
    · exact ih _ _

/-- Whether a thread was asked to exit does not depend on wait lists. -/
theorem exit_registerAll (q : ParkerId) : isUp (registerAll q (rest.map .event) s).2 (.exit p) = isUp s (.exit p) := by
  rw [registerAll_run]
  induction rest generalizing s with
  | nil => rfl
  | cons event rest ih => exact ih _

end

/-- What a wait does each time that it stands on all wait lists and has no wake-up left. -/
def recheck (p : ParkerId) (cancelled : Bool) (objects : List Waitable) (s : Machine) :
    Except KernelError (Option Nat) × Machine :=
  if cancelled then (.error .terminationRequested, (unregisterAll p objects s).2)
  else match poll objects s with
    | (some index, s) => (.ok (some index), (unregisterAll p objects s).2)
    | (none, s) => (.ok none, s)

/-- A wait that begins registers, looks, and blocks unless something ends it. -/
theorem beginWait_run (p : ParkerId) (cancelled : Bool) (objects : List Waitable) (timeout : Timeout) (s : Machine) :
    (beginWait p cancelled objects timeout).run s =
      if maxWaitObjects < objects.length then (.error .maximumExceeded, s)
      else if cancelled then (.error .terminationRequested, s)
      else match poll objects s with
        | (some index, s) => (.ok (some index), s)
        | (none, s) =>
          if timeout = .immediate then (.error .timedOut, s)
          else recheck p false objects (registerAll p objects s).2 := by
  unfold beginWait
  by_cases hlong : maxWaitObjects < objects.length
  · rw [if_pos hlong, if_pos hlong]
    rfl
  rw [if_neg hlong, if_neg hlong]
  cases cancelled with
  | true => rfl
  | false =>
    refine (Action.run_lift_bind (poll objects) _ s).trans ?_
    rcases poll objects s with ⟨_ | index, t⟩
    · by_cases htime : timeout = .immediate
      · subst htime
        rfl
      · dsimp only
        rw [if_neg htime, if_neg htime, Action.run_lift_bind, Action.run_lift_bind, recheck, if_neg nofun]
        rcases poll objects (registerAll p objects t).2 with ⟨_ | index, u⟩ <;> rfl
    · rfl

/-- A wait that is woken takes the wake-up and looks again. -/
theorem resumeWait_run (p : ParkerId) (cancelled : Bool) (objects : List Waitable) (s : Machine) :
    (resumeWait p cancelled objects).run s = recheck p cancelled objects { s with wakeUps := s.wakeUps.take p } := by
  cases cancelled with
  | true => rfl
  | false =>
    unfold resumeWait
    rw [run_modify_bind, if_neg nofun, Action.run_lift_bind, recheck, if_neg nofun]
    rcases poll objects { s with wakeUps := s.wakeUps.take p } with ⟨_ | index, t⟩ <;> rfl

/-- A wait whose time is over looks a last time before it leaves. -/
theorem expireWait_run (p : ParkerId) (objects : List Waitable) (s : Machine) : (expireWait p objects).run s =
    match poll objects s with
    | (some index, s) => (.ok index, (unregisterAll p objects s).2)
    | (none, s) => (.error .timedOut, (unregisterAll p objects s).2) := by
  rw [expireWait, Action.run_lift_bind, Action.run_lift_bind]
  rcases poll objects s with ⟨_ | index, t⟩ <;> rfl

namespace Traffic

variable {s t : Machine} {x y : Traffic} {p : ParkerId} {w v : WaitCall} {objects : List RecordId} {timeout : Timeout}

/-! ## Steps of one wait -/

/-- A machine on which a parker waits, and nobody holds a wait list. -/
structure At (x : Traffic) (p : ParkerId) (s : Machine) (w : WaitCall) : Prop where
  machine : x.machine = s
  wait : x.waits p = some w
  free : ∀ event, x.isLocked event = false

/-- Steps of one wait alone lead from one point to another. -/
def Alone (p : ParkerId) (a b : Machine × WaitCall) : Prop :=
  ∀ x, At x p a.1 a.2 → ∃ n, At ((fun y => y.step (.proceed p))^[n] x) p b.1 b.2

/-- A wait that is set where nobody holds a list stands there. -/
theorem At.setWait (hmachine : x.machine = s) (hfree : ∀ event, x.isLocked event = false) : At (x.setWait p w) p s w :=
  ⟨hmachine, Function.update_self .., hfree⟩

namespace Alone

variable {a b c : Machine × WaitCall}

/-- No step leads nowhere. -/
theorem refl : Alone p a a := fun _ h => ⟨0, h⟩

/-- Steps in a row lead from the first point to the last. -/
theorem trans (hab : Alone p a b) (hbc : Alone p b c) : Alone p a c := by
  intro x hx
  obtain ⟨n, hn⟩ := hab x hx
  obtain ⟨m, hm⟩ := hbc _ hn
  refine ⟨m + n, ?_⟩
  rwa [Function.iterate_add_apply]

/-- One step leads where it leads. -/
theorem proceed (h : ∀ x, At x p a.1 a.2 → At (x.proceed p a.2) p b.1 b.2) : Alone p a b := by
  intro x hx
  refine ⟨1, ?_⟩
  rw [Function.iterate_one, Traffic.step, hx.wait]
  exact h x hx

end Alone

/-- Where the wait is that answers so. -/
def stageOf : Except KernelError (Option Nat) → WaitStage
  | .ok (some index) => .ended (.ok index)
  | .ok none => .parking
  | .error e => .ended (.error e)

/-! ### Loops -/

/-- A flag that is lowered locks no list. -/
theorem isLocked_lower (x : Traffic) (flag : Flag) (event : RecordId) : (x.lower flag).isLocked event = x.isLocked event := by
  have hlower (n : Notice) : ((n.lower flag).flag = .event event && (n.lower flag).isDelivering) =
      (n.flag = .event event && n.isDelivering) := by
    unfold Notice.lower
    split <;> rfl
  unfold isLocked Traffic.lower
  dsimp only
  split
  · rfl
  · rw [List.any_map]
    exact congrArg x.notices.any (funext hlower)

/-- What is left of the objects behind a place. -/
theorem drop_eq_cons {α : Type} {l rest : List α} {a : α} {next : Nat} (h : l.drop next = a :: rest) :
    l[next]? = some a ∧ l.drop (next + 1) = rest := by
  refine ⟨?_, ?_⟩
  · rw [← List.head?_drop, h, List.head?_cons]
  · rw [← List.drop_drop, h]
    rfl

/-- Behind the end of a list there is nothing. -/
theorem getElem?_of_drop {α : Type} {l : List α} {next : Nat} (h : l.drop next = []) : l[next]? = none := by
  rw [← List.head?_drop, h, List.head?_nil]

variable (p objects timeout) in
/-- The looks of one round, from some object on. -/
theorem look_alone (round : Round) (rest : List RecordId) (s : Machine) (next : Nat) (h : objects.drop next = rest) :
    Alone p (s, ⟨objects, timeout, .looking round next⟩) ((pollFrom next (rest.map .event) s).2,
      let w : WaitCall := ⟨objects, timeout, .looking round next⟩
      match (pollFrom next (rest.map .event) s).1 with
      | some index => w.found round index
      | none => w.foundNone round) := by
  induction rest generalizing s next with
  | nil =>
    refine .proceed fun x hx => ?_
    rw [Traffic.proceed]
    dsimp only
    rw [getElem?_of_drop h]
    exact .setWait hx.machine hx.free
  | cons event rest ih =>
    obtain ⟨hsome, hrest⟩ := drop_eq_cons h
    have hnext : Alone p (s, ⟨objects, timeout, .looking round next⟩) ((tryAcquire (.event event) s).2,
        if (s.event event).signaled then WaitCall.found ⟨objects, timeout, .looking round next⟩ round next
        else ⟨objects, timeout, .looking round (next + 1)⟩) := by
      refine .proceed fun x hx => ?_
      rw [proceed_look x p rfl hsome, hx.machine]
      refine .setWait ?_ fun event' => (isLocked_lower _ _ _).trans (hx.free event')
      exact congrArg (fun s => (tryAcquire (.event event) s).2) hx.machine
    refine hnext.trans ?_
    rw [List.map_cons, pollFrom_cons]
    split
    · exact .refl
    · exact ih _ (next + 1) hrest

/-- A loop over the objects that needs their wait lists, from some object on. -/
theorem loop_alone (stage : Nat → WaitStage) {final : WaitStage} {body : RecordId → Update Unit}
    (hend : ∀ (x : Traffic) next, objects[next]? = none →
      x.proceed p ⟨objects, timeout, stage next⟩ = x.setWait p ⟨objects, timeout, final⟩)
    (hbody : ∀ (x : Traffic) next event, objects[next]? = some event → x.isLocked event = false →
      x.proceed p ⟨objects, timeout, stage next⟩ = (x.run (body event)).setWait p ⟨objects, timeout, stage (next + 1)⟩)
    (rest : List RecordId) (s : Machine) (next : Nat) (h : objects.drop next = rest) :
    Alone p (s, ⟨objects, timeout, stage next⟩) (rest.foldl (fun s event => (body event s).2) s, ⟨objects, timeout, final⟩) := by
  induction rest generalizing s next with
  | nil =>
    refine .proceed fun x hx => ?_
    rw [hend x next (getElem?_of_drop h)]
    exact .setWait hx.machine hx.free
  | cons event rest ih =>
    obtain ⟨hsome, hrest⟩ := drop_eq_cons h
    refine .trans (.proceed fun x hx => ?_) (ih (body event s).2 (next + 1) hrest)
    rw [hbody x next event hsome (hx.free event)]
    exact .setWait (congrArg (fun s => (body event s).2) hx.machine) hx.free

/-- The steps of registering, alone, register with all events. -/
theorem register_alone (s : Machine) : Alone p (s, ⟨objects, timeout, .registering 0⟩)
    ((registerAll p (objects.map .event) s).2, ⟨objects, timeout, .checking⟩) := by
  rw [registerAll_run, List.foldl_map]
  refine loop_alone .registering (fun x next hnone => ?_) (fun x next event hsome hfree => ?_) objects s 0 rfl
  · rw [Traffic.proceed]
    dsimp only
    rw [hnone]
  · rw [Traffic.proceed]
    dsimp only
    rw [hsome]
    exact if_neg (Bool.eq_false_iff.1 hfree)

/-- The steps of leaving, alone, leave all events. -/
theorem leave_alone (result : Except KernelError Nat) (s : Machine) : Alone p (s, ⟨objects, timeout, .leaving 0 result⟩)
    ((unregisterAll p (objects.map .event) s).2, ⟨objects, timeout, .ended result⟩) := by
  rw [unregisterAll_run, List.foldl_map]
  refine loop_alone (.leaving · result) (fun x next hnone => ?_) (fun x next event hsome hfree => ?_) objects s 0 rfl
  · rw [Traffic.proceed]
    dsimp only
    rw [hnone]
  · rw [Traffic.proceed]
    dsimp only
    rw [hsome]
    exact if_neg (Bool.eq_false_iff.1 hfree)

/-! ### Whole calls -/

variable (p objects timeout) in
/-- What a wait does that stands on all wait lists and has no wake-up left. -/
theorem recheck_alone (s : Machine) : Alone p (s, ⟨objects, timeout, .checking⟩)
    ((recheck p (isUp s (.exit p)) (objects.map .event) s).2,
      ⟨objects, timeout, stageOf (recheck p (isUp s (.exit p)) (objects.map .event) s).1⟩) := by
  have hcheck : Alone p (s, ⟨objects, timeout, .checking⟩) (s, ⟨objects, timeout,
      if isUp s (.exit p) then .leaving 0 (.error .terminationRequested) else .looking .again 0⟩) := by
    refine .proceed fun x hx => ?_
    rw [Traffic.proceed]
    dsimp only
    rw [hx.machine]
    exact .setWait hx.machine hx.free
  refine hcheck.trans ?_
  unfold recheck
  split
  · exact leave_alone _ s
  · have hlook := look_alone p objects timeout .again objects s 0 rfl
    rw [poll]
    rcases hpoll : pollFrom 0 (objects.map .event) s with ⟨_ | index, t⟩
    · rw [hpoll] at hlook
      exact hlook
    · rw [hpoll] at hlook
      exact hlook.trans (leave_alone _ t)

/-- A wait of at most so many objects as are allowed, up to the point where it blocks. -/
theorem enter_alone (s : Machine) (hlength : ¬ maxWaitObjects < objects.length) :
    let result := (beginWait p (isUp s (.exit p)) (objects.map .event) timeout).run s
    Alone p (s, ⟨objects, timeout, .entering⟩) (result.2, ⟨objects, timeout, stageOf result.1⟩) := by
  have henter : Alone p (s, ⟨objects, timeout, .entering⟩) (s, ⟨objects, timeout,
      if isUp s (.exit p) then .ended (.error .terminationRequested) else .looking .first 0⟩) := by
    refine .proceed fun x hx => ?_
    rw [Traffic.proceed]
    dsimp only
    rw [hx.machine]
    exact .setWait hx.machine hx.free
  dsimp only
  refine henter.trans ?_
  rw [beginWait_run, List.length_map, if_neg hlength]
  split
  · exact .refl
  next hexit =>
  have hlook := look_alone p objects timeout .first objects s 0 rfl
  have hstill := exit_pollFrom s p 0 objects
  rw [poll]
  revert hlook hstill
  rcases pollFrom 0 (objects.map .event) s with ⟨_ | index, t⟩ <;> intro hlook hstill
  · refine hlook.trans ?_
    unfold WaitCall.foundNone
    dsimp only
    split
    · exact .refl
    · have hdown : isUp (registerAll p (objects.map .event) t).2 (.exit p) = false := by
        rw [exit_registerAll, hstill, Bool.eq_false_iff.2 hexit]
      refine (register_alone t).trans ?_
      have h := recheck_alone p objects timeout (registerAll p (objects.map .event) t).2
      rwa [hdown] at h
  · exact hlook

/-- A wait that begins, up to the point where it blocks. -/
theorem begin_alone (hidle : (x.waits p).all WaitCall.isOver = true) (hfree : ∀ event, x.isLocked event = false) :
    let result := (beginWait p (isUp x.machine (.exit p)) (objects.map .event) timeout).run x.machine
    ∃ n, At ((fun y => y.step (.proceed p))^[n] (x.step (.begin p objects timeout))) p result.2
      ⟨objects, timeout, stageOf result.1⟩ := by
  have hbegin : At (x.step (.begin p objects timeout)) p x.machine ⟨objects, timeout,
      if maxWaitObjects < objects.length then .ended (.error .maximumExceeded) else .entering⟩ := by
    rw [Traffic.step, if_pos hidle]
    exact .setWait rfl hfree
  split at hbegin
  · next hlength =>
    rw [beginWait_run, List.length_map, if_pos hlength]
    exact ⟨0, hbegin⟩
  · next hlength => exact enter_alone x.machine hlength _ hbegin

/-- A blocked wait, from the wake-up on. -/
theorem resume_alone (s : Machine) (hwake : s.wakeUps.has p = true) :
    let result := (resumeWait p (isUp s (.exit p)) (objects.map .event)).run s
    Alone p (s, ⟨objects, timeout, .parked⟩) (result.2, ⟨objects, timeout, stageOf result.1⟩) := by
  rw [resumeWait_run]
  refine .trans (.proceed fun x hx => ?_) (recheck_alone p objects timeout { s with wakeUps := s.wakeUps.take p })
  rw [Traffic.proceed]
  dsimp only
  rw [Traffic.park, hx.machine, if_pos hwake]
  exact ⟨congrArg (fun s : Machine => { s with wakeUps := s.wakeUps.take p }) hx.machine, Function.update_self .., hx.free⟩

/-- A wait that is blocked or about to block, from the end of its time on. -/
theorem expire_alone (h : At x p s w) (hexpire : w.canExpire = true) (hwake : s.wakeUps.has p = false) :
    let result := (expireWait p (w.objects.map .event)).run s
    ∃ n, At ((fun y => y.step (.proceed p))^[n] (x.step (.expire p))) p result.2 { w with stage := .ended result.1 } := by
  have hstart : At (x.step (.expire p)) p s { w with stage := .looking .last 0 } := by
    rw [Traffic.step, h.wait]
    dsimp only
    rw [hexpire, h.machine, hwake]
    exact .setWait h.machine h.free
  have hlook := look_alone p w.objects w.timeout .last w.objects s 0 rfl
  rw [expireWait_run, poll]
  revert hlook
  rcases pollFrom 0 (w.objects.map .event) s with ⟨_ | index, t⟩ <;> intro hlook
  · exact hlook.trans (leave_alone _ t) _ hstart
  · exact hlook.trans (leave_alone _ t) _ hstart

/-! ## Signals and requests to exit -/

/-- A call that holds a wait list wakes everybody on it. -/
theorem deliver_alone (number : Nat) (flag : Flag) (current : Bool) (owed : List ParkerId) (x : Traffic)
    (h : x.notices[number]? = some ⟨flag, some owed, current⟩) :
    ((owed.map (.deliver number)).foldl step x).machine = (wake ⟨owed⟩ x.machine).2 := by
  induction owed generalizing x with
  | nil => rfl
  | cons p rest ih =>
    have hstep : x.step (.deliver number p) =
        { x.run (wakeOne p) with notices := x.notices.modify number (Notice.deliver p) } := by
      rw [Traffic.step, Traffic.deliver, h]
      exact if_pos List.mem_cons_self
    rw [List.map_cons, List.foldl_cons, ih _ ?_, hstep]
    · rfl
    · rw [hstep]
      dsimp only
      rw [List.getElem?_modify_eq, h]
      simp [Notice.deliver]

/-- A whole signal. -/
theorem signal_alone (x : Traffic) (event : RecordId) (hfree : x.isLocked event = false) :
    let acts := [.signal event, .takeList x.notices.length] ++
      (x.machine.event event).waiters.parkers.map (TrafficAct.deliver x.notices.length)
    (acts.foldl step x).machine = (signalEvent event x.machine).2 := by
  let new : Notice := { flag := .event event, owed := none }
  let y : Traffic := x.step (.signal event)
  have hnotice : y.notices[x.notices.length]? = some new := List.getElem?_concat_length
  have hunlocked : y.isLocked event = false := by
    change (x.notices ++ [new]).any _ = false
    rw [List.any_append]
    change (x.isLocked event || (decide _ && false || false)) = false
    rw [hfree, Bool.and_false]
    rfl
  have hevent : y.machine.event event = (x.machine.event event).raise := (event_setEvent _ _ _ _).trans (if_pos rfl)
  have htaken : y.step (.takeList x.notices.length) = { y with notices := y.notices.modify x.notices.length fun n =>
      { n with owed := some (x.machine.event event).waiters.parkers } } := by
    rw [Traffic.step, Traffic.takeList, hnotice]
    dsimp only [new]
    rw [hunlocked, hevent]
    rfl
  dsimp only
  rw [List.foldl_append, List.foldl_cons, List.foldl_cons, List.foldl_nil]
  change (List.foldl step (y.step _) _).machine = _
  rw [deliver_alone _ (.event event) true _ _ ?_, htaken]
  · change (wake _ (setEvent _ _ _).2).2 = (wake ((setEvent _ _ _).2.event event).waiters (setEvent _ _ _).2).2
    rw [event_setEvent, if_pos rfl]
    rfl
  · rw [htaken]
    dsimp only
    rw [List.getElem?_modify_eq, hnotice]
    rfl

/-- A whole request to exit. -/
theorem askToExit_alone (x : Traffic) (thread : ParkerId) :
    ([.askToExit thread, .deliver x.notices.length thread].foldl step x).machine = (requestTermination thread x.machine).2 :=
  deliver_alone x.notices.length (.exit thread) true [thread] (x.step (.askToExit thread)) List.getElem?_concat_length

end Traffic

end Microkernel.Machine
