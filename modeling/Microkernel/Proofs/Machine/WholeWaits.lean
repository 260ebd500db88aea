import Microkernel.Machine.GuestThreads
import Microkernel.Proofs.Machine.Handles
import Microkernel.Proofs.Machine.WaitPlaces

/-!
# Waits that nobody disturbs

A whole wait during which nobody else acts: it looks up to three times and may find a wake-up left over from before, yet it acquires
exactly the object that it reports, and whatever it does to the wait lists it undoes (`wait_acquires_reported`). A guest that names
anything that cannot be waited on does not get as far as a look.
-/

namespace Microkernel

namespace Machine

/-- What a blocked wait does with a wake-up left over from before, if its parker holds one. -/
def resumeIfWoken (parker : ParkerId) (cancelled : Bool) (objects : List Waitable) : Action (Option Nat) := do
  if (← get).wakeUps.has parker then resumeWait parker cancelled objects else return none

/-- A whole wait during which nobody else acts; `none` if it never ends. -/
def waitThrough (parker : ParkerId) (cancelled : Bool) (objects : List Waitable) (timeout : Timeout) : Action (Option Nat) := do
  match ← beginWait parker cancelled objects timeout with
  | some index => return some index
  | none =>
    match ← resumeIfWoken parker cancelled objects with
    | some index => return some index
    | none => if timeout = .never then return none else return some (← expireWait parker objects)

/-- What a wait is to answer. -/
def waitOutcome (s : Machine) (cancelled : Bool) (objects : List Waitable) (timeout : Timeout) : Except KernelError (Option Nat) :=
  if maxWaitObjects < objects.length then .error .maximumExceeded
  else if cancelled then .error .terminationRequested
  else match objects.findIdx? s.isSignaled with
    | some index => .ok (some index)
    | none => if timeout = .never then .ok none else .error .timedOut

/-- A wait has returned: it acquired one object or none, and everybody stands on the wait lists as often as before. -/
structure Returned (p : ParkerId) (found : Option Waitable) (s t : Machine) : Prop where
  consumes : Consumes found s t
  queue : ∀ place, (t.queue place).Perm (s.queue place)
  wakeUps : ∀ q, q ≠ p → t.wakeUps.has q = s.wakeUps.has q

/-- What a wait leaves behind: a wait that goes on stands on all wait lists, one that has returned acquired what it reports. -/
def Concludes (p : ParkerId) (objects : List Waitable) (s t : Machine) : Except KernelError (Option Nat) → Prop
  | .ok (some index) => Returned p objects[index]? s t
  | .ok none => Enrolled p (objects.map s.placeOf) s t
  | .error _ => Returned p none s t

variable {p : ParkerId} {objects : List Waitable} {timeout : Timeout} {s t : Machine}

/-- A whole wait begins, goes on with a wake-up that is left over, and otherwise lets its time pass. -/
theorem waitThrough_run (p : ParkerId) (cancelled : Bool) (objects : List Waitable) (timeout : Timeout) (s : Machine) :
    (waitThrough p cancelled objects timeout).run s =
      match (beginWait p cancelled objects timeout).run s with
      | (.ok none, t) =>
        match (resumeIfWoken p cancelled objects).run t with
        | (.ok none, u) =>
          if timeout = .never then (.ok none, u) else (((expireWait p objects).run u).1.map some, ((expireWait p objects).run u).2)
        | ended => ended
      | ended => ended := by
  rw [waitThrough, Action.run_bind]
  rcases (beginWait p cancelled objects timeout).run s with ⟨e | _ | index, t⟩
  · rfl
  · dsimp only
    rw [Action.run_bind]
    rcases (resumeIfWoken p cancelled objects).run t with ⟨e | _ | index, u⟩
    · rfl
    · dsimp only
      split
      · rfl
      · rw [Action.run_bind]
        rcases (expireWait p objects).run u with ⟨e | index, v⟩ <;> rfl
    · rfl
  · rfl

namespace Returned

/-- A wait that does nothing has acquired nothing. -/
theorem refl (s : Machine) : Returned p none s s := ⟨.refl s, fun _ => .refl _, fun _ _ => rfl⟩

/-- A wait that only looks has acquired what it found. -/
theorem of_looks {found : Option Waitable} (h : Looks found s t) : Returned p found s t :=
  ⟨h.consumes, fun place => .of_eq (h.queue place), fun _ _ => by rw [h.wakeUps]⟩

/-- A wait that has left all lists without a find has acquired nothing. -/
theorem of_enrolled (h : Enrolled p [] s t) : Returned p none s t := by
  refine ⟨h.consumes, fun place => ?_, h.wakeUps⟩
  have hq := h.queue place
  rwa [List.count_nil, List.replicate_zero, List.append_nil] at hq

end Returned

/-! ## The parts of a wait that finds nothing -/

section

variable (hnone : objects.findIdx? s.isSignaled = none)

include hnone

/-- As long as nobody else acts, a wait that found nothing finds nothing. -/
theorem Enrolled.poll (h : Enrolled p (objects.map s.placeOf) s t) :
    ∃ u, Machine.poll objects t = (none, u) ∧ Enrolled p (objects.map s.placeOf) s u := by
  obtain ⟨u, hpoll, hlooks⟩ := poll_looks objects t
  have hsame : t.isSignaled = s.isSignaled := funext h.consumes.isSignaled_eq
  rw [hsame] at hpoll hlooks
  rw [hnone] at hpoll
  rw [List.find?_eq_bind_findIdx?_getElem?, hnone] at hlooks
  exact ⟨u, hpoll, h.looks hlooks⟩

/-- A second look, where nothing has happened, finds nothing either. -/
theorem Enrolled.recheck (h : Enrolled p (objects.map s.placeOf) s t) :
    ∃ u, Machine.recheck p false objects t = (.ok none, u) ∧ Enrolled p (objects.map s.placeOf) s u := by
  obtain ⟨u, hpoll, hu⟩ := h.poll hnone
  exact ⟨u, by rw [Machine.recheck, if_neg Bool.false_ne_true, hpoll], hu⟩

/-- A wait that is woken though nothing is signaled blocks again. -/
theorem Enrolled.resume (h : Enrolled p (objects.map s.placeOf) s t) :
    ∃ u, (resumeWait p false objects).run t = (.ok none, u) ∧ Enrolled p (objects.map s.placeOf) s u := by
  rw [resumeWait_run]
  exact h.take.recheck hnone

/-- A wait whose time is over looks a last time and leaves the wait lists. -/
theorem Enrolled.expire (h : Enrolled p (objects.map s.placeOf) s t) :
    ∃ u, (expireWait p objects).run t = (.error .timedOut, u) ∧ Returned p none s u := by
  obtain ⟨u, hpoll, hu⟩ := h.poll hnone
  rw [expireWait_run, hpoll]
  exact ⟨_, rfl, .of_enrolled hu.unregisterAll⟩

/-- Whether or not there is a wake-up left over, a wait that stands on all wait lists goes on standing there. -/
theorem Enrolled.resumed (h : Enrolled p (objects.map s.placeOf) s t) :
    ∃ u, (resumeIfWoken p false objects).run t = (.ok none, u) ∧ Enrolled p (objects.map s.placeOf) s u := by
  rw [resumeIfWoken, Action.run_look]
  split
  · exact h.resume hnone
  · exact ⟨t, rfl, h⟩

end

/-! ## Whole waits -/

/-- A wait that begins is over at once, or nothing is signaled and it blocks, standing on all wait lists. -/
theorem beginWait_cases (p : ParkerId) (cancelled : Bool) (objects : List Waitable) (timeout : Timeout) (s : Machine) :
    let outcome := waitOutcome s cancelled objects timeout
    (∃ t, (beginWait p cancelled objects timeout).run s = (outcome, t) ∧ outcome ≠ .ok none ∧ Concludes p objects s t outcome ∧
      (maxWaitObjects < objects.length ∨ cancelled = true → t = s)) ∨
    ∃ t, (beginWait p cancelled objects timeout).run s = (.ok none, t) ∧
      outcome = (if timeout = .never then .ok none else .error .timedOut) ∧ objects.findIdx? s.isSignaled = none ∧
      cancelled = false ∧ ¬ maxWaitObjects < objects.length ∧ Enrolled p (objects.map s.placeOf) s t := by
  intro outcome
  rw [beginWait_run]
  by_cases hlength : maxWaitObjects < objects.length
  · have houtcome : outcome = .error .maximumExceeded := if_pos hlength
    rw [if_pos hlength, houtcome]
    exact .inl ⟨s, rfl, nofun, .refl s, fun _ => rfl⟩
  cases cancelled with
  | true =>
    have houtcome : outcome = .error .terminationRequested := (if_neg hlength).trans (if_pos rfl)
    rw [if_neg hlength, if_pos rfl, houtcome]
    exact .inl ⟨s, rfl, nofun, .refl s, fun _ => rfl⟩
  | false =>
    have houtcome : outcome = match objects.findIdx? s.isSignaled with
      | some index => .ok (some index)
      | none => if timeout = .never then .ok none else .error .timedOut := (if_neg hlength).trans (if_neg Bool.false_ne_true)
    obtain ⟨t, hpoll, hlooks⟩ := poll_looks objects s
    rw [List.find?_eq_bind_findIdx?_getElem?] at hlooks
    have hlast : ¬ (maxWaitObjects < objects.length ∨ false = true) := by simp [hlength]
    rw [if_neg hlength, if_neg Bool.false_ne_true, hpoll, houtcome]
    cases hfound : objects.findIdx? s.isSignaled with
    | some index =>
      rw [hfound] at hlooks
      exact .inl ⟨t, rfl, nofun, .of_looks hlooks, fun h => absurd h hlast⟩
    | none =>
      rw [hfound] at hlooks
      dsimp only
      by_cases htime : timeout = .immediate
      · subst htime
        exact .inl ⟨t, rfl, nofun, .of_looks hlooks, fun h => absurd h hlast⟩
      · have henrolled := (Enrolled.of_looks (p := p) hlooks).registerAll objects
        rw [List.append_nil] at henrolled
        obtain ⟨u, hrecheck, hu⟩ := henrolled.recheck hfound
        rw [if_neg htime, hrecheck]
        exact .inr ⟨u, rfl, rfl, rfl, rfl, hlength, hu⟩

/-- A wait that begins, goes on and ends, while nobody else acts. -/
theorem waitThrough_concludes (p : ParkerId) (cancelled : Bool) (objects : List Waitable) (timeout : Timeout) (s : Machine) :
    ∃ t, (waitThrough p cancelled objects timeout).run s = (waitOutcome s cancelled objects timeout, t) ∧
      Concludes p objects s t (waitOutcome s cancelled objects timeout) ∧
      (maxWaitObjects < objects.length ∨ cancelled = true → t = s) := by
  rw [waitThrough_run]
  obtain ⟨t, hbegin, hover, hconcludes, hstill⟩ | ⟨t, hbegin, houtcome, hnone, rfl, hlength, ht⟩ :=
    beginWait_cases p cancelled objects timeout s
  · rw [hbegin]
    revert hover hconcludes
    rcases waitOutcome s cancelled objects timeout with e | _ | index <;> intro hover hconcludes
    · exact ⟨t, rfl, hconcludes, hstill⟩
    · exact absurd rfl hover
    · exact ⟨t, rfl, hconcludes, hstill⟩
  · obtain ⟨u, hresumed, hu⟩ := ht.resumed hnone
    have hlast : ¬ (maxWaitObjects < objects.length ∨ false = true) := by simp [hlength]
    rw [hbegin, houtcome]
    dsimp only
    rw [hresumed]
    dsimp only
    split
    · exact ⟨u, rfl, hu, fun h => absurd h hlast⟩
    · obtain ⟨v, hexpire, hv⟩ := hu.expire hnone
      rw [hexpire]
      exact ⟨v, rfl, hv, fun h => absurd h hlast⟩

/-- A wait that is carried out as one action does the same, as far as it ends. -/
theorem waitAlone_concludes (p : ParkerId) (cancelled : Bool) (objects : List Waitable) (htime : timeout ≠ .never) (s : Machine) :
    ∃ answer t, (waitAlone p cancelled objects timeout).run s = (answer, t) ∧
      answer.map some = waitOutcome s cancelled objects timeout ∧ Concludes p objects s t (answer.map some) := by
  rw [waitAlone, Action.run_bind]
  obtain ⟨t, hbegin, hover, hconcludes, -⟩ | ⟨t, hbegin, houtcome, hnone, rfl, -, ht⟩ :=
    beginWait_cases p cancelled objects timeout s
  · rw [hbegin]
    revert hover hconcludes
    rcases waitOutcome s cancelled objects timeout with e | _ | index <;> intro hover hconcludes
    · exact ⟨.error e, t, rfl, rfl, hconcludes⟩
    · exact absurd rfl hover
    · exact ⟨.ok index, t, rfl, rfl, hconcludes⟩
  · obtain ⟨u, hexpire, hu⟩ := ht.expire hnone
    rw [hbegin, houtcome, if_neg htime]
    exact ⟨.error .timedOut, u, hexpire, rfl, hu⟩

/-! ## Waiting on handles -/

section

variable {ε α β : Type} {g : α → Except ε β} {l : List α} {a : α} {bs : List β} {e : ε}

/-- A list is gone through item by item, up to the first failure. -/
theorem mapM_cons_eq (g : α → Except ε β) (a : α) (l : List α) : (a :: l).mapM g =
    match g a with
    | .error e => .error e
    | .ok b => (l.mapM g).map (b :: ·) := by
  rw [List.mapM_cons]
  cases g a with
  | error e => rfl
  | ok b => cases l.mapM g <;> rfl

/-- What stops a walk over a list is one of its members. -/
theorem exists_mem_of_mapM_error (h : l.mapM g = .error e) : ∃ a ∈ l, g a = .error e := by
  induction l with
  | nil => cases h
  | cons a rest ih =>
    rw [mapM_cons_eq] at h
    cases ha : g a with
    | error e' =>
      rw [ha] at h
      cases h
      exact ⟨a, List.mem_cons_self, ha⟩
    | ok b =>
      rw [ha] at h
      cases hrest : rest.mapM g with
      | error e' =>
        rw [hrest] at h
        cases h
        obtain ⟨a', hmem, ha'⟩ := ih hrest
        exact ⟨a', List.mem_cons_of_mem _ hmem, ha'⟩
      | ok bs =>
        rw [hrest] at h
        cases h

/-- A walk that is not stopped takes a value from every member. -/
theorem mapM_ok_zip (h : l.mapM g = .ok bs) :
    (∀ a ∈ l, ∃ b, (b, a) ∈ bs.zip l) ∧ ∀ pair ∈ bs.zip l, g pair.2 = .ok pair.1 := by
  induction l generalizing bs with
  | nil =>
    cases h
    exact ⟨nofun, nofun⟩
  | cons a rest ih =>
    rw [mapM_cons_eq] at h
    cases ha : g a with
    | error e' =>
      rw [ha] at h
      cases h
    | ok b =>
      rw [ha] at h
      cases hrest : rest.mapM g with
      | error e' =>
        rw [hrest] at h
        cases h
      | ok bs' =>
        rw [hrest] at h
        cases h
        obtain ⟨hall, hpairs⟩ := ih hrest
        rw [List.zip_cons_cons]
        refine ⟨List.forall_mem_cons.2 ⟨⟨b, List.mem_cons_self⟩, fun a' ha' => ?_⟩, List.forall_mem_cons.2 ⟨ha, hpairs⟩⟩
        exact (hall a' ha').imp fun _ => List.mem_cons_of_mem _

/-- A list is gone through to its end if no item fails. -/
theorem mapM_ok {f : α → β} (h : ∀ a ∈ l, g a = .ok (f a)) : l.mapM g = .ok (l.map f) := by
  induction l with
  | nil => rfl
  | cons a rest ih =>
    rw [mapM_cons_eq, h a List.mem_cons_self, ih fun a ha => h a (List.mem_cons_of_mem _ ha)]
    rfl

/-- A walk of programs that only look is a walk over what they see. -/
theorem run_mapM_still {f : α → Action β} {g : α → Except KernelError β} (hf : ∀ a, (f a).run s = (g a, s)) (l : List α) :
    (l.mapM f).run s = (l.mapM g, s) := by
  induction l with
  | nil => rfl
  | cons a rest ih =>
    rw [List.mapM_cons, Action.run_bind, hf, mapM_cons_eq]
    cases g a with
    | error e => rfl
    | ok b =>
      dsimp only
      rw [Action.run_bind, ih]
      cases rest.mapM g <;> rfl

end

/-- What a handle names for a thread. -/
def named? (s : Machine) (thread : RecordId) (handle : Handle) : Option KernelObject :=
  if handle = .currentProcess then some (.process (s.thread thread).process)
  else if handle = .currentThread then some (.thread thread)
  else (s.table (s.thread thread).process).resolve handle

/-- What a thread can wait on by a handle: nothing where the handle names nothing, or nothing of that kind. -/
def waitableAt? (s : Machine) (thread : RecordId) (handle : Handle) : Option Waitable :=
  (s.named? thread handle).bind KernelObject.waitable?

/-- What was found behind a handle, or the error for a handle that does not name what it should. -/
def orRefuse {α : Type} (found : Option α) (handle : Handle) : Except KernelError α :=
  match found with
  | some a => .ok a
  | none => .error (.invalidHandle handle.raw.toNat)

section

variable {α : Type} {found : Option α} {handle : Handle} {a : α} {e : KernelError}

/-- What is found is what a handle names. -/
theorem orRefuse_eq_ok_iff : orRefuse found handle = .ok a ↔ found = some a := by
  cases found <;> simp [orRefuse]

/-- A handle that names nothing of the kind is refused by its value. -/
theorem orRefuse_eq_error_iff : orRefuse found handle = .error e ↔ found = none ∧ e = .invalidHandle handle.raw.toNat := by
  cases found <;> simp [orRefuse, eq_comm]

end

/-- A handle is looked up, or refused, and nothing changes. -/
theorem resolveFor_run (s : Machine) (thread : RecordId) (handle : Handle) :
    (resolveFor thread handle).run s = (orRefuse (s.named? thread handle) handle, s) := by
  rw [resolveFor, Action.run_look, named?]
  dsimp only
  split
  · rfl
  · split
    · rfl
    · rw [resolveHandle_run]
      cases (s.table (s.thread thread).process).resolve handle <;> rfl

/-- What the handles of a wait lead to: all are resolved before any is looked at. -/
def waitablesIn (s : Machine) (thread : RecordId) (handles : List Handle) : Except KernelError (List Waitable) := do
  let objects ← handles.mapM fun handle => orRefuse (s.named? thread handle) handle
  (objects.zip handles).mapM fun pair => orRefuse pair.1.waitable? pair.2

/-- The handles of a wait are looked up, or the first bad one is refused, and nothing changes. -/
theorem waitablesFor_run (s : Machine) (thread : RecordId) (handles : List Handle) :
    (waitablesFor thread handles).run s = (s.waitablesIn thread handles, s) := by
  rw [waitablesFor, waitablesIn, Action.run_bind, run_mapM_still (resolveFor_run s thread)]
  cases handles.mapM fun handle => orRefuse (s.named? thread handle) handle with
  | error e => rfl
  | ok objects =>
    refine run_mapM_still (fun pair => ?_) _
    obtain ⟨object, handle⟩ := pair
    dsimp only
    cases object.waitable? <;> rfl

variable {thread : RecordId} {handles : List Handle} {handle : Handle}

/-- Every object is resolved by the handle at its place. -/
theorem waitableAt?_of_mem_zip {objects : List KernelObject}
    (h : handles.mapM (fun handle => orRefuse (s.named? thread handle) handle) = .ok objects) {pair : KernelObject × Handle}
    (hp : pair ∈ objects.zip handles) : s.waitableAt? thread pair.2 = pair.1.waitable? := by
  rw [waitableAt?, orRefuse_eq_ok_iff.1 ((mapM_ok_zip h).2 pair hp), Option.bind_some]

/-- One handle that cannot be waited on, wherever it stands, and all are refused. -/
theorem waitablesIn_refused (hmem : handle ∈ handles) (hbad : s.waitableAt? thread handle = none) : ∃ refused ∈ handles,
    s.waitableAt? thread refused = none ∧ s.waitablesIn thread handles = .error (.invalidHandle refused.raw.toNat) := by
  unfold waitablesIn
  cases hobjects : handles.mapM fun handle => orRefuse (s.named? thread handle) handle with
  | error e =>
    obtain ⟨refused, hrefused, he⟩ := exists_mem_of_mapM_error hobjects
    obtain ⟨hnone, rfl⟩ := orRefuse_eq_error_iff.1 he
    exact ⟨refused, hrefused, by rw [waitableAt?, hnone]; rfl, rfl⟩
  | ok objects =>
    change ∃ refused ∈ handles, _ ∧ (objects.zip handles).mapM _ = _
    cases hwaitables : (objects.zip handles).mapM fun pair => orRefuse pair.1.waitable? pair.2 with
    | error e =>
      obtain ⟨pair, hp, he⟩ := exists_mem_of_mapM_error hwaitables
      obtain ⟨hnone, rfl⟩ := orRefuse_eq_error_iff.1 he
      exact ⟨pair.2, (List.of_mem_zip hp).2, (waitableAt?_of_mem_zip hobjects hp).trans hnone, rfl⟩
    | ok waitables =>
      -- the walk would have stopped at the handle
      obtain ⟨object, hpair⟩ := (mapM_ok_zip hobjects).1 handle hmem
      obtain ⟨waitable, hw⟩ := (mapM_ok_zip hwaitables).1 _ hpair
      have hok := orRefuse_eq_ok_iff.1 ((mapM_ok_zip hwaitables).2 _ hw)
      cases hbad.symm.trans ((waitableAt?_of_mem_zip hobjects hpair).trans hok)

/-- Handles that can all be waited on lead to what they name, in order. -/
theorem waitablesIn_accepted {w : Handle → Waitable} (h : ∀ handle ∈ handles, s.waitableAt? thread handle = some (w handle)) :
    s.waitablesIn thread handles = .ok (handles.map w) := by
  have hobjects : handles.mapM (fun handle => orRefuse (s.named? thread handle) handle) =
      .ok (handles.map fun handle => (s.named? thread handle).getD default) := by
    refine mapM_ok fun handle hmem => orRefuse_eq_ok_iff.2 ?_
    obtain ⟨object, hnamed, -⟩ := Option.bind_eq_some_iff.1 (h handle hmem)
    rw [hnamed, Option.getD_some]
  unfold waitablesIn
  rw [hobjects]
  refine (mapM_ok (f := w ∘ Prod.snd) fun pair hp => orRefuse_eq_ok_iff.2 ?_).trans ?_
  · rw [← waitableAt?_of_mem_zip hobjects hp]
    exact h pair.2 (List.of_mem_zip hp).2
  · rw [← List.map_map, List.map_snd_zip (Nat.le_of_eq (List.length_map _).symm)]

/-! ## The whole call -/

/-- The call of a guest that waits refuses too many handles, then bad ones, and then it waits. -/
theorem runCall_wait (thread : RecordId) (handles : List Handle) (nanos : Int) (s : Machine) :
    (runCall thread (.wait handles nanos)).run s =
      if maxWaitObjects < handles.length then (.error .maximumExceeded, s)
      else ((s.waitablesIn thread handles).map fun objects => .wait objects (.ofNanos nanos) .index, s) := by
  rw [runCall, Action.run_look]
  dsimp only
  split
  · rfl
  · rw [Action.run_bind, waitablesFor_run]
    cases s.waitablesIn thread handles <;> rfl

/-- A call that is refused is answered, and that is all. -/
theorem proceed_of_error {call : GuestCall} {e : KernelError} (h : (runCall thread call).run s = (.error e, s)) :
    proceed thread call s = finishCall thread (.error e) s := by
  rw [proceed, Update.run_bind, h]

/-- While nobody else acts, a wait answers what it should: it acquires the object that it reports and nothing else, and leaves
everybody on the wait lists as often as before. A guest that waits on handles waits on what they name; one handle that cannot be
waited on, and the call is refused before anything is looked at. -/
theorem wait_acquires_reported (s : Machine) (p : ParkerId) (cancelled : Bool) (objects : List Waitable) (timeout : Timeout) :
    (∃ t, (waitThrough p cancelled objects timeout).run s = (waitOutcome s cancelled objects timeout, t) ∧
      Concludes p objects s t (waitOutcome s cancelled objects timeout) ∧
      (maxWaitObjects < objects.length ∨ cancelled = true → t = s)) ∧
    (timeout ≠ .never → ∃ answer t, (waitAlone p cancelled objects timeout).run s = (answer, t) ∧
      answer.map some = waitOutcome s cancelled objects timeout ∧ Concludes p objects s t (answer.map some)) ∧
    ∀ (thread : RecordId) (handles : List Handle) (nanos : Int),
      ((∃ handle ∈ handles, s.waitableAt? thread handle = none) → ∃ e,
        (runCall thread (.wait handles nanos)).run s = (.error e, s) ∧
        proceed thread (.wait handles nanos) s = finishCall thread (.error e) s ∧
        (if maxWaitObjects < handles.length then e = .maximumExceeded
          else ∃ refused ∈ handles, s.waitableAt? thread refused = none ∧ e = .invalidHandle refused.raw.toNat)) ∧
      ∀ w : Handle → Waitable, (∀ handle ∈ handles, s.waitableAt? thread handle = some (w handle)) →
        handles.length ≤ maxWaitObjects →
        (runCall thread (.wait handles nanos)).run s = (.ok (.wait (handles.map w) (.ofNanos nanos) .index), s) := by
  refine ⟨waitThrough_concludes p cancelled objects timeout s, fun htime => waitAlone_concludes p cancelled objects htime s,
    fun thread handles nanos => ⟨?_, fun w hw hlength => ?_⟩⟩
  · rintro ⟨handle, hmem, hbad⟩
    have hrun := runCall_wait thread handles nanos s
    by_cases hlength : maxWaitObjects < handles.length
    · rw [if_pos hlength] at hrun
      exact ⟨_, hrun, proceed_of_error hrun, by rw [if_pos hlength]⟩
    · obtain ⟨refused, hrefused, hnone, herror⟩ := waitablesIn_refused hmem hbad
      rw [if_neg hlength, herror] at hrun
      exact ⟨_, hrun, proceed_of_error hrun, by rw [if_neg hlength]; exact ⟨refused, hrefused, hnone, rfl⟩⟩
  · rw [runCall_wait, if_neg (Nat.not_lt.2 hlength), waitablesIn_accepted hw]
    rfl

/-- Two parkers stand on the list of an event that is clear, and one of them holds a wake-up; an automatic event is signaled. -/
def waitingRoom : Machine where
  events := (({} : Records Event).insert 1 { waiters := ⟨[9, 7]⟩ }).insert 2
    { mode := .automatic, signaled := true, waiters := ⟨[9]⟩ }
  wakeUps := ⟨[9]⟩

/-- A wait for the clear event, named twice, stands on its list three times for a while; a wait that also names the automatic event
takes that one. A handle that names nothing is refused, and one that names the waiting thread itself is not. -/
theorem wait_acquires_reported_waitingRoom :
    (∃ t, (waitThrough 9 false [.event 1, .event 1] (.after 5)).run waitingRoom = (.error .timedOut, t) ∧
      (t.queue (.event 1)).Perm [9, 7]) ∧
    (Timeout.after 5 ≠ .never ∧ ∃ t, (waitAlone 9 false [.event 1, .event 2, .event 1] (.after 5)).run waitingRoom = (.ok 1, t) ∧
      (t.subject (.event 2)).isSignaled = false ∧ (t.queue (.event 2)).Perm [9]) ∧
    (waitingRoom.waitableAt? 0 ⟨0x8000⟩ = none ∧ ∃ e,
      (runCall 0 (.wait [.currentThread, ⟨0x8000⟩] 0)).run waitingRoom = (.error e, waitingRoom)) ∧
    (waitingRoom.waitableAt? 0 .currentThread = some (.thread 0) ∧
      (runCall 0 (.wait [.currentThread] 0)).run waitingRoom = (.ok (.wait [.thread 0] .immediate .index), waitingRoom)) := by
  have hbad : waitingRoom.waitableAt? 0 ⟨0x8000⟩ = none := by decide +kernel
  have hgood : waitingRoom.waitableAt? 0 .currentThread = some (.thread 0) := by decide +kernel
  have hclear : waitOutcome waitingRoom false [.event 1, .event 1] (.after 5) = .error .timedOut := by rfl
  have hfound : waitOutcome waitingRoom false [.event 1, .event 2, .event 1] (.after 5) = .ok (some 1) := by rfl
  refine ⟨?_, ⟨nofun, ?_⟩, ⟨hbad, ?_⟩, hgood, ?_⟩
  · obtain ⟨⟨t, hrun, hconcludes, -⟩, -⟩ := wait_acquires_reported waitingRoom 9 false [.event 1, .event 1] (.after 5)
    rw [hclear] at hrun hconcludes
    exact ⟨t, hrun, hconcludes.queue (.event 1)⟩
  · obtain ⟨-, halone, -⟩ := wait_acquires_reported waitingRoom 9 false [.event 1, .event 2, .event 1] (.after 5)
    obtain ⟨answer, t, hrun, hanswer, hconcludes⟩ := halone nofun
    rw [hfound] at hanswer
    rw [hanswer] at hconcludes
    have hone : answer = .ok 1 := by
      cases answer with
      | error e => cases hanswer
      | ok index => cases hanswer; rfl
    subst hone
    have hacquired : t.subject (.event 2) = (waitingRoom.subject (.event 2)).acquired := hconcludes.consumes.acquired (.event 2) rfl
    exact ⟨t, hrun, by rw [hacquired]; rfl, hconcludes.queue (.event 2)⟩
  · obtain ⟨e, hrun, -⟩ := ((wait_acquires_reported waitingRoom 9 false [] .never).2.2 0 [.currentThread, ⟨0x8000⟩] 0).1
      ⟨⟨0x8000⟩, by simp, hbad⟩
    exact ⟨e, hrun⟩
  · exact ((wait_acquires_reported waitingRoom 9 false [] .never).2.2 0 [.currentThread] 0).2 (fun _ => .thread 0)
      (by simp [hgood]) (by decide)

end Machine

end Microkernel
