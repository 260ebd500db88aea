import Mathlib.Data.List.Perm.Basic
import Microkernel.Proofs.Machine.Sessions
import Microkernel.Proofs.Machine.WaitsAlone
import Microkernel.Proofs.Machine.WakeUps

/-!
# Records with wait lists

What a wait can change falls into two parts that do not meet: who stands on the wait lists (`Machine.queue`), and all else about the
records that have one (`Machine.subject`). A look at an object moves the second part alone, and only by acquiring it (`Consumes`);
registering and leaving move the first part alone, and whoever leaves as often as it registered leaves the lists as
they were but for their order (`Enrolled`).
-/

namespace Microkernel

/-- Where a wait list is kept. -/
inductive WaitPlace
  | event (id : RecordId)
  | process (id : RecordId)
  | thread (id : RecordId)
  | port (id : RecordId)
  | session (id : RecordId)
  | request (id : RecordId)
  deriving DecidableEq

/-- A record that can be waited on, without its wait list. -/
inductive Subject
  | event (e : Event)
  | process (p : Process)
  | thread (t : Thread)
  | port (p : Port)
  | session (x : Session)
  | request (r : SessionRequest)

namespace Subject

/-- Whether a wait on the record would end now. -/
def isSignaled : Subject → Bool
  | event e => e.signaled
  | process p => p.state = .terminated
  | thread t => t.state = .exited
  | port p => !p.incoming.isEmpty
  | session x => x.isSignaled
  | request r => r.result.isSome

/-- The record once a wait has ended on it: an automatic event is cleared, all else stays. -/
def acquired : Subject → Subject
  | event e => event (if e.mode = .automatic then { e with signaled := false } else e)
  | subject => subject

end Subject

namespace Machine

/-- Where the wait list of an object is kept. -/
def placeOf (s : Machine) : Waitable → WaitPlace
  | .event id => .event id
  | .process id => .process id
  | .thread id => .thread id
  | .serverPort id => .port (s.serverPort id)
  | .serverSession id => .session (s.serverSession id)
  | .request id => .request id

/-- Who stands on the wait list at a place. -/
def queue (s : Machine) : WaitPlace → List ParkerId
  | .event id => (s.event id).waiters.parkers
  | .process id => (s.process id).waiters.parkers
  | .thread id => (s.thread id).waiters.parkers
  | .port id => (s.port id).waiters.parkers
  | .session id => (s.session id).waiters.parkers
  | .request id => (s.request id).waiters.parkers

/-- The record at a place. -/
def subject (s : Machine) : WaitPlace → Subject
  | .event id => .event { s.event id with waiters := {} }
  | .process id => .process { s.process id with waiters := {} }
  | .thread id => .thread { s.thread id with waiters := {} }
  | .port id => .port { s.port id with waiters := {} }
  | .session id => .session { s.session id with waiters := {} }
  | .request id => .request { s.request id with waiters := {} }

/-- Record and wait list at a place. -/
def entry (s : Machine) (place : WaitPlace) : Subject × List ParkerId := (s.subject place, s.queue place)

variable {s t u : Machine} {object : Waitable} {place : WaitPlace}

/-- Those who wait for an object stand in the queue of its place. -/
theorem parkers_waitersOf (s : Machine) (object : Waitable) : (s.waitersOf object).parkers = s.queue (s.placeOf object) := by
  cases object <;> rfl

/-- An object is signaled exactly if the record at its place is. -/
theorem isSignaled_eq (s : Machine) (object : Waitable) : s.isSignaled object = (s.subject (s.placeOf object)).isSignaled := by
  cases object <;> rfl

/-! ## Changing one record -/

section

variable (s : Machine) (object : Waitable) (l : WaitList) (place : WaitPlace)

/-- Setting one process leaves the others. -/
theorem process_setProcess (id other : RecordId) (p : Process) :
    (setProcess id p s).2.process other = if other = id then p else s.process other :=
  process_insert _ _ _ _

/-- Setting one request leaves the others. -/
theorem request_setRequest (id other : RecordId) (r : SessionRequest) :
    (setRequest id r s).2.request other = if other = id then r else s.request other :=
  Records.getD_insert _ _ _ _ _

/-- An event that is set is seen at its place, and nowhere else. -/
theorem entry_setEvent (id : RecordId) (e : Event) : (setEvent id e s).2.entry place =
    if place = .event id then (.event { e with waiters := {} }, e.waiters.parkers) else s.entry place := by
  cases place with
  | event other =>
    simp only [entry, subject, queue, event_setEvent, WaitPlace.event.injEq]
    split <;> rfl
  | _ => rfl

/-- A process that is set is seen at its place, and nowhere else. -/
theorem entry_setProcess (id : RecordId) (p : Process) : (setProcess id p s).2.entry place =
    if place = .process id then (.process { p with waiters := {} }, p.waiters.parkers) else s.entry place := by
  cases place with
  | process other =>
    simp only [entry, subject, queue, process_setProcess, WaitPlace.process.injEq]
    split <;> rfl
  | _ => rfl

/-- A thread that is set is seen at its place, and nowhere else. -/
theorem entry_setThread (id : RecordId) (t : Thread) : (setThread id t s).2.entry place =
    if place = .thread id then (.thread { t with waiters := {} }, t.waiters.parkers) else s.entry place := by
  cases place with
  | thread other =>
    simp only [entry, subject, queue, thread_setThread, WaitPlace.thread.injEq]
    split <;> rfl
  | _ => rfl

/-- A port that is set is seen at its place, and nowhere else. -/
theorem entry_setPort (id : RecordId) (p : Port) : (setPort id p s).2.entry place =
    if place = .port id then (.port { p with waiters := {} }, p.waiters.parkers) else s.entry place := by
  cases place with
  | port other =>
    simp only [entry, subject, queue, port_setPort, WaitPlace.port.injEq]
    split <;> rfl
  | _ => rfl

/-- A session that is set is seen at its place, and nowhere else. -/
theorem entry_setSession (id : RecordId) (x : Session) : (setSession id x s).2.entry place =
    if place = .session id then (.session { x with waiters := {} }, x.waiters.parkers) else s.entry place := by
  cases place with
  | session other =>
    simp only [entry, subject, queue, session_setSession, WaitPlace.session.injEq]
    split <;> rfl
  | _ => rfl

/-- A request that is set is seen at its place, and nowhere else. -/
theorem entry_setRequest (id : RecordId) (r : SessionRequest) : (setRequest id r s).2.entry place =
    if place = .request id then (.request { r with waiters := {} }, r.waiters.parkers) else s.entry place := by
  cases place with
  | request other =>
    simp only [entry, subject, queue, request_setRequest, WaitPlace.request.injEq]
    split <;> rfl
  | _ => rfl

/-- A new wait list is all that changes, and only at its place. -/
theorem entry_setWaiters : (setWaiters object l s).2.entry place =
    if place = s.placeOf object then (s.subject place, l.parkers) else s.entry place := by
  cases object with
  | event id => exact (entry_setEvent _ _ _ _).trans (ite_congr rfl (fun h => h ▸ rfl) fun _ => rfl)
  | process id => exact (entry_setProcess _ _ _ _).trans (ite_congr rfl (fun h => h ▸ rfl) fun _ => rfl)
  | thread id => exact (entry_setThread _ _ _ _).trans (ite_congr rfl (fun h => h ▸ rfl) fun _ => rfl)
  | serverPort id => exact (entry_setPort _ _ _ _).trans (ite_congr rfl (fun h => h ▸ rfl) fun _ => rfl)
  | serverSession id => exact (entry_setSession _ _ _ _).trans (ite_congr rfl (fun h => h ▸ rfl) fun _ => rfl)
  | request id => exact (entry_setRequest _ _ _ _).trans (ite_congr rfl (fun h => h ▸ rfl) fun _ => rfl)

/-- A wait list that is set is the queue of its place. -/
theorem queue_setWaiters :
    (setWaiters object l s).2.queue place = if place = s.placeOf object then l.parkers else s.queue place := by
  refine (congrArg Prod.snd (entry_setWaiters s object l place)).trans ?_
  split <;> rfl

/-- A wait list that is set is no part of the record at its place. -/
theorem subject_setWaiters : (setWaiters object l s).2.subject place = s.subject place := by
  refine (congrArg Prod.fst (entry_setWaiters s object l place)).trans ?_
  split <;> rfl

/-- Setting a wait list changes nothing but records with wait lists. -/
theorem rest_setWaiters : { (setWaiters object l s).2 with
    events := s.events, processes := s.processes, threads := s.threads, ports := s.ports, sessions := s.sessions
    requests := s.requests, wakeUps := s.wakeUps } = s := by
  cases object <;> rfl

/-- Setting a wait list takes and gives no wake-up. -/
theorem wakeUps_setWaiters : (setWaiters object l s).2.wakeUps = s.wakeUps := by
  cases object <;> rfl

end

/-! ## Looks -/

/-- All that has changed besides wait lists and wake-ups is that a wait ended on an object, if there is one. -/
structure Consumes (found : Option Waitable) (s t : Machine) : Prop where
  acquired : ∀ object ∈ found, t.subject (s.placeOf object) = (s.subject (s.placeOf object)).acquired
  others : ∀ place, (∀ object ∈ found, place ≠ s.placeOf object) → t.subject place = s.subject place
  rest : { t with
    events := s.events, processes := s.processes, threads := s.threads, ports := s.ports, sessions := s.sessions
    requests := s.requests, wakeUps := s.wakeUps } = s

namespace Consumes

variable {found : Option Waitable}

/-- Where all records are the same, nothing was acquired. -/
theorem of_subject_eq (h : ∀ place, t.subject place = s.subject place) (hrest : { t with
    events := s.events, processes := s.processes, threads := s.threads, ports := s.ports, sessions := s.sessions
    requests := s.requests, wakeUps := s.wakeUps } = s) : Consumes none s t :=
  ⟨nofun, fun place _ => h place, hrest⟩

/-- A machine that stays as it is acquires nothing. -/
theorem refl (s : Machine) : Consumes none s s := .of_subject_eq (fun _ => rfl) rfl

/-- Where nothing was acquired, every record is the same. -/
theorem subject_eq (h : Consumes none s t) (place : WaitPlace) : t.subject place = s.subject place := h.others place nofun

/-- Objects keep their places. -/
theorem placeOf_eq (h : Consumes found s t) (object : Waitable) : t.placeOf object = s.placeOf object := by
  have hports := congrArg Machine.serverPorts h.rest
  have hsessions := congrArg Machine.serverSessions h.rest
  cases object with
  | serverPort id => exact congrArg (fun ends : Records PortEnd => WaitPlace.port (ends.getD id default).port) hports
  | serverSession id => exact congrArg (fun ends : Records SessionEnd => WaitPlace.session (ends.getD id default).session) hsessions
  | _ => rfl

/-- Where nothing was acquired, the same objects are signaled. -/
theorem isSignaled_eq (h : Consumes none s t) (object : Waitable) : t.isSignaled object = s.isSignaled object := by
  rw [Machine.isSignaled_eq, Machine.isSignaled_eq, h.placeOf_eq, h.subject_eq]

/-- What acquires nothing may come behind what acquires something. -/
theorem then_none (h : Consumes found s t) (h' : Consumes none t u) : Consumes found s u where
  acquired object ho := (h'.subject_eq _).trans (h.acquired object ho)
  others place hp := (h'.subject_eq _).trans (h.others place hp)
  rest := by
    have hs := h.rest
    rwa [← h'.rest] at hs

/-- It may come in front of it as well. -/
theorem none_then (h : Consumes none s t) (h' : Consumes found t u) : Consumes found s u where
  acquired object ho := by
    have hacquired := h'.acquired object ho
    rwa [h.placeOf_eq, h.subject_eq] at hacquired
  others place hp := by
    refine (h'.others place fun object ho => ?_).trans (h.subject_eq place)
    rw [h.placeOf_eq]
    exact hp object ho
  rest := by
    have hs := h.rest
    rwa [← h'.rest] at hs

end Consumes

/-- A look moves no wait list and takes no wake-up. -/
structure Looks (found : Option Waitable) (s t : Machine) : Prop where
  consumes : Consumes found s t
  queue : ∀ place, t.queue place = s.queue place
  wakeUps : t.wakeUps = s.wakeUps

namespace Looks

variable {found : Option Waitable}

/-- Not looking is a look that finds nothing. -/
theorem refl (s : Machine) : Looks none s s := ⟨.refl s, fun _ => rfl, rfl⟩

/-- A look behind one that found nothing finds what it finds. -/
theorem none_then (h : Looks none s t) (h' : Looks found t u) : Looks found s u :=
  ⟨h.consumes.none_then h'.consumes, fun place => (h'.queue place).trans (h.queue place), h'.wakeUps.trans h.wakeUps⟩

/-- What nobody has to clear stays as it is when a wait ends on it. -/
theorem of_lasting (h : (s.subject (s.placeOf object)).acquired = s.subject (s.placeOf object)) : Looks (some object) s s := by
  refine ⟨⟨?_, fun _ _ => rfl, rfl⟩, fun _ => rfl, rfl⟩
  rintro _ ⟨⟩
  exact h.symm

end Looks

/-- A look at an event moves no queue. -/
theorem queue_tryAcquire (id : RecordId) (s : Machine) (place : WaitPlace) :
    (tryAcquire (.event id) s).2.queue place = s.queue place := by
  refine (congrArg Prod.snd (entry_setEvent s place id (s.event id).tryAcquire.2)).trans ?_
  rw [Event.waiters_tryAcquire]
  split
  · next hp => rw [hp]; rfl
  · rfl

/-- A look at an event that is not signaled has nothing to clear. -/
theorem tryAcquire_looks_none {id : RecordId} (hs : (s.event id).signaled = false) : Looks none s (tryAcquire (.event id) s).2 := by
  have hself : (s.event id).tryAcquire.2 = s.event id := by
    simp only [Event.tryAcquire, Event.clear, ← hs, ite_self]
  refine ⟨.of_subject_eq (fun place => ?_) rfl, queue_tryAcquire id s, rfl⟩
  refine (congrArg Prod.fst (entry_setEvent s place id (s.event id).tryAcquire.2)).trans ?_
  rw [hself]
  split
  · next hp => rw [hp]; rfl
  · rfl

/-- A look at an event that is signaled clears it if it is automatic. -/
theorem tryAcquire_looks_some (id : RecordId) (s : Machine) : Looks (some (.event id)) s (tryAcquire (.event id) s).2 := by
  have hsubject := fun place => congrArg Prod.fst (entry_setEvent s place id (s.event id).tryAcquire.2)
  refine ⟨⟨?_, fun place hp => ?_, rfl⟩, queue_tryAcquire id s, rfl⟩
  · rintro _ ⟨⟩
    refine (hsubject (.event id)).trans ?_
    simp only [if_pos, placeOf, subject, Subject.acquired, Event.tryAcquire, Event.clear]
    split <;> rfl
  · exact (hsubject place).trans (congrArg Prod.fst (if_neg (hp (.event id) rfl)))

/-- One look acquires the object if it is signaled, and otherwise leaves it as it is. -/
theorem tryAcquire_looks (object : Waitable) (s : Machine) : (tryAcquire object s).1 = s.isSignaled object ∧
    Looks (if s.isSignaled object then some object else none) s (tryAcquire object s).2 := by
  refine ⟨by cases object <;> rfl, ?_⟩
  split
  · cases object with
    | event id => exact tryAcquire_looks_some id s
    | _ => exact .of_lasting rfl
  · next hs =>
    cases object with
    | event id => exact tryAcquire_looks_none (Bool.eq_false_iff.2 hs)
    | _ => exact .refl s

/-- Looking at objects in order finds the first that is signaled, and acquires it alone. -/
theorem pollFrom_looks (index : Nat) (objects : List Waitable) (s : Machine) : ∃ t,
    pollFrom index objects s = ((objects.findIdx? s.isSignaled).map (index + ·), t) ∧ Looks (objects.find? s.isSignaled) s t := by
  induction objects generalizing index s with
  | nil => exact ⟨s, rfl, .refl s⟩
  | cons object rest ih =>
    obtain ⟨hanswer, hlooks⟩ := tryAcquire_looks object s
    rw [List.findIdx?_cons, List.find?_cons, pollFrom, Update.run_bind, hanswer]
    cases hs : s.isSignaled object with
    | true =>
      rw [hs, if_pos rfl] at hlooks
      exact ⟨_, rfl, hlooks⟩
    | false =>
      rw [hs, if_neg Bool.false_ne_true] at hlooks
      obtain ⟨t, hrun, hrest⟩ := ih (index + 1) (tryAcquire object s).2
      have hsame : (tryAcquire object s).2.isSignaled = s.isSignaled := funext hlooks.consumes.isSignaled_eq
      rw [hsame] at hrun hrest
      refine ⟨t, ?_, hlooks.none_then hrest⟩
      refine hrun.trans ?_
      simp only [reduceCtorEq, if_false, Option.map_map, Function.comp_def, Nat.add_assoc, Nat.add_comm 1]

/-- A poll finds the first object that is signaled, and acquires it. -/
theorem poll_looks (objects : List Waitable) (s : Machine) : ∃ t,
    poll objects s = (objects.findIdx? s.isSignaled, t) ∧ Looks (objects.find? s.isSignaled) s t := by
  obtain ⟨t, hrun, hlooks⟩ := pollFrom_looks 0 objects s
  simp only [Nat.zero_add, Option.map_id'] at hrun
  exact ⟨t, hrun, hlooks⟩

/-! ## Standing on wait lists -/

/-- A parker stands at places, as often as it registered there, and nobody else has moved but for the order. No object and nobody
else's wake-up has changed. -/
structure Enrolled (p : ParkerId) (places : List WaitPlace) (s t : Machine) : Prop where
  consumes : Consumes none s t
  queue : ∀ place, (t.queue place).Perm (s.queue place ++ List.replicate (places.count place) p)
  wakeUps : ∀ q, q ≠ p → t.wakeUps.has q = s.wakeUps.has q

namespace Enrolled

variable {p : ParkerId} {places places' : List WaitPlace}

/-- A look without a find leaves everybody where they stand. -/
theorem of_looks (h : Looks none s t) : Enrolled p [] s t := by
  refine ⟨h.consumes, fun place => ?_, fun q _ => by rw [h.wakeUps]⟩
  rw [h.queue, List.count_nil, List.replicate_zero, List.append_nil]

/-- In which order the parker registered makes no difference. -/
theorem perm (h : Enrolled p places s t) (hp : places.Perm places') : Enrolled p places' s t :=
  ⟨h.consumes, fun place => hp.count_eq place ▸ h.queue place, h.wakeUps⟩

/-- A look without a find leaves a parker enrolled. -/
theorem looks (h : Enrolled p places s t) (h' : Looks none t u) : Enrolled p places s u :=
  ⟨h.consumes.then_none h'.consumes, fun place => h'.queue place ▸ h.queue place, fun q hq => h'.wakeUps ▸ h.wakeUps q hq⟩

/-- The parker's own wake-up may be taken. -/
theorem take (h : Enrolled p places s t) : Enrolled p places s { t with wakeUps := t.wakeUps.take p } := by
  refine ⟨⟨h.consumes.acquired, h.consumes.others, h.consumes.rest⟩, h.queue, fun q hq => ?_⟩
  rw [← h.wakeUps q hq, Bool.eq_iff_iff, WakeUps.has_take]
  exact and_iff_right hq

/-- A new wait list in place of an old one. -/
theorem setWaiters (h : Enrolled p places s t) (object : Waitable) (l : WaitList)
    (hl : l.parkers.Perm (s.queue (s.placeOf object) ++ List.replicate (places'.count (s.placeOf object)) p))
    (hp : ∀ place, place ≠ s.placeOf object → places'.count place = places.count place) :
    Enrolled p places' s (setWaiters object l t).2 := by
  refine ⟨h.consumes.then_none (.of_subject_eq (subject_setWaiters t object l) (rest_setWaiters t object l)), fun place => ?_,
    fun q hq => ?_⟩
  · rw [queue_setWaiters, h.consumes.placeOf_eq]
    split
    · next hplace => exact hplace ▸ hl
    · next hplace => exact hp place hplace ▸ h.queue place
  · rw [wakeUps_setWaiters]
    exact h.wakeUps q hq

/-- Who stands on the list of an object. -/
theorem parkers_perm (h : Enrolled p places s t) (object : Waitable) : (t.waitersOf object).parkers.Perm
    (s.queue (s.placeOf object) ++ List.replicate (places.count (s.placeOf object)) p) := by
  rw [parkers_waitersOf, h.consumes.placeOf_eq]
  exact h.queue _

/-- Registering with an object enrolls at its place. -/
theorem register (h : Enrolled p places s t) (object : Waitable) :
    Enrolled p (s.placeOf object :: places) s (register p object t).2 := by
  refine h.setWaiters object _ ?_ fun place hp => List.count_cons_of_ne hp.symm
  rw [List.count_cons_self, List.replicate_succ', ← List.append_assoc]
  exact (h.parkers_perm object).append_right [p]

/-- Leaving takes one entry away that registering made. -/
theorem unregister {object : Waitable} (h : Enrolled p (s.placeOf object :: places) s t) :
    Enrolled p places s (unregister p object t).2 := by
  refine h.setWaiters object _ ?_ fun place hp => (List.count_cons_of_ne hp.symm).symm
  have hstands := h.parkers_perm object
  rw [List.count_cons_self, List.replicate_succ] at hstands
  have hmem : p ∈ (t.waitersOf object).parkers := hstands.mem_iff.2 (by simp)
  have hleft := (WaitList.perm_cons_unregister _ p hmem).symm.trans (hstands.trans List.perm_middle)
  exact hleft.cons_inv

/-- Registering with several enrolls at the place of each. -/
theorem registerAll (h : Enrolled p places s t) (objects : List Waitable) :
    Enrolled p (objects.map s.placeOf ++ places) s (registerAll p objects t).2 := by
  rw [registerAll_run]
  induction objects generalizing places t with
  | nil => exact h
  | cons object rest ih => exact (ih (h.register object)).perm List.perm_middle

/-- Leaving all of them leaves the queues as they were but for their order. -/
theorem unregisterAll {objects : List Waitable} (h : Enrolled p (objects.map s.placeOf) s t) :
    Enrolled p [] s (unregisterAll p objects t).2 := by
  rw [unregisterAll_run]
  induction objects generalizing t with
  | nil => exact h
  | cons object rest ih => exact ih h.unregister

end Enrolled

end Machine

end Microkernel
