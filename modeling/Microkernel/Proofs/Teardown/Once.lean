import Microkernel.Proofs.Machine.MemoryRuns
import Microkernel.Proofs.Teardown.Parties

/-!
# A process is torn down once

However those who end a process take their steps, the process goes from running to terminating to terminated; it is released in the one
step that makes it terminated, when all of its threads have exited; that is told once, and whoever calls later changes nothing
(`torn_down_once`).
-/

namespace Microkernel.Machine.Teardown

variable {id : RecordId} {x : Scene} {c : Teardown id} {p q : Party} {i : Nat} {t : Machine}

/-! ## What is true all the time -/

/-- The scene of the process now. -/
def now (c : Teardown id) : Scene := c.machine.scene id

/-- How many have to tell that the process is terminated. -/
def tellers (c : Teardown id) : Nat := c.parties.countP Party.isTelling

/-- As long as the process is not terminated, nothing is recorded. Once it is, somebody has to tell, or one event was recorded. -/
structure Audited (x y : Scene) (tellers : Nat) : Prop where
  before : y.state ≠ .terminated → tellers = 0 ∧ y.audit = x.audit
  behind : y.state = .terminated → tellers = 1 ∧ y.audit = x.audit ∨
    tellers = 0 ∧ ∃ time, y.audit = (x.audit.record (.processTerminated x.pid) time).2

/-- What is recorded stays right over a change, as long as whoever has to tell is counted. -/
theorem Audited.change {own : Option RecordId} {s : Machine} {n m : Nat} {b b' : Bool} (h : Audited x (s.scene id) n)
    (hpid : (s.scene id).pid = x.pid) (hchange : Change id own s b t b') (hn : m + b.toNat = n + b'.toNat) :
    Audited x (t.scene id) m := by
  cases hchange with
  | same ht =>
    obtain rfl : m = n := hn
    rwa [ht]
  | begun hrunning ht =>
    obtain rfl : m = n := hn
    rw [ht]
    refine ⟨fun _ => h.before fun hstate => ?_, fun hstate => nomatch hstate⟩
    cases hrunning.symm.trans hstate
  | moved hown hexited ht =>
    obtain rfl : m = n := hn
    rw [ht]
    exact ⟨h.before, h.behind⟩
  | released hstate hall =>
    obtain ⟨hnone, haudit⟩ := h.before fun hended => nomatch hstate.symm.trans hended
    rw [afterRelease, scene_release]
    refine ⟨fun hended => absurd rfl hended, fun _ => .inl ⟨?_, haudit⟩⟩
    rw [hnone] at hn
    exact hn
  | told hstate ht =>
    obtain ⟨time, ht⟩ := ht
    rw [ht]
    refine ⟨fun hended => absurd hstate hended, fun _ => ?_⟩
    rcases h.behind hstate with ⟨hone, haudit⟩ | ⟨hnone, -⟩
    · refine .inr ⟨?_, time, ?_⟩
      · rw [hone] at hn
        exact Nat.succ.inj hn
      · rw [← haudit, ← hpid]
    · rw [hnone] at hn
      cases hn

/-- The parties are the threads of the process, each once, and callers from outside. What each knows is true. If the process is
terminated, that was told once, or one of them has to tell it; if all threads have exited and it is not, one of them will end it. -/
structure Inv (x : Scene) (c : Teardown id) : Prop where
  threads : c.now.threads = x.threads
  kernel : c.now.kernel = x.kernel
  pid : c.now.pid = x.pid
  alive : c.now.state ≠ .created
  member : ∀ (i : Nat) (p : Party) th, c.parties[i]? = some p → p.thread? = some th → th ∈ x.threads
  followed : ∀ th ∈ x.threads, ∃ (i : Nat) (p : Party), c.parties[i]? = some p ∧ p.thread? = some th
  apart : ∀ (i j : Nat) (p q : Party) th,
    c.parties[i]? = some p → c.parties[j]? = some q → p.thread? = some th → q.thread? = some th → i = j
  fits : ∀ (i : Nat) (p : Party), c.parties[i]? = some p → p.Fits c.now
  audited : Audited x c.now c.tellers
  pending : c.now.state = .terminated ∨ ¬ c.now.AllExited ∨ (∃ (i : Nat) (p : Party), c.parties[i]? = some p ∧ p.willEnd = true) ∨
    x.threads = [] ∧ c.now.state = .running

/-! ## One party takes a step -/

/-- A party is at another stage, and the machine has changed. -/
def put (c : Teardown id) (i : Nat) (q : Party) (t : Machine) : Teardown id := { machine := t, parties := c.parties.set i q }

/-- The party that is put stands at its place, and the others stand at theirs. -/
theorem getElem?_put (hp : c.parties[i]? = some p) (q : Party) (t : Machine) (j : Nat) :
    (c.put i q t).parties[j]? = if i = j then some q else c.parties[j]? := by
  rw [put, List.getElem?_set, if_pos (List.getElem?_eq_some_iff.1 hp).1]

/-- A party that is put where it stands changes the machine alone. -/
theorem put_self (hp : c.parties[i]? = some p) (t : Machine) : c.put i p t = { c with machine := t } := by
  obtain ⟨hi, rfl⟩ := List.getElem?_eq_some_iff.1 hp
  rw [put, List.set_getElem_self]

/-- Who has to tell, if one party changes. -/
theorem tellers_put (hp : c.parties[i]? = some p) (q : Party) (t : Machine) :
    (c.put i q t).tellers + p.isTelling.toNat = c.tellers + q.isTelling.toNat := by
  obtain ⟨hi, rfl⟩ := List.getElem?_eq_some_iff.1 hp
  have hpos : c.parties[i].isTelling = true → 0 < c.parties.countP Party.isTelling := fun h =>
    List.countP_pos_iff.2 ⟨_, List.getElem_mem hi, h⟩
  rw [tellers, put, List.countP_set hi, tellers]
  cases h : c.parties[i].isTelling <;> cases q.isTelling <;> simp_all

namespace Inv

/-- What a party knows stays true when another one takes a step. -/
theorem fits_put (h : Inv x c) (hp : c.parties[i]? = some p) (ho : Onward p.thread? c.now (t.scene id)) (hq : q.Fits (t.scene id)) :
    ∀ (j : Nat) (r : Party), (c.put i q t).parties[j]? = some r → r.Fits (t.scene id) := by
  intro j r hr
  rw [getElem?_put hp] at hr
  split at hr
  · exact Option.some.inj hr ▸ hq
  · next hne =>
    refine (h.fits j r hr).onward ho fun th hth => ⟨h.threads ▸ h.member j r th hr hth, fun heq => ?_⟩
    exact hne (h.apart i j p r th hp hr heq.symm hth)

/-- A party takes a step. -/
theorem put (h : Inv x c) (hp : c.parties[i]? = some p) (hchange : Change id p.thread? c.machine p.isTelling t q.isTelling)
    (hthread : q.thread? = p.thread?) (hq : q.Fits (t.scene id))
    (hends : q.willEnd = true ∨ (t.scene id).state = .terminated ∨ ¬ (t.scene id).AllExited ∨
      p.willEnd = false ∧ t.scene id = c.now) : Inv x (c.put i q t) := by
  have ho : Onward p.thread? c.now (t.scene id) := hchange.onward
  have hget := getElem?_put hp q t
  have htellers := tellers_put hp q t
  have hparty (j : Nat) (r : Party) (hr : (c.put i q t).parties[j]? = some r) :
      ∃ r', c.parties[j]? = some r' ∧ r.thread? = r'.thread? := by
    rw [hget] at hr
    split at hr
    · next heq => exact ⟨p, heq ▸ hp, Option.some.inj hr ▸ hthread⟩
    · exact ⟨r, hr, rfl⟩
  constructor
  case threads => exact ho.threads.trans h.threads
  case kernel => exact ho.kernel.trans h.kernel
  case pid => exact ho.pid.trans h.pid
  case alive =>
    intro hcreated
    rcases ho.state with hsame | ⟨-, hstate⟩ | ⟨-, hstate⟩
    · exact h.alive (hsame.symm.trans hcreated)
    · cases hcreated.symm.trans hstate
    · cases hcreated.symm.trans hstate
  case member =>
    intro j r th hr hth
    obtain ⟨r', hr', hsame⟩ := hparty j r hr
    exact h.member j r' th hr' (hsame ▸ hth)
  case followed =>
    intro th hth
    obtain ⟨j, r, hr, hrth⟩ := h.followed th hth
    refine ⟨j, if i = j then q else r, ?_, ?_⟩
    · rw [hget]
      split
      · rfl
      · exact hr
    · split
      · next heq =>
        subst heq
        obtain rfl := Option.some.inj (hp.symm.trans hr)
        exact hthread.trans hrth
      · exact hrth
  case apart =>
    intro j k r r' th hr hr' hth hth'
    obtain ⟨a, ha, hsame⟩ := hparty j r hr
    obtain ⟨a', ha', hsame'⟩ := hparty k r' hr'
    exact h.apart j k a a' th ha ha' (hsame ▸ hth) (hsame' ▸ hth')
  case fits => exact h.fits_put hp ho hq
  case audited => exact h.audited.change h.pid hchange htellers
  case pending =>
    rcases hends with hwill | hstate | halive | ⟨hnot, hsame⟩
    · exact .inr (.inr (.inl ⟨i, q, by rw [hget, if_pos rfl], hwill⟩))
    · exact .inl hstate
    · exact .inr (.inl halive)
    · have hnow : (c.put i q t).now = c.now := hsame
      rw [hnow]
      refine h.pending.imp_right (Or.imp_right (Or.imp_left ?_))
      rintro ⟨j, r, hr, hwill⟩
      refine ⟨j, r, ?_, hwill⟩
      rw [hget, if_neg]
      · exact hr
      · rintro rfl
        obtain rfl := Option.some.inj (hp.symm.trans hr)
        rw [hnot] at hwill
        cases hwill

/-! ## All steps -/

/-- A party that the process knows is a thread of it. -/
theorem mem_threads (h : Inv x c) (hp : c.parties[i]? = some p) : ∀ th, p.thread? = some th → th ∈ c.now.threads :=
  fun th hth => h.threads ▸ h.member i p th hp hth

/-- A party that takes its next step keeps the invariant. -/
theorem advance (h : Inv x c) (hp : c.parties[i]? = some p) : Inv x (c.put i (p.advance id c.machine).1 (p.advance id c.machine).2) := by
  obtain ⟨hchange, hfits⟩ := Party.advance_spec h.alive (h.mem_threads hp) (h.fits i p hp)
  exact h.put hp hchange (Party.thread?_advance p) hfits (Party.advance_ends h.alive (h.mem_threads hp) (h.fits i p hp))

/-- A thread does something in its body that moves it. -/
theorem move (h : Inv x c) {th : RecordId} (hp : c.parties[i]? = some (.thread th .entered)) {event : ThreadEvent}
    (hinner : isInner event = true) : Inv x (c.put i (.thread th .entered) (moveThread th event c.machine).2) := by
  have hinside : (c.machine.thread th).state.isInside = true := h.fits i _ hp
  cases hnext : (c.machine.thread th).state.next? event with
  | none =>
    have hscene := scene_moveThread id th event c.machine
    rw [hnext, Option.getD_none, withThread_same] at hscene
    refine h.put hp (.same hscene) rfl ?_ (.inr (.inr (.inr ⟨rfl, hscene⟩)))
    rw [hscene]
    exact h.fits i _ hp
  | some state =>
    obtain ⟨hchange, hstate⟩ := moveThread_change id event hnext
    have hstill : state.isInside = true := by
      cases hold : (c.machine.thread th).state <;> rw [hold] at hinside hnext <;> cases event <;> cases hnext <;>
        first | rfl | exact nomatch hinner
    refine h.put hp hchange rfl ((congrArg ThreadState.isInside hstate).trans hstill) (.inr (.inr (.inl fun hall => ?_)))
    have hth := h.mem_threads hp th rfl
    have hexited := hall th (hchange.onward.threads ▸ hth)
    rw [hstate] at hexited
    rw [hexited] at hstill
    cases hstill

/-- A thread is at another stage of its body, and nothing else is seen. -/
theorem restage (h : Inv x c) {th : RecordId} (hp : c.parties[i]? = some (.thread th .entered)) {stage : ThreadStage}
    (hscene : t.scene id = c.now) (hstage : stage.isTelling = false) (hfits : stage.Fits c.now th) :
    Inv x (c.put i (.thread th stage) t) := by
  refine h.put hp ?_ rfl (hscene ▸ hfits) (.inr (.inr (.inr ⟨rfl, hscene⟩)))
  rw [show (Party.thread th stage).isTelling = false from hstage]
  exact .same hscene

/-- Somebody outside calls. -/
theorem call (h : Inv x c) : Inv x (c.step .terminate) := by
  have hget (j : Nat) (r : Party) (hr : (c.parties ++ [.outside .called])[j]? = some r) :
      c.parties[j]? = some r ∨ r = .outside .called := by
    rw [List.getElem?_append] at hr
    split at hr
    · exact .inl hr
    · exact .inr (List.mem_singleton.1 (List.mem_of_getElem? hr))
  have hold {j : Nat} {r : Party} (hr : c.parties[j]? = some r) : (c.parties ++ [.outside .called])[j]? = some r := by
    rw [List.getElem?_append_left (List.getElem?_eq_some_iff.1 hr).1, hr]
  have hthread {j : Nat} {r : Party} {th : RecordId} (hr : (c.parties ++ [.outside .called])[j]? = some r) (hth : r.thread? = some th) :
      c.parties[j]? = some r := by
    rcases hget j r hr with hr | rfl
    · exact hr
    · cases hth
  constructor
  case threads => exact h.threads
  case kernel => exact h.kernel
  case pid => exact h.pid
  case alive => exact h.alive
  case member => exact fun j r th hr hth => h.member j r th (hthread hr hth) hth
  case followed =>
    intro th hth
    obtain ⟨j, r, hr, hrth⟩ := h.followed th hth
    exact ⟨j, r, hold hr, hrth⟩
  case apart => exact fun j k r r' th hr hr' hth hth' => h.apart j k r r' th (hthread hr hth) (hthread hr' hth') hth hth'
  case fits =>
    intro j r hr
    rcases hget j r hr with hr | rfl
    · exact h.fits j r hr
    · trivial
  case audited =>
    have htellers : (c.step .terminate).tellers = c.tellers := List.countP_append
    rw [htellers]
    exact h.audited
  case pending =>
    refine h.pending.imp_right (Or.imp_right (Or.imp_left ?_))
    rintro ⟨j, r, hr, hwill⟩
    exact ⟨j, r, hold hr, hwill⟩

/-- Others do something that does not disturb. -/
theorem work (h : Inv x c) (w : Work id) : Inv x (c.step (.work w)) := by
  have hu : Undisturbed id c.machine (w.run c.machine) := w.undisturbed c.machine
  have hstate : (c.step (.work w)).now.state = c.now.state := hu.state
  have haudit : (c.step (.work w)).now.audit = c.now.audit := by
    change ((w.run c.machine).kernel ((w.run c.machine).process id).kernel).audit = _
    rw [hu.kernel]
    exact hu.audit
  have ho : Onward none c.now (c.step (.work w)).now :=
    ⟨hu.threads, hu.kernel, hu.pid, fun th hth hexited => (hu.threadState th hth).trans hexited,
      fun th hth _ => hu.threadState th hth, .inl hstate⟩
  constructor
  case threads => exact ho.threads.trans h.threads
  case kernel => exact ho.kernel.trans h.kernel
  case pid => exact ho.pid.trans h.pid
  case alive => exact hstate ▸ h.alive
  case member => exact h.member
  case followed => exact h.followed
  case apart => exact h.apart
  case fits => exact fun j r hr => (h.fits j r hr).onward ho fun th hth => ⟨h.mem_threads hr th hth, nofun⟩
  case audited =>
    refine ⟨fun hstill => ?_, fun hended => ?_⟩ <;> rw [haudit]
    · exact h.audited.before (hstate ▸ hstill)
    · exact h.audited.behind (hstate ▸ hended)
  case pending =>
    rw [hstate]
    refine h.pending.imp_right (Or.imp_left fun halive hall => halive fun th hth => ?_)
    have hth' : th ∈ (c.step (.work w)).now.threads := ho.threads ▸ hth
    exact (hu.threadState th hth).symm.trans (hall th hth')

/-- Every step keeps the invariant. -/
theorem step (h : Inv x c) (st : Step id) : Inv x (c.step st) := by
  cases st with
  | terminate => exact h.call
  | advance i =>
    unfold Teardown.step
    dsimp only
    split
    · next hp => exact h.advance hp
    · exact h
  | move i event =>
    unfold Teardown.step
    dsimp only
    split
    · next hp =>
      split
      · next hinner =>
        have hmoved := h.move hp hinner
        rwa [put_self hp] at hmoved
      · exact h
    · exact h
  | exitProcess i =>
    unfold Teardown.step
    dsimp only
    split
    · next hp =>
      split
      · next hrunning => exact h.restage hp rfl rfl ⟨hrunning, trivial⟩
      · exact h
    · exact h
  | leave i ending =>
    unfold Teardown.step
    dsimp only
    split
    · next th hp =>
      split
      · next hrunning => exact h.restage hp (scene_endBody th ending c.machine) rfl hrunning
      · exact h
    · exact h
  | work w => exact h.work w

end Inv

/-! ## From the start -/

variable {s : Machine}

/-- The invariant holds at the start of a process that runs with its threads. -/
theorem inv_start (hrunning : (s.process id).state = .running) (hdistinct : (s.process id).threads.Nodup)
    (hstarted : ∀ th ∈ (s.process id).threads, (s.thread th).state.isInside = true) : Inv (s.scene id) (start id s) := by
  have hget {i : Nat} {p : Party} (hp : (start id s).parties[i]? = some p) :
      ∃ th, (s.process id).threads[i]? = some th ∧ p = .thread th .entered := by
    obtain ⟨th, hth, rfl⟩ := Option.map_eq_some_iff.1 (List.getElem?_map ▸ hp)
    exact ⟨th, hth, rfl⟩
  constructor
  case threads => rfl
  case kernel => rfl
  case pid => rfl
  case alive =>
    intro hcreated
    cases hrunning.symm.trans hcreated
  case member =>
    intro i p th hp hth
    obtain ⟨th', hat, rfl⟩ := hget hp
    obtain rfl := Option.some.inj hth
    exact List.mem_of_getElem? hat
  case followed =>
    intro th hth
    obtain ⟨i, hi⟩ := List.mem_iff_getElem?.1 hth
    have hi : (s.process id).threads[i]? = some th := hi
    exact ⟨i, .thread th .entered, by rw [start, List.getElem?_map, hi]; rfl, rfl⟩
  case apart =>
    intro i j p q th hp hq hth hth'
    obtain ⟨th₁, hi, rfl⟩ := hget hp
    obtain ⟨th₂, hj, rfl⟩ := hget hq
    obtain rfl := Option.some.inj hth
    obtain rfl := Option.some.inj hth'
    exact (List.getElem?_inj (List.getElem?_eq_some_iff.1 hi).1 hdistinct).1 (hi.trans hj.symm)
  case fits =>
    intro i p hp
    obtain ⟨th, hat, rfl⟩ := hget hp
    exact hstarted th (List.mem_of_getElem? hat)
  case audited =>
    refine ⟨fun _ => ⟨List.countP_eq_zero.2 fun p hp => ?_, rfl⟩, fun hended => nomatch hrunning.symm.trans hended⟩
    obtain ⟨th, -, rfl⟩ := List.mem_map.1 hp
    exact Bool.false_ne_true
  case pending =>
    right
    cases hthreads : (s.process id).threads with
    | nil => exact .inr (.inr ⟨hthreads, hrunning⟩)
    | cons th rest =>
      refine .inl fun hall => ?_
      have hth : th ∈ (s.process id).threads := hthreads ▸ List.mem_cons_self
      have hexited : (s.thread th).state = .exited := hall th hth
      have hinside := hstarted th hth
      rw [hexited] at hinside
      cases hinside

/-- The invariant holds after all steps. -/
theorem inv_after (hrunning : (s.process id).state = .running) (hdistinct : (s.process id).threads.Nodup)
    (hstarted : ∀ th ∈ (s.process id).threads, (s.thread th).state.isInside = true) (steps : List (Step id)) :
    Inv (s.scene id) (after id s steps) := by
  suffices hrun : ∀ {c : Teardown id}, Inv (s.scene id) c → Inv (s.scene id) (steps.foldl Teardown.step c) from
    hrun (inv_start hrunning hdistinct hstarted)
  intro c h
  induction steps generalizing c with
  | nil => exact h
  | cons st rest ih => exact ih (h.step st)

/-! ## Once -/

/-- What a step makes of the process. It goes forward, and it is terminated by being released when all threads have exited: its
bindings are closed one after the other, each once, and its mappings are dropped. -/
structure Follows (id : RecordId) (s t : Machine) : Prop where
  state : (t.scene id).state = (s.scene id).state ∨ (s.scene id).state = .running ∧ (t.scene id).state = .terminating ∨
    (s.scene id).state = .terminating ∧ (t.scene id).state = .terminated
  released : (s.scene id).state ≠ .terminated → (t.scene id).state = .terminated → (s.scene id).AllExited ∧ t = s.afterRelease id ∧
    t.scene id = (s.scene id).released

/-- What the process holds is the same, and every object has as many handles. -/
structure Spares (x y : Scene) : Prop where
  handles : y.handles = x.handles
  space : y.space = x.space
  handleCount : y.handleCount = x.handleCount

/-- A process follows its course over every change. -/
theorem follows_of_change {own : Option RecordId} {s t : Machine} {b b' : Bool} (h : Change id own s b t b') :
    Follows id s t := by
  refine ⟨h.onward.state, fun hs ht => ?_⟩
  cases h with
  | same hsame => exact absurd (congrArg Scene.state hsame ▸ ht) hs
  | begun hrunning hscene =>
    rw [hscene] at ht
    cases ht
  | moved hown hexited hscene =>
    rw [hscene] at ht
    exact absurd ht hs
  | released hstate hall => exact ⟨hall, rfl, scene_release id s⟩
  | told hstate hscene => exact absurd hstate hs

/-- A change that does not make the process terminated spares what it holds. -/
theorem spares_of_change {own : Option RecordId} {s t : Machine} {b b' : Bool} (h : Change id own s b t b')
    (hstate : (s.scene id).state = .terminated ∨ (t.scene id).state ≠ .terminated) : Spares (s.scene id) (t.scene id) := by
  cases h with
  | same hscene | begun _ hscene | moved _ _ hscene =>
    rw [hscene]
    exact ⟨rfl, rfl, rfl⟩
  | released hterminating hall =>
    rcases hstate with hended | hstill
    · cases hterminating.symm.trans hended
    · refine absurd ?_ hstill
      rw [afterRelease, scene_release]
      rfl
  | told hended hscene =>
    obtain ⟨time, hscene⟩ := hscene
    rw [hscene]
    exact ⟨rfl, rfl, rfl⟩

/-- Every step but the work of others changes the machine as one of the parties does. -/
theorem Inv.step_changes (h : Inv x c) {st : Step id} (hwork : ∀ w, st ≠ .work w) :
    ∃ own b b', Change id own c.machine b (c.step st).machine b' := by
  have hsame {t : Machine} (ht : t.scene id = c.now) : ∃ own b b', Change id own c.machine b t b' :=
    ⟨none, false, false, .same ht⟩
  cases st with
  | terminate => exact hsame rfl
  | advance i =>
    unfold Teardown.step
    dsimp only
    split
    · next hp => exact ⟨_, _, _, (Party.advance_spec h.alive (h.mem_threads hp) (h.fits i _ hp)).1⟩
    · exact hsame rfl
  | move i event =>
    unfold Teardown.step
    dsimp only
    split
    · next th hp =>
      split
      · have hscene := scene_moveThread id th event c.machine
        cases hnext : (c.machine.thread th).state.next? event with
        | none =>
          rw [hnext, Option.getD_none, withThread_same] at hscene
          exact hsame hscene
        | some state => exact ⟨_, _, _, (moveThread_change id event hnext).1⟩
      · exact hsame rfl
    · exact hsame rfl
  | exitProcess i =>
    unfold Teardown.step
    dsimp only
    split
    · split <;> exact hsame rfl
    · exact hsame rfl
  | leave i ending =>
    unfold Teardown.step
    dsimp only
    split
    · next th hp =>
      split
      · exact hsame (scene_endBody th ending c.machine)
      · exact hsame rfl
    · exact hsame rfl
  | work w => exact absurd rfl (hwork w)

/-- A call that finds the process terminating leaves the whole machine as it is. -/
theorem terminateProcess_of_ending {s : Machine} (h : (s.process id).state.isTerminating = true) (caller : Option RecordId) :
    terminateProcess id caller s = ((), s) := by
  have hnext : (s.process id).state.next? .beginTermination = none := by
    cases hstate : (s.process id).state <;> rw [hstate] at h <;> first | rfl | cases h
  rw [terminateProcess, Update.run_bind, moveProcess, Update.run_look, hnext]
  rfl

/-- At rest a process that anybody took a hand in is terminated, and that was told. -/
theorem Inv.rest (h : Inv x c) (hrest : c.AtRest) (hparties : c.parties ≠ []) : c.state = .terminated ∧
    ∃ time, c.now.audit = (x.audit.record (.processTerminated x.pid) time).2 := by
  have htellers : c.tellers = 0 := List.countP_eq_zero.2 fun p hp => by
    rcases hrest p hp with rfl | ⟨th, rfl⟩ <;> exact Bool.false_ne_true
  have hended : c.now.state = .terminated := by
    rcases h.pending with hended | halive | ⟨i, p, hp, hwill⟩ | ⟨hnone, hrunning⟩
    · exact hended
    · refine absurd (fun th hth => ?_) halive
      obtain ⟨i, p, hp, hpth⟩ := h.followed th (h.threads ▸ hth)
      have hfits := h.fits i p hp
      rcases hrest p (List.mem_of_getElem? hp) with rfl | ⟨th', rfl⟩
      · cases hpth
      · obtain rfl := Option.some.inj hpth
        exact hfits.1
    · rcases hrest p (List.mem_of_getElem? hp) with rfl | ⟨th', rfl⟩ <;> cases hwill
    · obtain ⟨p, hp⟩ := List.exists_mem_of_ne_nil _ hparties
      obtain ⟨i, hi⟩ := List.mem_iff_getElem?.1 hp
      have hfits := h.fits i p hi
      rcases hrest p hp with rfl | ⟨th, rfl⟩
      · exact absurd hrunning hfits.1
      · have hth := h.member i _ th hi rfl
        rw [hnone] at hth
        cases hth
  rcases h.audited.behind hended with ⟨hone, -⟩ | ⟨-, hrecorded⟩
  · cases htellers.symm.trans hone
  · exact ⟨hended, hrecorded⟩

/-- A process that runs, with threads each of which was started, is torn down once. In every order of steps of those who terminate it,
of its threads, which leave their bodies or terminate it themselves, and of others: it goes from running to terminating to terminated
and is terminated by being released, when all threads have exited; no other step takes anything away from it. At most one event is
recorded, when it is terminated; a later call to terminate changes nothing; and at rest it is terminated, and the event recorded. -/
theorem torn_down_once (id : RecordId) (s : Machine) (steps : List (Step id)) (hrunning : (s.process id).state = .running)
    (hdistinct : (s.process id).threads.Nodup)
    (hstarted : ∀ th ∈ (s.process id).threads, (s.thread th).state.isInside = true) :
    (∀ st, Follows id (after id s steps).machine ((after id s steps).step st).machine) ∧
    (∀ st, (∀ w, st ≠ .work w) →
      (after id s steps).state = .terminated ∨ ((after id s steps).step st).state ≠ .terminated →
      Spares (after id s steps).now ((after id s steps).step st).now) ∧
    ((after id s steps).now.audit = (s.scene id).audit ∨ (after id s steps).state = .terminated ∧
      ∃ time, (after id s steps).now.audit = ((s.scene id).audit.record (.processTerminated (s.scene id).pid) time).2) ∧
    ((after id s steps).state ≠ .running → (∀ caller, terminateProcess id caller (after id s steps).machine =
        ((), (after id s steps).machine)) ∧
      ∀ i, (after id s steps).parties[i]? = some (.outside .called) →
        (after id s steps).step (.advance i) =
          (after id s steps).put i (.outside (.finishing .finished)) (after id s steps).machine) ∧
    ((after id s steps).AtRest → (after id s steps).parties ≠ [] → (after id s steps).state = .terminated ∧
      ∃ time, (after id s steps).now.audit = ((s.scene id).audit.record (.processTerminated (s.scene id).pid) time).2) := by
  have h := inv_after hrunning hdistinct hstarted steps
  generalize after id s steps = c at h ⊢
  refine ⟨fun st => ?_, fun st hwork hstate => ?_, ?_, fun hstate => ?_, h.rest⟩
  · by_cases hwork : ∃ w, st = .work w
    · obtain ⟨w, rfl⟩ := hwork
      have hsame : (c.step (.work w)).now.state = c.now.state := (w.undisturbed c.machine).state
      exact ⟨.inl hsame, fun hc hd => absurd (hsame.symm.trans hd) hc⟩
    · obtain ⟨own, b, b', hchange⟩ := h.step_changes fun w heq => hwork ⟨w, heq⟩
      exact follows_of_change hchange
  · obtain ⟨own, b, b', hchange⟩ := h.step_changes hwork
    exact spares_of_change hchange hstate
  · by_cases hended : c.state = .terminated
    · rcases h.audited.behind hended with ⟨-, hsame⟩ | ⟨-, hrecorded⟩
      · exact .inl hsame
      · exact .inr ⟨hended, hrecorded⟩
    · exact .inl (h.audited.before hended).2
  · have hending : (c.machine.process id).state.isTerminating = true := by
      have hcreated : (c.machine.process id).state ≠ .created := h.alive
      have hrunning : (c.machine.process id).state ≠ .running := hstate
      cases hp : (c.machine.process id).state
      case created => exact absurd hp hcreated
      case running => exact absurd hp hrunning
      all_goals rfl
    refine ⟨terminateProcess_of_ending hending, fun i hi => ?_⟩
    have hbegin : beginEnding id c.machine = (false, c.machine) := by
      rcases beginEnding_cases id c.machine with ⟨hrunning, -⟩ | ⟨-, hrun⟩
      · cases hending.symm.trans hrunning
      · exact hrun
    have hadvance : (Party.outside .called).advance id c.machine = (.outside (.finishing .finished), c.machine) := by
      rw [Party.advance, CallStage.advance, hbegin]
      rfl
    unfold Teardown.step
    dsimp only
    rw [hi]
    dsimp only
    rw [hadvance]
    rfl

/-- A process with two threads, and a handle of its own that names it. -/
def twoThreads : Machine :=
  afterMoves plainSetup [.host (.start (plainCall .application)), .host (.addThread 1 44), .host (.newEvent .manual),
    .host (.generateHandle 1 (.process 1))]

/-- Its first thread terminates the process while somebody outside tries to, and waits for the second, which leaves its body. -/
def bothTerminate : List (Step 1) :=
  [.terminate, .move 0 .run, .move 1 .run, .exitProcess 0, .advance 0, .advance 2, .leave 1 .returned, .advance 1, .advance 0, .advance 0,
    .advance 0, .advance 0, .advance 1, .advance 1, .advance 0, .advance 0, .advance 0, .advance 0, .leave 0 .returned, .advance 0,
    .advance 0, .advance 0, .advance 0, .advance 0, .advance 0, .advance 0, .advance 0]

/-- A process with two threads is torn down once by both of those who terminate it. -/
theorem torn_down_once_both : (twoThreads.process 1).state = .running ∧ (twoThreads.process 1).threads = [3, 5] ∧
    twoThreads.handleCount 1 = 1 ∧ (after 1 twoThreads bothTerminate).AtRest ∧ (after 1 twoThreads bothTerminate).state = .terminated ∧
    (after 1 twoThreads bothTerminate).machine.handleCount 1 = 0 ∧
    ∃ time, (after 1 twoThreads bothTerminate).now.audit =
      ((twoThreads.scene 1).audit.record (.processTerminated (twoThreads.scene 1).pid) time).2 := by
  have hrunning : (twoThreads.process 1).state = .running := by decide +kernel
  have hthreads : (twoThreads.process 1).threads = [3, 5] := by decide +kernel
  have hparties : (after 1 twoThreads bothTerminate).parties =
      [.thread 3 (.finishing .finished), .thread 5 (.finishing .finished), .outside (.finishing .finished)] := by decide +kernel
  have hrest : (after 1 twoThreads bothTerminate).AtRest := by simp [AtRest, hparties]
  obtain ⟨-, -, -, -, hend⟩ := torn_down_once 1 twoThreads bothTerminate hrunning (by decide +kernel) (by decide +kernel)
  obtain ⟨hstate, htold⟩ := hend hrest (by simp [hparties])
  exact ⟨hrunning, hthreads, by decide +kernel, hrest, hstate, by decide +kernel, htold⟩

end Microkernel.Machine.Teardown
