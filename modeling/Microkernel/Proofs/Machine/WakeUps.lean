import Mathlib.Data.List.Perm.Basic
import Microkernel.Proofs.Machine.Acquisitions

/-!
# Waits never miss a wake-up

Whoever blocks has looked at all its flags while it stood on all wait lists. A flag that went up after the look at it was set by a
call that still has to wake those on the list, or has woken them; a wake-up is only taken before all flags are looked at again.
That is the invariant `Traffic.Sound`, kept by every atomic step. `Traffic.waits_wakeful` is what it says about blocked parkers.
-/

namespace Microkernel

/-! ## Wait lists and wake-ups by themselves -/

namespace WakeUps

variable (w : WakeUps) (p q : ParkerId)

/-- Giving a wake-up gives it to one parker. -/
theorem has_give : (w.give p).has q = true ↔ q = p ∨ w.has q = true := by
  unfold give has
  split
  · next h => exact ⟨.inr, by rintro (rfl | hq); exacts [h, hq]⟩
  · rw [List.contains_cons, Bool.or_eq_true, beq_iff_eq]

/-- Taking a wake-up takes that of one parker. -/
theorem has_take : (w.take p).has q = true ↔ q ≠ p ∧ w.has q = true := by
  unfold take has
  rw [List.contains_iff_mem, List.contains_iff_mem, List.mem_filter, decide_eq_true_eq]
  exact and_comm

end WakeUps

namespace WaitList

variable (l : WaitList) (p : ParkerId) {q : ParkerId}

/-- Registering puts one more on the list. -/
theorem mem_register : q ∈ (l.register p).parkers ↔ q ∈ l.parkers ∨ q = p := by
  rw [register, List.mem_append, List.mem_singleton]

/-- One entry of the parker is gone, and nobody else's. -/
theorem perm_cons_unregister (h : p ∈ l.parkers) : l.parkers.Perm (p :: (l.unregister p).parkers) := by
  unfold unregister
  split
  · next i hfind =>
    obtain ⟨hi, rfl, -⟩ := List.idxOf?_eq_some_iff.1 hfind
    have hne : l.parkers ≠ [] := List.ne_nil_of_length_pos (Nat.zero_lt_of_lt hi)
    rw [List.getLast?_eq_some_getLast hne, Option.getD_some]
    have hset : l.parkers.set i (l.parkers.getLast hne) ≠ [] := by
      rw [← List.length_pos_iff, List.length_set]
      exact Nat.zero_lt_of_lt hi
    -- the last entry is still last once it stands at the place of the first
    have hlast : (l.parkers.set i (l.parkers.getLast hne)).getLast hset = l.parkers.getLast hne := by
      simp only [List.getLast_eq_getElem, List.getElem_set, List.length_set, ite_self]
    have hsplit := List.dropLast_append_getLast hset
    rw [hlast] at hsplit
    have hmoved : ((l.parkers.set i (l.parkers.getLast hne)).dropLast).Perm (l.parkers.eraseIdx i) := by
      refine List.Perm.cons_inv (a := l.parkers.getLast hne) ?_
      refine (List.perm_append_singleton _ _).symm.trans ?_
      rw [hsplit]
      exact List.set_perm_cons_eraseIdx hi _
    exact (List.getElem_cons_eraseIdx_perm hi).symm.trans (hmoved.symm.cons _)
  · next hnone => exact absurd h (List.idxOf?_eq_none_iff.1 hnone)

/-- Who is not on the list leaves it as it is. -/
theorem unregister_of_not_mem (h : p ∉ l.parkers) : l.unregister p = l := by
  rw [unregister, List.idxOf?_eq_none_iff.2 h]

/-- Whoever leaves takes nobody else from the list. -/
theorem mem_unregister_of_ne (h : q ≠ p) : q ∈ (l.unregister p).parkers ↔ q ∈ l.parkers := by
  by_cases hp : p ∈ l.parkers
  · rw [(l.perm_cons_unregister p hp).mem_iff, List.mem_cons, or_iff_right h]
  · rw [l.unregister_of_not_mem p hp]

end WaitList

namespace Machine

/-! ## What a step does to flags and lists -/

section

variable (s : Machine) (id other : RecordId) (e : Event) (flag : Flag)

/-- Setting one thread leaves the others. -/
theorem thread_setThread (t : Thread) : (setThread id t s).2.thread other = if other = id then t else s.thread other :=
  Records.getD_insert _ _ _ _ _

/-- Setting an event changes its own flag only. -/
theorem isUp_setEvent : isUp (setEvent id e s).2 flag = if flag = .event id then e.signaled else isUp s flag := by
  cases flag with
  | event other =>
    have h := congrArg Event.signaled (event_setEvent s id other e)
    rw [apply_ite Event.signaled] at h
    simpa [isUp] using h
  | exit thread => rfl

/-- A change of an event's wait list alone moves no flag. -/
theorem isUp_setEvent_of_eq (h : e.signaled = (s.event id).signaled) : isUp (setEvent id e s).2 flag = isUp s flag := by
  rw [isUp_setEvent]
  split
  · next heq => rw [heq, h, isUp]
  · rfl

/-- Asking a thread to exit raises its own flag only. -/
theorem isUp_raiseExit : isUp (raiseExit id s).2 flag = (decide (flag = .exit id) || isUp s flag) := by
  cases flag with
  | event other => simp only [reduceCtorEq, decide_false, Bool.false_or]; rfl
  | exit thread =>
    have h := congrArg Thread.terminationRequested
      (thread_setThread s id thread { s.thread id with terminationRequested := true })
    rw [apply_ite Thread.terminationRequested] at h
    refine h.trans ?_
    by_cases heq : thread = id <;> simp [heq, isUp]

end

namespace Notice

/-- The call still has to wake a parker that stands on the wait list. -/
def Owes (n : Notice) (p : ParkerId) : Prop := ∀ owed, n.owed = some owed → p ∈ owed

/-- A call that owes a wake-up has not finished. -/
theorem Owes.isFinished {n : Notice} {p : ParkerId} (h : n.Owes p) : n.isFinished = false := by
  unfold Notice.isFinished
  split
  · next hnone => nomatch h [] hnone
  · rfl

end Notice

namespace Traffic

variable {x y : Traffic} {p q : ParkerId} {w : WaitCall} {event : RecordId} {flag : Flag}

/-! ## The invariant -/

/-- The parkers on the wait list of an event. -/
def parkers (x : Traffic) (event : RecordId) : List ParkerId := (x.machine.event event).waiters.parkers

/-- The events on whose lists a wait stands for sure. -/
def listed (w : WaitCall) : List RecordId :=
  match w.stage with
  | .registering next => w.objects.take next
  | .checking => w.objects
  | .looking .again _ => w.objects
  | .parking => w.objects
  | .parked => w.objects
  | _ => []

/-- The flags that a wait has found down since it stood on all lists and had no wake-up to take. -/
def passed (p : ParkerId) (w : WaitCall) : List Flag :=
  match w.stage with
  | .looking .again next => .exit p :: (w.objects.take next).map .event
  | .parking => .exit p :: w.objects.map .event
  | .parked => .exit p :: w.objects.map .event
  | _ => []

/-- A call has set the flag since it was last down, and every such call still has to wake the parker. -/
def Promised (x : Traffic) (p : ParkerId) (flag : Flag) : Prop :=
  (∃ n ∈ x.notices, n.flag = flag ∧ n.current = true) ∧ ∀ n ∈ x.notices, n.flag = flag → n.current = true → n.Owes p

/-- A flag that is up has woken the parker or will. -/
def Warned (x : Traffic) (p : ParkerId) (flag : Flag) : Prop :=
  isUp x.machine flag = true → x.machine.wakeUps.has p = true ∨ x.Promised p flag

/-- No wake-up is missed. -/
structure Sound (x : Traffic) : Prop where
  listed : ∀ p w, x.waits p = some w → ∀ event ∈ listed w, p ∈ x.parkers event
  /-- A notice stands only while its flag is up. -/
  standing : ∀ n ∈ x.notices, n.current = true → isUp x.machine n.flag = true
  warned : ∀ p w, x.waits p = some w → ∀ flag ∈ passed p w, x.Warned p flag

/-- Whoever has passed the flag of an event stands on its list. -/
theorem mem_listed_of_mem_passed (h : .event event ∈ passed p w) : event ∈ listed w := by
  unfold passed at h
  unfold listed
  split at h
  · next heq =>
    rw [heq]
    simp only [List.mem_cons, reduceCtorEq, List.mem_map, Flag.event.injEq, exists_eq_right, false_or] at h
    exact List.mem_of_mem_take h
  · next heq => rw [heq]; simpa using h
  · next heq => rw [heq]; simpa using h
  · nomatch h

/-- The only request to exit that a wait looks for is that of its own thread. -/
theorem eq_of_exit_mem_passed (h : .exit q ∈ passed p w) : q = p := by
  unfold passed at h
  split at h
  · simpa [← List.map_take] using h
  · simpa using h
  · simpa using h
  · nomatch h

/-- What one parker waits for changes nobody else's wait. -/
theorem waits_setWait (x : Traffic) (p q : ParkerId) (w : WaitCall) :
    (x.setWait p w).waits q = if q = p then some w else x.waits q := Function.update_apply ..

/-! ## What keeps a promise -/

/-- A notice that stands was not lowered. -/
theorem mem_of_mem_lower {n : Notice} (hn : n ∈ (x.lower flag).notices) (hcurrent : n.current = true) :
    n ∈ x.notices ∧ (n.flag = flag → isUp x.machine flag = true) := by
  change n ∈ ite _ _ _ at hn
  split at hn
  · next hup => exact ⟨hn, fun _ => hup⟩
  · obtain ⟨m, hm, rfl⟩ := List.mem_map.1 hn
    by_cases heq : m.flag = flag
    · rw [Notice.lower, if_pos heq] at hcurrent
      nomatch hcurrent
    · rw [Notice.lower, if_neg heq]
      exact ⟨hm, fun h => absurd h heq⟩

/-- Lowering leaves the notices of other flags alone. -/
theorem mem_lower_of_ne {n : Notice} (hn : n ∈ x.notices) (h : n.flag = flag → isUp x.machine flag = true) :
    n ∈ (x.lower flag).notices := by
  change n ∈ ite _ _ _
  split
  · exact hn
  · next hdown => exact List.mem_map.2 ⟨n, hn, if_neg fun heq => hdown (h heq)⟩

/-- What a list holds after one of its entries was changed. -/
theorem of_mem_modify {α : Type} {l : List α} {i : Nat} {f : α → α} {a : α} (h : a ∈ l.modify i f) :
    a ∈ l ∨ ∃ b, l[i]? = some b ∧ f b = a := by
  obtain ⟨j, hj⟩ := List.mem_iff_getElem?.1 h
  rw [List.getElem?_modify] at hj
  obtain ⟨b, hb, rfl⟩ := Option.map_eq_some_iff.1 hj
  split
  · next heq => exact .inr ⟨b, heq ▸ hb, rfl⟩
  · exact .inl (List.mem_of_getElem? hb)

/-- A call of a list that is changed at one place is there still, or changed. -/
theorem exists_mem_modify {α : Type} {l : List α} (i : Nat) (f : α → α) {a : α} (h : a ∈ l) :
    ∃ b ∈ l.modify i f, b = a ∨ b = f a := by
  obtain ⟨j, hj⟩ := List.mem_iff_getElem?.1 h
  refine ⟨if i = j then f a else a, List.mem_iff_getElem?.2 ⟨j, ?_⟩, ?_⟩
  · rw [List.getElem?_modify, hj]
    rfl
  · split
    · exact .inr rfl
    · exact .inl rfl

namespace Promised

/-- What was promised depends on the calls alone. -/
theorem of_notices (h : x.Promised p flag) (hnotices : y.notices = x.notices) : y.Promised p flag := by
  rwa [Promised, hnotices]

/-- Notice is given that some flag is down, but not this one. -/
theorem lower {down : Flag} (h : x.Promised p flag) (hup : isUp x.machine flag = true) : (x.lower down).Promised p flag := by
  obtain ⟨⟨n, hn, rfl, hcurrent⟩, hall⟩ := h
  refine ⟨⟨n, mem_lower_of_ne hn fun heq => heq ▸ hup, rfl, hcurrent⟩, fun m hm hflag hcurrent => ?_⟩
  exact hall m (mem_of_mem_lower hm hcurrent).1 hflag hcurrent

/-- One more call sets a flag. -/
theorem append {n : Notice} (h : x.Promised p flag) (hnotices : y.notices = x.notices ++ [n]) (howes : n.flag = flag → n.Owes p) :
    y.Promised p flag := by
  obtain ⟨⟨m, hm, hflag, hcurrent⟩, hall⟩ := h
  rw [Promised, hnotices]
  refine ⟨⟨m, List.mem_append_left _ hm, hflag, hcurrent⟩, fun m hm hflag hcurrent => ?_⟩
  rcases List.mem_append.1 hm with hm | hm
  · exact hall m hm hflag hcurrent
  · obtain rfl := List.mem_singleton.1 hm
    exact howes hflag

/-- A call goes on that still has to wake the parker. -/
theorem modify {number : Nat} {f : Notice → Notice} (h : x.Promised p flag) (hnotices : y.notices = x.notices.modify number f)
    (hf : ∀ n, (f n).flag = n.flag ∧ (f n).current = n.current)
    (howes : ∀ n, x.notices[number]? = some n → n.flag = flag → n.Owes p → (f n).Owes p) : y.Promised p flag := by
  obtain ⟨⟨n, hn, hflag, hcurrent⟩, hall⟩ := h
  rw [Promised, hnotices]
  constructor
  · obtain ⟨m, hm, rfl | rfl⟩ := exists_mem_modify number f hn
    · exact ⟨m, hm, hflag, hcurrent⟩
    · exact ⟨f n, hm, (hf n).1.trans hflag, (hf n).2.trans hcurrent⟩
  · intro m hm hmflag hmcurrent
    rcases of_mem_modify hm with hm | ⟨n', hn', rfl⟩
    · exact hall m hm hmflag hmcurrent
    · rw [(hf n').1] at hmflag
      rw [(hf n').2] at hmcurrent
      exact howes n' hn' hmflag (hall n' (List.mem_of_getElem? hn') hmflag hmcurrent)

end Promised

namespace Sound

/-! ## What keeps the invariant -/

/-- A wait goes on to a point that it has a right to. -/
theorem setWait (h : x.Sound) (hlisted : ∀ event ∈ Traffic.listed w, p ∈ x.parkers event)
    (hwarned : ∀ flag ∈ passed p w, x.Warned p flag) : (x.setWait p w).Sound := by
  constructor
  case listed =>
    intro q v hv
    rw [waits_setWait] at hv
    split at hv
    · next hq =>
      obtain rfl := Option.some.inj hv
      rw [hq]
      exact hlisted
    · exact h.listed q v hv
  case standing => exact h.standing
  case warned =>
    intro q v hv
    rw [waits_setWait] at hv
    split at hv
    · next hq =>
      obtain rfl := Option.some.inj hv
      rw [hq]
      exact hwarned
    · exact h.warned q v hv

/-- A wait goes on to a point where it stands on no list for sure. -/
theorem setWait_of_nil (h : x.Sound) (hlisted : Traffic.listed w = []) (hpassed : passed p w = []) : (x.setWait p w).Sound := by
  refine h.setWait (fun event hevent => ?_) fun flag hflag => ?_
  · rw [hlisted] at hevent
    nomatch hevent
  · rw [hpassed] at hflag
    nomatch hflag

/-- The waits stay where they are, nobody leaves a list that it needs, and who was warned still is. -/
theorem of_keeps (h : x.Sound) (hwaits : y.waits = x.waits)
    (hlisted : ∀ p w event, x.waits p = some w → event ∈ Traffic.listed w → p ∈ x.parkers event → p ∈ y.parkers event)
    (hstanding : ∀ n ∈ y.notices, n.current = true → isUp y.machine n.flag = true)
    (hwarned : ∀ p w flag, x.waits p = some w → flag ∈ passed p w → x.Warned p flag → y.Warned p flag) : y.Sound where
  listed p w hw event he := by
    rw [hwaits] at hw
    exact hlisted p w event hw he (h.listed p w hw event he)
  standing := hstanding
  warned p w hw flag hf := by
    rw [hwaits] at hw
    exact hwarned p w flag hw hf (h.warned p w hw flag hf)

/-! ### Flags that go down -/

/-- One flag goes down or stays; nothing else moves. -/
theorem lower (h : x.Sound) (hwaits : y.waits = x.waits) (hnotices : y.notices = x.notices)
    (hlists : ∀ event, y.parkers event = x.parkers event) (hwake : y.machine.wakeUps = x.machine.wakeUps)
    (hdown : isUp y.machine flag = true → isUp x.machine flag = true)
    (hother : ∀ f, f ≠ flag → isUp y.machine f = isUp x.machine f) : (y.lower flag).Sound := by
  have hold : ∀ f, isUp y.machine f = true → isUp x.machine f = true := by
    intro f hf
    by_cases heq : f = flag
    · rw [heq] at hf ⊢
      exact hdown hf
    · rwa [← hother f heq]
  refine h.of_keeps hwaits (fun q w event _ _ hq => (hlists event).symm ▸ hq) (fun n hn hcurrent => ?_) fun q w f _ _ hq hup => ?_
  · obtain ⟨hmem, hflag⟩ := mem_of_mem_lower hn hcurrent
    rw [hnotices] at hmem
    by_cases heq : n.flag = flag
    · rw [heq]
      exact hflag heq
    · exact (hother _ heq).trans (h.standing n hmem hcurrent)
  · refine (hq (hold f hup)).imp (fun htoken => ?_) fun hpromised => ?_
    · change y.machine.wakeUps.has q = true
      rwa [hwake]
    · exact (hpromised.of_notices hnotices).lower hup

end Sound

/-! ### Looks -/

/-- A look at an event changes the event alone. -/
theorem machine_look (x : Traffic) (event : RecordId) :
    (x.look event).2.machine = (setEvent event (x.machine.event event).tryAcquire.2 x.machine).2 := rfl

/-- Setting an event sets who waits for it, and nobody who waits for another. -/
theorem parkers_setEvent (s : Machine) (id other : RecordId) (e : Event) :
    ((setEvent id e s).2.event other).waiters.parkers =
      if other = id then e.waiters.parkers else (s.event other).waiters.parkers := by
  rw [event_setEvent]
  split <;> rfl

namespace Sound

/-- An event changes without getting its flag, and notice is given if the flag is down. -/
theorem drop (h : x.Sound) {e : Event} (hwaits : y.waits = x.waits) (hnotices : y.notices = x.notices)
    (hmachine : y.machine = (setEvent event e x.machine).2) (hlist : e.waiters = (x.machine.event event).waiters)
    (hdown : e.signaled = true → (x.machine.event event).signaled = true) : (y.lower (.event event)).Sound := by
  refine h.lower hwaits hnotices (fun other => ?_) (hmachine ▸ rfl) (fun hup => hdown ?_) fun f hf => ?_
  · rw [parkers, hmachine, parkers_setEvent, hlist]
    split
    · next heq => rw [heq, parkers]
    · rfl
  · rwa [hmachine, isUp_setEvent, if_pos rfl] at hup
  · rw [hmachine, isUp_setEvent, if_neg hf]

/-- A look at an event misses no wake-up. -/
theorem look (h : x.Sound) (event : RecordId) : (x.look event).2.Sound :=
  h.drop rfl rfl rfl (Event.waiters_tryAcquire _) Event.signaled_of_tryAcquire

end Sound

/-! ### Lists and wake-ups -/

namespace Sound

/-- A wait list changes, and nobody leaves it who needs it. -/
theorem relist (h : x.Sound) (event : RecordId) (l : WaitList)
    (hl : ∀ q w, x.waits q = some w → event ∈ Traffic.listed w → q ∈ x.parkers event → q ∈ l.parkers) :
    { x with machine := (setEvent event { x.machine.event event with waiters := l } x.machine).2 }.Sound := by
  have hflags : ∀ f, isUp (setEvent event { x.machine.event event with waiters := l } x.machine).2 f = isUp x.machine f :=
    fun f => isUp_setEvent_of_eq _ _ _ _ rfl
  refine h.of_keeps rfl (fun q w other hw hlisted hq => ?_) (fun n hn hcurrent => ?_) fun q w f _ _ hwarned hup => ?_
  · rw [parkers, parkers_setEvent]
    split
    · next heq => exact hl q w hw (heq ▸ hlisted) (heq ▸ hq)
    · exact hq
  · exact (hflags _).trans (h.standing n hn hcurrent)
  · exact hwarned ((hflags f).symm.trans hup)

/-- Registering with an event misses no wake-up. -/
theorem register (h : x.Sound) (p : ParkerId) (event : RecordId) : (x.run (Machine.register p (.event event))).Sound :=
  h.relist event _ fun _ _ _ _ hq => (WaitList.mem_register _ _).2 (.inl hq)

/-- A parker may leave a list that it does not need any more. -/
theorem unregister (h : x.Sound) (event : RecordId) (hp : ∀ w, x.waits p = some w → Traffic.listed w = []) :
    (x.run (Machine.unregister p (.event event))).Sound := by
  refine h.relist event _ fun q w hw hlisted hq => (WaitList.mem_unregister_of_ne _ _ ?_).2 hq
  rintro rfl
  rw [hp w hw] at hlisted
  nomatch hlisted

/-- A parker may take its wake-up if it looks at all flags again. -/
theorem take (h : x.Sound) (hp : ∀ w, x.waits p = some w → passed p w = []) :
    (x.run (modify fun s => { s with wakeUps := s.wakeUps.take p })).Sound := by
  refine h.of_keeps rfl (fun _ _ _ _ _ hq => hq) h.standing fun q w f hw hf hwarned hup => ?_
  refine (hwarned hup).imp_left fun htoken => (WakeUps.has_take _ _ _).2 ⟨?_, htoken⟩
  rintro rfl
  rw [hp w hw] at hf
  nomatch hf

/-! ### Calls that wake -/

/-- A call sets a flag; it has to wake whoever has passed the flag. -/
theorem raise (h : x.Sound) {n : Notice} (hnew : n.current = true) (hwaits : y.waits = x.waits)
    (hnotices : y.notices = x.notices ++ [n]) (hlists : ∀ event, y.parkers event = x.parkers event)
    (hwake : y.machine.wakeUps = x.machine.wakeUps) (hup : isUp y.machine n.flag = true)
    (hother : ∀ f, f ≠ n.flag → isUp y.machine f = isUp x.machine f)
    (howes : ∀ q w, x.waits q = some w → n.flag ∈ passed q w → n.Owes q) : y.Sound := by
  have hold : ∀ f, isUp x.machine f = true → isUp y.machine f = true := by
    intro f hf
    by_cases heq : f = n.flag
    · rwa [heq]
    · rwa [hother f heq]
  have hmem : ∀ m, m ∈ y.notices ↔ m ∈ x.notices ∨ m = n := by
    intro m
    rw [hnotices, List.mem_append, List.mem_singleton]
  refine h.of_keeps hwaits (fun q w event _ _ hq => hlists event ▸ hq) (fun m hm hcurrent => ?_)
    fun q w f hw hf hwarned hfup => ?_
  · rcases (hmem m).1 hm with hm | rfl
    · exact hold _ (h.standing m hm hcurrent)
    · exact hup
  · rw [hwake]
    by_cases hx : isUp x.machine f = true
    · exact (hwarned hx).imp_right fun hpromised => hpromised.append hnotices fun heq => howes q w hw (heq ▸ hf)
    · -- the flag was down, so no notice before this one stands
      obtain rfl : f = n.flag := by
        by_contra hne
        exact hx ((hother f hne).symm.trans hfup)
      refine .inr ⟨⟨n, (hmem n).2 (.inr rfl), rfl, hnew⟩, fun m hm hflag hcurrent => ?_⟩
      rcases (hmem m).1 hm with hm | rfl
      · exact absurd (hflag ▸ h.standing m hm hcurrent) hx
      · exact howes q w hw hf

/-- A call goes on: it takes a wait list, or it wakes one of those on it. -/
theorem attend (h : x.Sound) {number : Nat} {f : Notice → Notice} (hwaits : y.waits = x.waits)
    (hnotices : y.notices = x.notices.modify number f) (hf : ∀ n, (f n).flag = n.flag ∧ (f n).current = n.current)
    (hlists : ∀ event, y.parkers event = x.parkers event) (hflags : ∀ flag, isUp y.machine flag = isUp x.machine flag)
    (hwake : ∀ q, x.machine.wakeUps.has q = true → y.machine.wakeUps.has q = true)
    (howes : ∀ n, x.notices[number]? = some n → ∀ q w, x.waits q = some w → n.flag ∈ passed q w → n.Owes q →
      y.machine.wakeUps.has q = true ∨ (f n).Owes q) : y.Sound := by
  refine h.of_keeps hwaits (fun q w event _ _ hq => hlists event ▸ hq) (fun m hm hcurrent => ?_)
    fun q w flag hw hflag hwarned hup => ?_
  · rw [hflags]
    rw [hnotices] at hm
    rcases of_mem_modify hm with hm | ⟨n, hn, rfl⟩
    · exact h.standing m hm hcurrent
    · rw [(hf n).1]
      exact h.standing n (List.mem_of_getElem? hn) ((hf n).2 ▸ hcurrent)
  · by_cases htoken : y.machine.wakeUps.has q = true
    · exact .inl htoken
    rcases hwarned (hflags flag ▸ hup) with hx | hpromised
    · exact .inl (hwake q hx)
    · refine .inr (hpromised.modify hnotices hf fun n hn hnflag howed => ?_)
      exact (howes n hn q w hw (hnflag ▸ hflag) howed).resolve_left htoken

end Sound

/-! ## Steps -/

namespace Sound

/-- Blocking misses no wake-up: all flags were looked at from all lists. -/
theorem park (h : x.Sound) (hw : x.waits p = some w) (hlisted : Traffic.listed w = w.objects)
    (hpassed : passed p w = .exit p :: w.objects.map .event) : (x.park p w).Sound := by
  have hown := h.listed p w hw
  rw [hlisted] at hown
  unfold Traffic.park
  split
  · refine (h.setWait (w := { w with stage := .checking }) hown nofun).take fun v hv => ?_
    rw [waits_setWait, if_pos rfl] at hv
    obtain rfl := Option.some.inj hv
    rfl
  · exact h.setWait (w := { w with stage := .parked }) hown fun f hf => h.warned p w hw f (hpassed ▸ hf)

/-- A wait takes its next look: whatever it has passed so far, it has passed still. -/
theorem lookOn (h : x.Sound) {round : Round} {next : Nat} (hw : x.waits p = some w) (hstage : w.stage = .looking round next) :
    (x.proceed p w).Sound := by
  have hlisted := h.listed p w hw
  have hwarned := h.warned p w hw
  cases hnext : w.objects[next]? with
  | none =>
    obtain ⟨objects, timeout, stage⟩ := w
    obtain rfl : stage = .looking round next := hstage
    have hproceed : x.proceed p ⟨objects, timeout, .looking round next⟩ =
        x.setWait p (WaitCall.foundNone ⟨objects, timeout, .looking round next⟩ round) := by
      rw [Traffic.proceed]
      dsimp only at hnext ⊢
      rw [hnext]
    rw [hproceed]
    cases round with
    | first =>
      refine h.setWait_of_nil ?_ ?_
      all_goals
        unfold WaitCall.foundNone
        dsimp only
        split <;> rfl
    | again =>
      have htake : objects.take next = objects := List.take_of_length_le (List.getElem?_eq_none_iff.1 hnext)
      refine h.setWait hlisted fun f hf => hwarned f ?_
      change f ∈ Flag.exit p :: (objects.take next).map .event
      rwa [htake]
    | last => exact h.setWait_of_nil rfl rfl
  | some event =>
    rw [proceed_look x p hstage hnext]
    obtain ⟨objects, timeout, stage⟩ := w
    obtain rfl : stage = .looking round next := hstage
    have hlook := h.look event
    have hstay := hlook.listed p _ hw
    have hpast := hlook.warned p _ hw
    split
    · refine hlook.setWait_of_nil ?_ ?_
      all_goals
        unfold WaitCall.found
        cases round <;> rfl
    · next hdown =>
      cases round with
      | first => exact hlook.setWait_of_nil rfl rfl
      | last => exact hlook.setWait_of_nil rfl rfl
      | again =>
        have hsucc : objects.take (next + 1) = objects.take next ++ [event] := by
          rw [List.take_add_one, hnext]
          rfl
        refine hlook.setWait hstay fun f hf => ?_
        change f ∈ Flag.exit p :: (objects.take (next + 1)).map .event at hf
        rw [hsucc, List.map_append, ← List.cons_append, List.mem_append] at hf
        rcases hf with hf | hf
        · exact hpast f hf
        · -- the look found the flag down
          obtain rfl := List.mem_singleton.1 hf
          intro hup
          rw [machine_look, isUp_setEvent, if_pos rfl] at hup
          exact absurd (Event.signaled_of_tryAcquire hup) hdown

/-- A wait that goes on misses no wake-up. -/
theorem proceed (h : x.Sound) (hw : x.waits p = some w) : (x.proceed p w).Sound := by
  obtain ⟨objects, timeout, stage⟩ := w
  have hlisted := h.listed p _ hw
  have hwarned := h.warned p _ hw
  cases stage with
  | entering =>
    unfold Traffic.proceed
    dsimp only
    split
    · exact h.setWait_of_nil rfl rfl
    · exact h.setWait_of_nil rfl rfl
  | looking round next => exact h.lookOn hw rfl
  | registering next =>
    unfold Traffic.proceed
    dsimp only
    split
    · next hnone =>
      have htake : objects.take next = objects := List.take_of_length_le (List.getElem?_eq_none_iff.1 hnone)
      change ∀ event ∈ objects.take next, _ at hlisted
      rw [htake] at hlisted
      exact h.setWait hlisted nofun
    · next event hsome =>
      split
      · exact h
      · have hy := h.register p event
        refine hy.setWait (fun other hother => ?_) nofun
        change other ∈ objects.take (next + 1) at hother
        rw [List.take_add_one, hsome, List.mem_append] at hother
        rcases hother with hother | hother
        · exact hy.listed p _ hw other hother
        · obtain rfl := List.mem_singleton.1 hother
          change p ∈ ((setEvent other _ x.machine).2.event other).waiters.parkers
          rw [parkers_setEvent, if_pos rfl]
          exact (WaitList.mem_register _ _).2 (.inr rfl)
  | checking =>
    unfold Traffic.proceed
    dsimp only
    split
    · exact h.setWait_of_nil rfl rfl
    · next hexit =>
      refine h.setWait hlisted fun f hf => ?_
      obtain rfl : f = .exit p := List.mem_singleton.1 hf
      exact fun hup => absurd hup hexit
  | parking => exact h.park hw rfl rfl
  | parked => exact h.park hw rfl rfl
  | leaving next result =>
    unfold Traffic.proceed
    dsimp only
    split
    · exact h.setWait_of_nil rfl rfl
    · next event hsome =>
      split
      · exact h
      · refine Sound.setWait_of_nil (h.unregister event fun v hv => ?_) rfl rfl
        obtain rfl := Option.some.inj (hw.symm.trans hv)
        rfl
  | ended result => exact h

/-- A call takes the wait list of an event: whoever has passed the event's flag is on it. -/
theorem takeList (h : x.Sound) (number : Nat) : (x.takeList number).Sound := by
  unfold Traffic.takeList
  split
  · next event current hn =>
    split
    · exact h
    · refine h.attend (f := fun n => { n with owed := some (x.parkers event) }) rfl rfl (fun _ => ⟨rfl, rfl⟩) (fun _ => rfl)
        (fun _ => rfl) (fun _ htoken => htoken) fun n hx q w hw hpassed _ => ?_
      rw [hn] at hx
      obtain rfl := Option.some.inj hx
      refine .inr fun owed howed => ?_
      obtain rfl := Option.some.inj howed
      exact h.listed q w hw event (mem_listed_of_mem_passed hpassed)
  · exact h

/-- A call gives one wake-up. -/
theorem deliver (h : x.Sound) (number : Nat) (p : ParkerId) : (x.deliver number p).Sound := by
  unfold Traffic.deliver
  split
  · next flag owed current hn =>
    split
    · refine h.attend (f := Notice.deliver p) rfl rfl (fun _ => ⟨rfl, rfl⟩) (fun _ => rfl) (fun _ => rfl)
        (fun q htoken => (WakeUps.has_give _ _ _).2 (.inr htoken)) fun n hx q w _ _ howes => ?_
      by_cases hq : q = p
      · exact .inl ((WakeUps.has_give _ _ _).2 (.inl hq))
      · refine .inr fun left hleft => ?_
        obtain ⟨before, hbefore, rfl⟩ := Option.map_eq_some_iff.1 hleft
        exact (List.mem_erase_of_ne hq).2 (howes before hbefore)
    · exact h
  · exact h

/-- No step misses a wake-up. -/
theorem step (h : x.Sound) (a : TrafficAct) : (x.step a).Sound := by
  cases a with
  | begin p objects timeout =>
    unfold Traffic.step
    dsimp only
    split
    · split
      · exact h.setWait_of_nil rfl rfl
      · exact h.setWait_of_nil rfl rfl
    · exact h
  | proceed p =>
    unfold Traffic.step
    dsimp only
    split
    · next hw => exact h.proceed hw
    · exact h
  | expire p =>
    unfold Traffic.step
    dsimp only
    split
    · split
      · exact h.setWait_of_nil rfl rfl
      · exact h
    · exact h
  | signal event =>
    refine h.raise (n := { flag := .event event, owed := none }) rfl rfl rfl (fun other => ?_) rfl ?_ (fun f hf => ?_) nofun
    · refine (parkers_setEvent _ _ _ _).trans ?_
      split
      · next heq => rw [heq]; rfl
      · rfl
    · exact (isUp_setEvent _ _ _ _).trans (if_pos rfl)
    · exact (isUp_setEvent _ _ _ _).trans (if_neg hf)
  | askToExit thread =>
    refine h.raise (n := { flag := .exit thread, owed := some [thread] }) rfl rfl rfl (fun _ => rfl) rfl ?_ (fun f hf => ?_)
      fun q w _ hpassed owed howed => ?_
    · exact (isUp_raiseExit _ _ _).trans (by simp)
    · exact (isUp_raiseExit _ _ _).trans (by simp [hf])
    · obtain rfl := Option.some.inj howed
      exact List.mem_singleton.2 (eq_of_exit_mem_passed hpassed).symm
  | takeList number => exact h.takeList number
  | deliver number p => exact h.deliver number p
  | clear event => exact h.drop rfl rfl rfl rfl nofun
  | reset event =>
    have hrun : (x.run (Action.forget (resetEvent event))).machine = _ := machine_resetEvent x.machine event
    split at hrun
    · exact h.drop rfl rfl hrun rfl nofun
    · exact h.lower rfl rfl (fun _ => congrArg (fun s : Machine => (s.event _).waiters.parkers) hrun)
        (congrArg wakeUps hrun) (fun hup => hrun ▸ hup) fun f _ => congrArg (isUp · f) hrun

/-- At first there is nothing to miss. -/
theorem start (s : Machine) : Sound { machine := s } := ⟨nofun, nofun, nofun⟩

end Sound

/-! ## Runs -/

/-- After every run no wake-up is missed, and all acquisitions are paid for. -/
theorem after_sound (s : Machine) (acts : List TrafficAct) : (after s acts).Sound ∧ Paid s (after s acts) := by
  suffices h : ∀ x : Traffic, x.Sound → Paid s x → (acts.foldl step x).Sound ∧ Paid s (acts.foldl step x) from
    h _ (.start s) (.start s)
  induction acts with
  | nil => exact fun x hsound hpaid => ⟨hsound, hpaid⟩
  | cons a acts ih => exact fun x hsound hpaid => ih (x.step a) (hsound.step a) (hpaid.step a)

/-- The parker is blocked in a wait, and nobody has given it a wake-up. -/
def IsAsleep (x : Traffic) (p : ParkerId) (w : WaitCall) : Prop :=
  x.waits p = some w ∧ w.stage = .parked ∧ x.machine.wakeUps.has p = false

/-- Some call has set the flag since it was last down, and no such call has finished: it still has to wake the parker. -/
def IsUnfinished (x : Traffic) (p : ParkerId) (flag : Flag) : Prop :=
  (∃ n ∈ x.notices, n.flag = flag ∧ n.current = true) ∧
    ∀ n ∈ x.notices, n.flag = flag → n.current = true → n.isFinished = false ∧ n.Owes p

/-- Nobody sleeps who should not, and no signal of an automatic event counts twice. -/
structure Wakeful (s : Machine) (x : Traffic) : Prop where
  signaled : ∀ p w event, x.IsAsleep p w → event ∈ w.objects → (x.machine.event event).signaled = true →
    x.IsUnfinished p (.event event)
  cancelled : ∀ p w, x.IsAsleep p w → (x.machine.thread p).terminationRequested = true → x.IsUnfinished p (.exit p)
  acquired : ∀ event, (s.event event).mode = .automatic → (s.event event).signaled = false →
    x.acquired.count event ≤ x.signals event

/-- Whoever sleeps beside a flag that is up has a call that will wake it. -/
theorem Sound.isUnfinished (h : x.Sound) (hasleep : x.IsAsleep p w) (hflag : flag = .exit p ∨ flag ∈ w.objects.map .event)
    (hup : isUp x.machine flag = true) : x.IsUnfinished p flag := by
  obtain ⟨hw, hstage, htoken⟩ := hasleep
  have hpassed : flag ∈ passed p w := by
    rw [passed, hstage]
    exact List.mem_cons.2 hflag
  rcases h.warned p w hw flag hpassed hup with hx | ⟨hset, howed⟩
  · rw [htoken] at hx
    nomatch hx
  · refine ⟨hset, fun n hn hnflag hcurrent => ?_⟩
    have howes := howed n hn hnflag hcurrent
    exact ⟨howes.isFinished, howes⟩

/-- However the atomic steps of waits, signals and requests to exit mix. -/
theorem waits_wakeful (s : Machine) (acts : List TrafficAct) : Wakeful s (after s acts) := by
  obtain ⟨hsound, hpaid⟩ := after_sound s acts
  constructor
  case signaled => exact fun p w event hasleep hevent hup => hsound.isUnfinished hasleep (.inr (List.mem_map_of_mem hevent)) hup
  case cancelled => exact fun p w hasleep hup => hsound.isUnfinished hasleep (.inl rfl) hup
  case acquired =>
    intro event hauto hclear
    have h := hpaid.paid event hauto
    rw [hclear, Bool.toNat_false] at h
    omega

/-- The signal of a blocked waiter's event, before the call goes on to wake the waiter. -/
example : let x := after default (.begin 5 [3] .never :: List.replicate 9 (.proceed 5) ++ [.signal 3])
    ((x.waits 5).any fun w => w.stage matches .parked) ∧ !x.machine.wakeUps.has 5 ∧ (x.machine.event 3).signaled := by
  decide

end Traffic

end Machine

end Microkernel
