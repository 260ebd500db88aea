import Microkernel.Proofs.Machine.Keeps
import Microkernel.Proofs.Machine.Tables
import Microkernel.Proofs.Machine.WaitSteps

/-!
# What a signal pays for

A look that finds an automatic event signaled clears it, in one step. So however the steps of waits and signals mix, every such
look uses up a signal of its own (`Traffic.Paid`).
-/

namespace Microkernel

namespace Event

variable (e : Event)

/-- A look leaves the waiters of an event. -/
theorem waiters_tryAcquire : e.tryAcquire.2.waiters = e.waiters := by
  unfold tryAcquire clear
  split <;> rfl

/-- A look leaves the mode of an event. -/
theorem mode_tryAcquire : e.tryAcquire.2.mode = e.mode := by
  unfold tryAcquire clear
  split <;> rfl

/-- After a look an event is signaled if it was and is not automatic. -/
theorem signaled_tryAcquire : e.tryAcquire.2.signaled = (e.signaled && decide (e.mode ≠ .automatic)) := by
  unfold tryAcquire clear
  split
  · next h => rw [decide_eq_false (not_not_intro h), Bool.and_false]
  · next h => rw [decide_eq_true h, Bool.and_true]

variable {e} in
/-- A look sets no flag. -/
theorem signaled_of_tryAcquire (h : e.tryAcquire.2.signaled = true) : e.signaled = true := by
  rw [signaled_tryAcquire, Bool.and_eq_true] at h
  exact h.1

end Event

namespace Machine

/-! ## What the parts of a step do -/

variable (s : Machine) (id event other : RecordId) (e : Event)

/-- Setting one event leaves the others. -/
theorem event_setEvent : (setEvent id e s).2.event other = if other = id then e else s.event other :=
  Records.getD_insert _ _ _ _ _

/-- A look at an event finds it signaled or not, and clears it if it is automatic. -/
theorem tryAcquire_run : tryAcquire (.event event) s =
    ((s.event event).signaled, (setEvent event (s.event event).tryAcquire.2 s).2) := rfl

/-- A reset clears an event that is signaled, and fails for any other. -/
theorem resetEvent_run : (resetEvent event).run s =
    match (s.event event).reset with
    | .ok e => (.ok (), (setEvent event e s).2)
    | .error e => (.error e, s) := by
  rw [resetEvent, Action.run_look, Action.run_except_bind]
  cases (s.event event).reset <;> rfl

/-- Resetting an event clears it, or does nothing because it is clear. -/
theorem machine_resetEvent : ((resetEvent event).run s).2 =
    if (s.event event).signaled then (setEvent event (s.event event).clear s).2 else s := by
  rw [resetEvent_run, Event.reset]
  cases (s.event event).signaled <;> rfl

namespace Traffic

variable {s : Machine} {x y : Traffic} {p : ParkerId} {w : WaitCall} {event : RecordId} {e : Event}

/-- A look by a wait ends the round or is followed by the next look. -/
theorem proceed_look (x : Traffic) (p : ParkerId) {round : Round} {next : Nat} (hstage : w.stage = .looking round next)
    (h : w.objects[next]? = some event) : x.proceed p w = (x.look event).2.setWait p
      (if (x.machine.event event).signaled then w.found round next else { w with stage := .looking round (next + 1) }) := by
  have hfound : (x.look event).1 = (x.machine.event event).signaled := rfl
  obtain ⟨objects, timeout, stage⟩ := w
  obtain rfl : stage = .looking round next := hstage
  rw [Traffic.proceed, ← hfound]
  dsimp only at h ⊢
  rw [h]
  dsimp only
  rcases x.look event with ⟨_ | _, y⟩ <;> rfl

/-! ## The account of an event -/

/-- All flags that were set, oldest first. -/
def flags (x : Traffic) : List Flag := x.notices.map Notice.flag

/-- How often an event was signaled. -/
def signals (x : Traffic) (event : RecordId) : Nat := x.flags.count (.event event)

/-- A signal pays for one acquisition of an automatic event; the one that it still holds was not used yet. -/
structure Paid (s : Machine) (x : Traffic) : Prop where
  mode : ∀ event, (x.machine.event event).mode = (s.event event).mode
  paid : ∀ event, (s.event event).mode = .automatic →
    x.acquired.count event + (x.machine.event event).signaled.toNat ≤ x.signals event + (s.event event).signaled.toNat

namespace Paid

/-- At first nothing was acquired. -/
theorem start (s : Machine) : Paid s { machine := s } where
  mode _ := rfl
  paid _ _ := Nat.le_refl _

/-- An event changes: its flag is set only against a signal, and an acquisition takes it down. -/
theorem setEvent (h : Paid s x) {e : Event} (hmachine : y.machine = (Machine.setEvent event e x.machine).2)
    (hmode : e.mode = (x.machine.event event).mode)
    (hother : ∀ other, other ≠ event → y.acquired.count other = x.acquired.count other ∧ x.signals other ≤ y.signals other)
    (hpaid : (s.event event).mode = .automatic → y.acquired.count event + e.signaled.toNat + x.signals event ≤
      x.acquired.count event + (x.machine.event event).signaled.toNat + y.signals event) : Paid s y := by
  constructor
  case mode =>
    intro other
    rw [hmachine, event_setEvent, ← h.mode other]
    split
    · next heq => rw [heq, hmode]
    · rfl
  case paid =>
    intro other hauto
    have hbefore := h.paid other hauto
    rw [hmachine, event_setEvent]
    split
    · next heq =>
      rw [heq] at hauto hbefore ⊢
      have hnow := hpaid hauto
      omega
    · next hne =>
      obtain ⟨hacquired, hsignals⟩ := hother other hne
      omega

/-- Nothing was acquired, no flag was set. -/
theorem of_calm (h : Paid s x) (hacquired : y.acquired = x.acquired) (hflags : y.flags = x.flags)
    (hevents : ∀ event, y.machine.event event = x.machine.event event) : Paid s y where
  mode event := (congrArg Event.mode (hevents event)).trans (h.mode event)
  paid event hauto := by
    rw [hacquired, signals, hflags, hevents]
    exact h.paid event hauto

/-- An event changes, and no flag is set. -/
theorem of_setEvent (h : Paid s x) (hacquired : y.acquired = x.acquired) (hflags : y.flags = x.flags)
    (hmachine : y.machine = (Machine.setEvent event e x.machine).2) (hmode : e.mode = (x.machine.event event).mode)
    (hdown : e.signaled = true → (x.machine.event event).signaled = true) : Paid s y := by
  have hsignals (other : RecordId) : y.signals other = x.signals other := by rw [signals, hflags, signals]
  refine h.setEvent hmachine hmode (fun other _ => ⟨by rw [hacquired], Nat.le_of_eq (hsignals other).symm⟩) fun _ => ?_
  have hle : e.signaled.toNat ≤ (x.machine.event event).signaled.toNat := by
    cases hup : e.signaled with
    | true => exact Nat.le_of_eq (congrArg Bool.toNat (hdown hup).symm)
    | false => exact Nat.zero_le _
  rw [hacquired, hsignals]
  omega

/-! ## Steps -/

/-- Giving notice that a flag is down sets none. -/
theorem flags_lower (x : Traffic) (flag : Flag) : (x.lower flag).flags = x.flags := by
  have hflag (n : Notice) : (n.lower flag).flag = n.flag := by
    unfold Notice.lower
    split <;> rfl
  unfold flags Traffic.lower
  dsimp only
  split
  · rfl
  · rw [List.map_map]
    exact List.map_congr_left fun n _ => hflag n

/-- What a wait remembers of itself is no acquisition. -/
theorem setWait (h : Paid s x) (p : ParkerId) (w : WaitCall) : Paid s (x.setWait p w) :=
  h.of_calm rfl rfl fun _ => rfl

/-- A flag that is lowered is no acquisition. -/
theorem lower (h : Paid s x) (flag : Flag) : Paid s (x.lower flag) :=
  h.of_calm rfl (flags_lower x flag) fun _ => rfl

/-- A look that finds an automatic event signaled leaves it unsignaled. -/
theorem look (h : Paid s x) (event : RecordId) : Paid s (x.look event).2 := by
  let y : Traffic := { x with
    machine := (Machine.setEvent event (x.machine.event event).tryAcquire.2 x.machine).2
    acquired := if (x.machine.event event).signaled then x.acquired ++ [event] else x.acquired }
  have hy : Paid s y := by
    refine h.setEvent rfl (Event.mode_tryAcquire _) (fun other hne => ⟨?_, Nat.le_refl _⟩) fun hauto => ?_
    · change List.count other (ite _ _ _) = _
      split
      · rw [List.count_append, List.count_singleton, beq_false_of_ne hne.symm]
        rfl
      · rfl
    · change List.count event (ite _ _ _) + _ + x.signals event ≤ _ + x.signals event
      rw [Event.signaled_tryAcquire, h.mode, hauto]
      cases (x.machine.event event).signaled with
      | true =>
        rw [if_pos rfl, List.count_append, List.count_singleton_self]
        exact Nat.le_refl _
      | false => exact Nat.le_refl _
  exact hy.lower _

/-- A parker that parks acquires nothing by it. -/
theorem park (h : Paid s x) : Paid s (x.park p w) := by
  unfold Traffic.park
  split
  · exact h.of_calm rfl rfl fun _ => rfl
  · exact h.setWait p _

/-- A wait that goes on has paid for what it acquires. -/
theorem proceed (h : Paid s x) : Paid s (x.proceed p w) := by
  have hrelist (event : RecordId) (l : WaitList) :
      Paid s (x.run (Machine.setEvent event { x.machine.event event with waiters := l })) :=
    h.of_setEvent rfl rfl rfl rfl id
  unfold Traffic.proceed
  dsimp only
  split
  · exact h.setWait p _
  · split
    · exact h.setWait p _
    · next event _ =>
      have hlook := h.look event
      split <;> next heq =>
        rw [heq] at hlook
        exact hlook.setWait p _
  · split
    · exact h.setWait p _
    · split
      · exact h
      · exact (hrelist _ _).setWait p _
  · exact h.setWait p _
  · exact h.park
  · exact h.park
  · split
    · exact h.setWait p _
    · split
      · exact h
      · exact (hrelist _ _).setWait p _
  · exact h

/-- Changing an entry of a list changes nothing that the entry keeps. -/
theorem map_modify {α β : Type} {f : α → α} {g : α → β} (h : ∀ a, g (f a) = g a) (l : List α) (i : Nat) :
    (l.modify i f).map g = l.map g := by
  refine List.ext_getElem? fun j => ?_
  rw [List.getElem?_map, List.getElem?_modify, List.getElem?_map]
  cases l[j]? with
  | none => rfl
  | some a => split <;> simp [h]

/-- A call goes on that has set a flag. -/
theorem attend (h : Paid s x) {number : Nat} {f : Notice → Notice} (hacquired : y.acquired = x.acquired)
    (hnotices : y.notices = x.notices.modify number f) (hf : ∀ n, (f n).flag = n.flag)
    (hevents : ∀ event, y.machine.event event = x.machine.event event) : Paid s y := by
  refine h.of_calm hacquired ?_ hevents
  rw [flags, hnotices, map_modify hf, flags]

/-- A signal pays for the next acquisition. -/
theorem signal (h : Paid s x) (event : RecordId) : Paid s (x.step (.signal event)) := by
  have hflags : (x.step (.signal event)).flags = x.flags ++ [.event event] := List.map_append
  refine h.setEvent rfl rfl (fun other hne => ⟨rfl, ?_⟩) fun _ => ?_
  · rw [signals, signals, hflags, List.count_append]
    exact Nat.le_add_right _ _
  · rw [signals, signals, hflags, List.count_append, List.count_singleton_self, Event.raise, Bool.toNat_true]
    change x.acquired.count event + 1 + _ ≤ _
    omega

/-- A request to exit pays for nothing and acquires nothing. -/
theorem askToExit (h : Paid s x) (thread : ParkerId) : Paid s (x.step (.askToExit thread)) where
  mode := h.mode
  paid event hauto := by
    have hflags : (x.step (.askToExit thread)).flags = x.flags ++ [.exit thread] := List.map_append
    rw [signals, hflags, List.count_append]
    exact Nat.le_trans (h.paid event hauto) (by simp only [signals]; omega)

/-- Every step keeps the account. -/
theorem step (h : Paid s x) (a : TrafficAct) : Paid s (x.step a) := by
  cases a with
  | begin p objects timeout =>
    unfold Traffic.step
    dsimp only
    split
    · exact h.setWait p _
    · exact h
  | proceed p =>
    unfold Traffic.step
    dsimp only
    split
    · exact h.proceed
    · exact h
  | expire p =>
    unfold Traffic.step
    dsimp only
    split
    · split
      · exact h.setWait p _
      · exact h
    · exact h
  | signal event => exact h.signal event
  | askToExit thread => exact h.askToExit thread
  | takeList number =>
    unfold Traffic.step Traffic.takeList
    dsimp only
    split
    · split
      · exact h
      · exact h.attend rfl rfl (fun _ => rfl) fun _ => rfl
    · exact h
  | deliver number p =>
    unfold Traffic.step Traffic.deliver
    dsimp only
    split
    · split
      · exact h.attend rfl rfl (fun _ => rfl) fun _ => rfl
      · exact h
    · exact h
  | clear event =>
    have hcleared : Paid s (x.run (clearEvent event)) := h.of_setEvent rfl rfl rfl rfl nofun
    exact hcleared.lower _
  | reset event =>
    have hreset : Paid s (x.run (Action.forget (resetEvent event))) := by
      have hrun : (x.run (Action.forget (resetEvent event))).machine = _ := machine_resetEvent x.machine event
      split at hrun
      · exact h.of_setEvent rfl rfl hrun rfl nofun
      · exact h.of_calm rfl rfl fun _ => congrArg (fun s : Machine => s.event _) hrun
    exact hreset.lower _

end Paid

end Traffic

end Machine

end Microkernel
