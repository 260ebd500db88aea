import Mathlib.Logic.Function.Basic
import Microkernel.Supervisor.MessageQueue

/-!
# Message queues under many callers

A push is two atomic steps, the item first and the signal behind it, and a pop is one; waits look at the event in between. In every
interleaving the items come out in the order in which they went in, and the event is signaled as long as an item is queued whose push
is over (`messages_kept`). That it is signaled for no other reason holds only where calls do not overlap: a pop can empty the queue
before the item's push comes to its signal. The two steps of a push in a row are the program's push (`queue_push`).
-/

namespace Microkernel

variable {α : Type}

namespace MessageQueue

/-- The popped item is the first, and the others stay. -/
theorem pop_items (q : MessageQueue α) : q.pop.1.toList ++ q.pop.2.items = q.items := by
  rw [pop]
  split <;> simp_all

/-- A pop clears the event exactly if nothing is left. -/
theorem pop_event (q : MessageQueue α) : q.pop.2.event = if q.pop.2.items = [] then q.event.clear else q.event := by
  rw [pop]
  split
  · next h => rw [if_pos h]
  · simp only [List.isEmpty_iff]

end MessageQueue

/-- A queue and the callers at work on it. Items have numbers, in the order in which they were appended. -/
structure Exchange (α : Type) where
  queue : MessageQueue α := {}
  /-- The number of the item that a caller has appended and not signaled yet. -/
  inFlight : Nat → Option Nat := fun _ => none
  /-- Every item that was ever appended. -/
  appended : List α := []
  /-- What pops gave out. -/
  taken : List α := []

namespace Exchange

/-- One atomic step. -/
inductive Step (α : Type)
  /-- The first half of a push. -/
  | append (caller : Nat) (item : α)
  /-- The second half of a push: the signal. -/
  | announce (caller : Nat)
  | pop (caller : Nat)
  /-- A wait looks at the event. -/
  | look

/-- What a step does. A caller takes one step after the other: it begins no call while it is in a push. -/
def step (x : Exchange α) : Step α → Exchange α
  | .append caller item =>
    match x.inFlight caller with
    | none =>
      { x with
        queue := x.queue.append item
        inFlight := Function.update x.inFlight caller (some x.appended.length)
        appended := x.appended ++ [item] }
    | some _ => x
  | .announce caller =>
    match x.inFlight caller with
    | none => x
    | some _ => { x with queue := x.queue.announce, inFlight := Function.update x.inFlight caller none }
  | .pop caller =>
    match x.inFlight caller with
    | none => { x with queue := x.queue.pop.2, taken := x.taken ++ x.queue.pop.1.toList }
    | some _ => x
  | .look => { x with queue := { x.queue with event := x.queue.event.tryAcquire.2 } }

/-- A run from an empty queue. -/
def after (steps : List (Step α)) : Exchange α := steps.foldl step {}

/-- The item of this number is queued, and its push is over. -/
structure Announced (x : Exchange α) (number : Nat) : Prop where
  left : x.taken.length ≤ number
  appended : number < x.appended.length
  completed : ∀ caller, x.inFlight caller ≠ some number

/-- Nobody is in a push. -/
def AtRest (x : Exchange α) : Prop := ∀ caller, x.inFlight caller = none

/-- No call begins while a push is under way. -/
def Serial (x : Exchange α) : List (Step α) → Prop
  | [] => True
  | .append caller item :: rest => x.AtRest ∧ Serial (x.step (.append caller item)) rest
  | .pop caller :: rest => x.AtRest ∧ Serial (x.step (.pop caller)) rest
  | .announce caller :: rest => Serial (x.step (.announce caller)) rest
  | .look :: rest => Serial (x.step .look) rest

variable {x : Exchange α} {caller number : Nat} {item : α} {steps : List (Step α)}

/-- The two steps of a push, taken without one of anybody else in between. -/
theorem queue_push (h : x.inFlight caller = none) (item : α) :
    ((x.step (.append caller item)).step (.announce caller)).queue = x.queue.push item := by
  simp [step, h, MessageQueue.push]

example : ((({} : Exchange Char).step (.append 1 'a')).step (.announce 1)).queue = ({} : MessageQueue Char).push 'a' := queue_push rfl 'a'

/-- Appending takes nothing out. -/
theorem taken_append (hidle : x.inFlight caller = none) (item : α) : (x.step (.append caller item)).taken = x.taken := by rw [step, hidle]

/-- Appending adds one item. -/
theorem length_appended_append (hidle : x.inFlight caller = none) (item : α) :
    (x.step (.append caller item)).appended.length = x.appended.length + 1 := by
  rw [step, hidle]
  exact List.length_append

/-- A caller that has appended is in a push of the new item. -/
theorem inFlight_append (hidle : x.inFlight caller = none) (item : α) (other : Nat) :
    (x.step (.append caller item)).inFlight other = if other = caller then some x.appended.length else x.inFlight other := by
  rw [step, hidle]
  exact Function.update_apply _ _ _ _

/-- A caller that has announced is in no push. -/
theorem inFlight_announce (caller other : Nat) :
    (x.step (.announce caller)).inFlight other = if other = caller then none else x.inFlight other := by
  rw [step]
  split
  · next hidle =>
    split
    · next hother => rw [hother, hidle]
    · rfl
  · exact Function.update_apply _ _ _ _

/-- A new item is in flight, and what was announced before still is. -/
theorem announced_append (hidle : x.inFlight caller = none) (item : α) (number : Nat) :
    (x.step (.append caller item)).Announced number ↔ x.Announced number := by
  have htaken := taken_append hidle item
  have happended := length_appended_append hidle item
  constructor
  · rintro ⟨hleft, hlt, hcompleted⟩
    rw [htaken] at hleft
    have hother (other : Nat) := hcompleted other
    simp only [inFlight_append hidle] at hother
    have hnew : x.appended.length ≠ number := fun h => hother caller (by rw [if_pos rfl, h])
    refine ⟨hleft, by omega, fun other hflight => ?_⟩
    by_cases hcaller : other = caller
    · rw [hcaller, hidle] at hflight
      cases hflight
    · exact hother other (by rw [if_neg hcaller, hflight])
  · rintro ⟨hleft, hlt, hcompleted⟩
    refine ⟨htaken ▸ hleft, by omega, fun other => ?_⟩
    rw [inFlight_append hidle]
    split
    · exact fun h => Nat.lt_irrefl _ (Option.some.inj h ▸ hlt)
    · exact hcompleted other

/-- An announced item is in a queue that is not empty. -/
theorem Announced.items_ne_nil (h : x.Announced number) (horder : x.taken ++ x.queue.items = x.appended) : x.queue.items ≠ [] := by
  intro hnil
  have hlt := Nat.lt_of_le_of_lt h.left h.appended
  rw [← horder, hnil, List.append_nil] at hlt
  exact Nat.lt_irrefl _ hlt

/-! ## Every interleaving -/

/-- What every step preserves. -/
structure Sound (x : Exchange α) : Prop where
  manual : x.queue.event.mode = .manual
  order : x.taken ++ x.queue.items = x.appended
  signaled : ∀ number, x.Announced number → x.queue.event.signaled = true

namespace Sound

/-- The empty queue is sound. -/
theorem empty : Sound ({} : Exchange α) := ⟨rfl, rfl, fun _ h => absurd h.appended (Nat.not_lt_zero _)⟩

/-- While nobody is in a push, the push of every queued item is over. -/
theorem announced_of_atRest (h : x.Sound) (hrest : x.AtRest) (hsome : x.queue.items ≠ []) : x.Announced x.taken.length := by
  refine ⟨Nat.le_refl _, ?_, fun caller => by rw [hrest]; nofun⟩
  rw [← h.order, List.length_append]
  exact Nat.lt_add_of_pos_right (List.length_pos_iff.2 hsome)

/-- Appending keeps a queue sound. -/
theorem append (h : x.Sound) (caller : Nat) (item : α) : (x.step (.append caller item)).Sound := by
  cases hcaller : x.inFlight caller with
  | some => rwa [step, hcaller]
  | none =>
    have hannounced := announced_append hcaller item
    rw [step, hcaller] at hannounced ⊢
    refine ⟨h.manual, ?_, fun number hnew => h.signaled number ((hannounced number).1 hnew)⟩
    rw [MessageQueue.append, ← List.append_assoc, h.order]

/-- Announcing keeps a queue sound. -/
theorem announce (h : x.Sound) (caller : Nat) : (x.step (.announce caller)).Sound := by
  rw [step]
  split
  · exact h
  · exact ⟨h.manual, h.order, fun _ _ => rfl⟩

/-- A pop that clears the event leaves no item. -/
theorem pop (h : x.Sound) (caller : Nat) : (x.step (.pop caller)).Sound := by
  rw [step]
  split
  · have horder : (x.taken ++ x.queue.pop.1.toList) ++ x.queue.pop.2.items = x.appended := by
      rw [List.append_assoc, x.queue.pop_items, h.order]
    have hlength : x.taken.length ≤ (x.taken ++ x.queue.pop.1.toList).length := by
      rw [List.length_append]
      exact Nat.le_add_right _ _
    have hmanual : x.queue.pop.2.event.mode = .manual := by
      rw [x.queue.pop_event]
      split <;> exact h.manual
    refine ⟨hmanual, horder, fun number hleft => ?_⟩
    rw [x.queue.pop_event, if_neg (hleft.items_ne_nil horder)]
    exact h.signaled number ⟨Nat.le_trans hlength hleft.left, hleft.appended, hleft.completed⟩
  · exact h

/-- A wait that looks changes nothing of a queue that is sound. -/
theorem look_eq (h : x.Sound) : x.step .look = x := by
  have hevent : x.queue.event.tryAcquire.2 = x.queue.event := by
    rw [Event.tryAcquire, h.manual]
    rfl
  rw [Exchange.step, hevent]

/-- Every step keeps a queue sound. -/
theorem step (h : x.Sound) (action : Step α) : (x.step action).Sound := by
  cases action with
  | append caller item => exact h.append caller item
  | announce caller => exact h.announce caller
  | pop caller => exact h.pop caller
  | look => rwa [h.look_eq]

/-- Steps one after the other keep a queue sound. -/
theorem foldl (h : x.Sound) (steps : List (Step α)) : (steps.foldl Exchange.step x).Sound := by
  induction steps generalizing x with
  | nil => exact h
  | cons action rest ih => exact ih (h.step action)

end Sound

/-! ## Calls that do not overlap -/

/-- What the steps of calls preserve that do not overlap: if a push is under way, it is the only one and that of the last item, which
nobody took, and there is a reason for the signal. -/
structure Exact (x : Exchange α) : Prop extends Sound x where
  last : ∀ caller number, x.inFlight caller = some number → x.taken.length ≤ number ∧ number + 1 = x.appended.length
  alone : ∀ caller other number, x.inFlight caller = some number → other ≠ caller → x.inFlight other = none
  reason : x.queue.event.signaled = true → ∃ number, x.Announced number

namespace Exact

/-- The empty queue is exact. -/
theorem empty : Exact ({} : Exchange α) := ⟨.empty, fun _ _ => nofun, fun _ _ _ => nofun, nofun⟩

/-- Appending keeps a queue exact if nobody is in a push. -/
theorem append (h : x.Exact) (hrest : x.AtRest) (caller : Nat) (item : α) : (x.step (.append caller item)).Exact := by
  have hflight := inFlight_append (hrest caller) item
  refine ⟨h.toSound.append caller item, fun other number hother => ?_, fun other third number hother hne => ?_, fun hsignaled => ?_⟩
  · rw [hflight] at hother
    split at hother
    · cases hother
      rw [taken_append (hrest caller), length_appended_append (hrest caller), ← h.order, List.length_append]
      exact ⟨Nat.le_add_right _ _, rfl⟩
    · rw [hrest] at hother
      cases hother
  · rw [hflight] at hother ⊢
    split at hother
    · next hcaller => rw [if_neg (hcaller ▸ hne), hrest]
    · rw [hrest] at hother
      cases hother
  · rw [step, hrest caller] at hsignaled
    obtain ⟨number, hreason⟩ := h.reason hsignaled
    exact ⟨number, (announced_append (hrest caller) item number).2 hreason⟩

/-- The item that was in flight is the reason for the signal. -/
theorem announce (h : x.Exact) (caller : Nat) : (x.step (.announce caller)).Exact := by
  cases hcaller : x.inFlight caller with
  | none => rwa [step, hcaller]
  | some number =>
    have hflight : ∀ other, (x.step (.announce caller)).inFlight other = none := fun other => by
      rw [inFlight_announce]
      split
      · rfl
      · next hne => exact h.alone caller other number hcaller hne
    obtain ⟨hleft, hlast⟩ := h.last caller number hcaller
    refine ⟨h.toSound.announce caller, fun other k hother => ?_, fun other _ k hother => ?_, fun _ => ⟨number, ?_, ?_, fun other => ?_⟩⟩
    · rw [hflight] at hother
      cases hother
    · rw [hflight] at hother
      cases hother
    · rwa [step, hcaller]
    · rw [step, hcaller]
      exact Nat.lt_of_succ_le (Nat.le_of_eq hlast)
    · rw [hflight]
      nofun

/-- The event of a queue with something left was signaled before. -/
theorem pop (h : x.Exact) (hrest : x.AtRest) (caller : Nat) : (x.step (.pop caller)).Exact := by
  have hsound := h.toSound.pop caller
  rw [step, hrest caller] at hsound ⊢
  refine ⟨hsound, fun other number hother => ?_, fun other _ number hother => ?_, fun hsignaled => ?_⟩
  · rw [hrest] at hother
    cases hother
  · rw [hrest] at hother
    cases hother
  · refine ⟨_, hsound.announced_of_atRest hrest fun hnil => ?_⟩
    rw [x.queue.pop_event, if_pos hnil] at hsignaled
    cases hsignaled

/-- Calls that do not overlap keep a queue exact. -/
theorem foldl (h : x.Exact) (hserial : x.Serial steps) : (steps.foldl Exchange.step x).Exact := by
  induction steps generalizing x with
  | nil => exact h
  | cons action rest ih =>
    cases action with
    | append caller item => exact ih (h.append hserial.1 caller item) hserial.2
    | pop caller => exact ih (h.pop hserial.1 caller) hserial.2
    | announce caller => exact ih (h.announce caller) hserial
    | look =>
      rw [List.foldl_cons, h.look_eq]
      exact ih h (h.look_eq ▸ hserial)

end Exact

/-- A pop that overtakes the signal of the item's push leaves the event of an empty queue signaled. -/
example : (after [.append 1 'a', .pop 2, .announce 1]).queue.event.signaled = true ∧
    (after [.append 1 'a', .pop 2, .announce 1]).queue.items = [] := by decide

end Exchange

end Microkernel
