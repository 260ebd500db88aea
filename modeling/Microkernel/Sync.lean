import Microkernel.Error

/-!
# Waiting and waking

What blocked threads stand on, how long they stay there, and the flag that lets them go.
-/

namespace Microkernel

/-!
## Wait lists and wake-ups

Whoever blocks on an object puts its parker on the object's wait list. A wake-up is a token that the parker keeps until it is next
parked, so one that comes early is not lost.
-/

/-- The most objects a thread can wait on. -/
def maxWaitObjects : Nat := 64

/-- Names a parker: the thread, or the caller outside any thread, that blocks. -/
abbrev ParkerId := Nat

/-- The parkers blocked on one object. -/
structure WaitList where
  parkers : List ParkerId := []
  deriving DecidableEq, Repr, Inhabited

namespace WaitList

/-- Puts a parker on the list; one that waits twice stands on it twice. -/
def register (l : WaitList) (p : ParkerId) : WaitList := ⟨l.parkers ++ [p]⟩

/-- Takes the first entry of a parker off the list; the last entry takes its place. -/
def unregister (l : WaitList) (p : ParkerId) : WaitList :=
  match l.parkers.idxOf? p with
  | some i => ⟨(l.parkers.set i (l.parkers.getLast?.getD p)).dropLast⟩
  | none => l

def length (l : WaitList) : Nat := l.parkers.length

def isEmpty (l : WaitList) : Bool := l.parkers.isEmpty

end WaitList

/-- The parkers that hold a wake-up. -/
structure WakeUps where
  pending : List ParkerId := []
  deriving DecidableEq, Repr, Inhabited

namespace WakeUps

def has (w : WakeUps) (p : ParkerId) : Bool := w.pending.contains p

/-- Gives a wake-up to a parker; one that holds a wake-up keeps it. -/
def give (w : WakeUps) (p : ParkerId) : WakeUps := if w.has p then w else ⟨p :: w.pending⟩

/-- Takes the wake-up of a parker away. -/
def take (w : WakeUps) (p : ParkerId) : WakeUps := ⟨w.pending.filter (· ≠ p)⟩

/-- Gives a wake-up to every parker of a list. -/
def giveAll (w : WakeUps) (l : WaitList) : WakeUps := l.parkers.foldl give w

end WakeUps

/-! ## Time limits of a wait -/

/-- How long a wait may block. -/
inductive Timeout
  /-- Look once. -/
  | immediate
  | after (nanos : Nat)
  | never
  deriving DecidableEq, Repr, Inhabited

namespace Timeout

/-- The limit that a guest's word stands for: a negative one waits without end, zero looks once. -/
def ofNanos : Int → Timeout
  | .negSucc _ => never
  | .ofNat 0 => immediate
  | .ofNat (n + 1) => after (n + 1)

end Timeout

/-!
## Events

A flag that can be waited on. A manual event stays signaled until it is cleared; an automatic one is cleared by the first wait that
finds it signaled.
-/

/-- How an event returns to the unsignaled state. -/
inductive ResetMode
  | manual
  | automatic
  deriving DecidableEq, Repr, Inhabited

/-- An event. -/
structure Event where
  mode : ResetMode := .manual
  signaled : Bool := false
  waiters : WaitList := {}
  deriving DecidableEq, Repr, Inhabited

namespace Event

/-- Sets the flag; the waiters still have to be woken. -/
def raise (e : Event) : Event := { e with signaled := true }

/-- Drops the flag, whether or not it was set. -/
def clear (e : Event) : Event := { e with signaled := false }

/-- Drops a flag that must be set. -/
def reset (e : Event) : Except KernelError Event := if e.signaled then .ok e.clear else .error .invalidState

/-- Whether a wait on the event ends now, and the event after it. -/
def tryAcquire (e : Event) : Bool × Event :=
  (e.signaled, if e.mode = .automatic then e.clear else e)

end Event

end Microkernel
