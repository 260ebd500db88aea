/-!
# The clock and the audit log

What a kernel keeps of the times and the events of its past.
-/

namespace Microkernel

/-!
## The logical clock

Guest time is host time without the time spent suspended. It counts 19,200,000 ticks a second.
-/

/-- Ticks a second. -/
def tickFrequency : Nat := 19200000

def nanosPerSecond : Nat := 1000000000

/-- A clock that can be suspended; all times are host times in nanoseconds. -/
structure TickClock where
  /-- When the clock was made. -/
  epoch : Nat
  /-- When the suspension in force began. -/
  suspendedAt : Option Nat := none
  /-- The length of all suspensions that have ended. -/
  suspendedTotal : Nat := 0
  deriving DecidableEq, Repr, Inhabited

namespace TickClock

/-- A running clock. -/
def new (now : Nat) : TickClock := { epoch := now }

/-- Guest nanoseconds since the clock was made. -/
def elapsed (c : TickClock) (now : Nat) : Nat := c.suspendedAt.getD now - c.epoch - c.suspendedTotal

/-- Guest ticks since the clock was made. -/
def ticks (c : TickClock) (now : Nat) : Nat := c.elapsed now * tickFrequency / nanosPerSecond

/-- Stops guest time; while it stands still this changes nothing. -/
def suspend (c : TickClock) (now : Nat) : TickClock :=
  match c.suspendedAt with
  | some _ => c
  | none => { c with suspendedAt := some now }

/-- Lets guest time go on. -/
def resume (c : TickClock) (now : Nat) : TickClock :=
  match c.suspendedAt with
  | some start => { c with suspendedAt := none, suspendedTotal := c.suspendedTotal + (now - start) }
  | none => c

def isSuspended (c : TickClock) : Bool := c.suspendedAt.isSome

end TickClock

/-!
## The audit log

A bounded record of structural events. The oldest entries make room for new ones; entries are numbered for good.
-/

/-- What the audit log records. -/
inductive KernelEvent
  | processCreated (pid : Nat) (name : String) (isApplication : Bool)
  | processTerminated (pid : Nat)
  | namedPortRegistered (name : String)
  | serviceRegistered (name : String)
  | serviceUnregistered (name : String)
  | paused
  | resumed
  deriving DecidableEq, Repr, Inhabited

/-- An entry of the log. -/
structure AuditEntry where
  id : Nat
  /-- Guest nanoseconds when the event was recorded. -/
  timestamp : Nat
  event : KernelEvent
  deriving DecidableEq, Repr, Inhabited

/-- The log, oldest entry first. -/
structure AuditLog where
  capacity : Nat
  entries : List AuditEntry := []
  nextId : Nat := 0
  deriving DecidableEq, Repr, Inhabited

namespace AuditLog

/-- An empty log that keeps at least one entry. -/
def new (capacity : Nat) : AuditLog := { capacity := max capacity 1 }

/-- Appends an event; answers with its number. -/
def record (l : AuditLog) (event : KernelEvent) (timestamp : Nat) : Nat × AuditLog :=
  let entries := l.entries ++ [{ id := l.nextId, timestamp, event }]
  (l.nextId, { l with entries := entries.drop (entries.length - l.capacity), nextId := l.nextId + 1 })

/-- The last `count` entries, newest first. -/
def recent (l : AuditLog) (count : Nat) : List AuditEntry := l.entries.reverse.take count

end AuditLog

end Microkernel
