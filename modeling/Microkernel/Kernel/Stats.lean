/-!
# Statistics

Of one kernel, and of all kernels of a system together.
-/

namespace Microkernel

/-! ## Statistics of one kernel -/

/-- What a kernel holds at one moment. -/
structure KernelStats where
  processes : Nat := 0
  applicationProcesses : Nat := 0
  threads : Nat := 0
  handles : Nat := 0
  namedPorts : Nat := 0
  freePages : Nat := 0
  ticks : Nat := 0
  paused : Bool := false
  deriving DecidableEq, Repr, Inhabited

/-!
## Machine metrics

Totals over every kernel of a system.
-/

/-- What the whole system holds at one moment. -/
structure SystemMetrics where
  processes : Nat := 0
  applicationProcesses : Nat := 0
  threads : Nat := 0
  handles : Nat := 0
  /-- The open sessions of all servers. -/
  sessions : Nat := 0
  registeredServices : Nat := 0
  freePages : Nat := 0
  /-- The clock of the main kernel. -/
  ticks : Nat := 0
  paused : Bool := false
  docked : Bool := false
  deriving DecidableEq, Repr, Inhabited

/-- Adds one kernel to the totals. -/
def SystemMetrics.add (m : SystemMetrics) (s : KernelStats) : SystemMetrics :=
  { m with
    processes := m.processes + s.processes
    applicationProcesses := m.applicationProcesses + s.applicationProcesses
    threads := m.threads + s.threads
    handles := m.handles + s.handles
    freePages := m.freePages + s.freePages }

end Microkernel
