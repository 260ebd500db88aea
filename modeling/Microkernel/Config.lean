import Microkernel.Journal
import Microkernel.Memory.Region

/-!
# Configuration
-/

namespace Microkernel

/-- How a kernel is set up. -/
structure KernelConfig where
  memoryArrange : MemoryArrange := .mib4096
  /-- The cores that capabilities may name; service hosts run on the last one. -/
  cpuCoreCount : UInt32 := 4
  /-- The handle table capacity of a process whose capabilities name none. -/
  defaultHandleTableSize : Nat := 1024
  /-- How long a shutdown waits for its thread to start, in milliseconds. -/
  terminationStartTimeout : Nat := 1000
  /-- The entries that the audit log keeps. -/
  auditLogCapacity : Nat := 1000
  deriving DecidableEq, Repr, Inhabited

/-- How a supervisor is set up. -/
structure SupervisorConfig where
  kernel : KernelConfig := {}
  dockedMode : Bool := false
  /-- Whether services run in the applet context once one is attached. -/
  isApplet : Bool := false
  /-- Whether a session to a name that nobody serves is handed out all the same. -/
  ignoreMissingServices : Bool := false
  logLevel : LevelFilter := some .info
  deriving DecidableEq, Repr, Inhabited

end Microkernel
