import Std.Data.TreeMap
import Microkernel.AuditLog
import Microkernel.Config
import Microkernel.Memory.Region
import Microkernel.Object.Basic

/-!
# Kernels

A kernel owns a host's memory and clock, hands out process and thread ids, and knows its processes and named ports.
-/

namespace Microkernel

/-- The first pid of service hosts. -/
def firstServicePid : Nat := 1

/-- The first pid of applications. -/
def firstApplicationPid : Nat := 0x51

/-- A kernel. -/
structure Kernel where
  config : KernelConfig
  host : Host
  regions : List Region
  clock : TickClock
  /-- The processes that have been started and not yet reaped, by pid. -/
  processes : Std.TreeMap Nat RecordId := {}
  /-- The client ends of the named ports. -/
  namedPorts : Std.TreeMap String RecordId := {}
  nextServicePid : Nat := firstServicePid
  nextApplicationPid : Nat := firstApplicationPid
  nextThreadId : Nat := 1
  nextCreationOrder : Nat := 0
  audit : AuditLog
  paused : Bool := false
  shuttingDown : Bool := false
  deriving Inhabited

namespace Kernel

/-- A kernel over a host, which must have the memory that the configuration asks for. -/
def new (config : KernelConfig) (host : Host) : Except KernelError Kernel :=
  if host.memory.size < config.memoryArrange.totalSize then .error (.invalidSize host.memory.size)
  else .ok {
    config, host
    regions := Region.layout config.memoryArrange
    clock := .new host.now
    audit := .new config.auditLogCapacity }

def region (k : Kernel) (kind : RegionKind) : Region := (k.regions.find? (·.kind = kind)).getD default

/-- Changes the region of a kind. -/
def setRegion (k : Kernel) (r : Region) : Kernel :=
  { k with regions := k.regions.map fun old => if old.kind = r.kind then r else old }

/-- Guest nanoseconds since the kernel was made. -/
def elapsed (k : Kernel) : Nat := k.clock.elapsed k.host.now

/-- Guest ticks since the kernel was made. -/
def ticks (k : Kernel) : Nat := k.clock.ticks k.host.now

/-- Takes the next pid of a kind. -/
def takePid (k : Kernel) (isApplication : Bool) : Nat × Kernel :=
  if isApplication then (k.nextApplicationPid, { k with nextApplicationPid := k.nextApplicationPid + 1 })
  else (k.nextServicePid, { k with nextServicePid := k.nextServicePid + 1 })

/-- Records an event in the audit log. -/
def record (k : Kernel) (event : KernelEvent) : Nat × Kernel :=
  let (id, audit) := k.audit.record event k.elapsed
  (id, { k with audit })

end Kernel

end Microkernel
