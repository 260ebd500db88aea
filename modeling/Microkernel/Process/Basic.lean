import Microkernel.Capability.Parser
import Microkernel.Handle.Table
import Microkernel.Lifecycle
import Microkernel.Memory.AddressSpace
import Microkernel.Memory.Region
import Microkernel.Object.Basic
import Microkernel.Sync

/-!
# Processes
-/

namespace Microkernel

/-! ## What a loader knows about a process -/

/-- Creation flags: bit 6 marks an application, bits 7 to 10 name the pool of memory it allocates from. -/
structure ProcessFlags where
  bits : UInt32
  deriving DecidableEq, Repr, Inhabited

namespace ProcessFlags

/-- The pool number in the flags. -/
def pool (f : ProcessFlags) : Nat := Microkernel.bits f.bits.toNat 7 4

def isApplication (f : ProcessFlags) : Bool := f.bits.toNat.testBit 6

/-- An application in the application pool. -/
def application : ProcessFlags := ⟨0x40⟩

/-- A system process in the system pool. -/
def service : ProcessFlags := ⟨0x100⟩

/-- The region the process allocates from; a pool without a name means the service region. -/
def region (f : ProcessFlags) : RegionKind :=
  match f.pool with
  | 0 => .application
  | 1 => .applet
  | 3 => .nvServices
  | _ => .service

end ProcessFlags

/-- The description that a process is created from. -/
structure ProcessCreation where
  name : String
  version : UInt32
  programId : UInt64
  codeAddress : UInt64
  codePages : UInt64
  flags : ProcessFlags
  deriving DecidableEq, Repr, Inhabited

/-!
## Processes

A process owns a handle table, an address space and threads.
-/

/-- A process. -/
structure Process where
  kernel : RecordId
  pid : Nat
  name : String
  programId : Nat
  isApplication : Bool
  /-- The place in the order in which the kernel's processes were created. -/
  creationOrder : Nat
  capabilities : Capabilities
  /-- The region its memory comes from. -/
  region : RegionKind
  state : ProcessState := .created
  handles : HandleTable KernelObject
  threads : List RecordId := []
  space : AddressSpace := {}
  paused : Bool := false
  /-- Who waits for the process to be terminated. -/
  waiters : WaitList := {}
  deriving Inhabited

/-- The pid as the journal writes it. -/
def Process.pidText (p : Process) : String := Text.hex p.pid

end Microkernel
