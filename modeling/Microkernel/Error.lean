import Microkernel.Capability.Parser
import Microkernel.Handle.Table
import Microkernel.Memory.Host

/-!
# Kernel errors

The reasons for which kernel operations fail, with their wording and the result codes that guests see.
-/

namespace Microkernel

/-- Why a kernel operation fails. -/
inductive KernelError
  | outOfHandles
  | invalidHandle (handle : Nat)
  /-- A mapping conflicts with what is mapped, or asks for more than is granted. -/
  | invalidMemoryState
  | invalidPermission
  | invalidAddress (address : Nat)
  | invalidSize (size : Nat)
  | outOfMemory
  | timedOut
  /-- The calling thread was asked to end. -/
  | terminationRequested
  /-- The caller's mask does not name the call. -/
  | notPermitted (call : Nat)
  | portClosed
  | sessionClosed
  | sessionLimit
  | notFound
  | invalidState
  | invalidPriority (priority : Nat)
  | maximumExceeded
  | capability (e : CapabilityError)
  /-- The thread that tears the session down did not start; going on is unsafe. -/
  | terminationThreadStalled
  | hostThread (reason : String)
  | host (e : HostError)
  /-- An address or a size left the 64-bit range; the operation is stopped, not answered. -/
  | overflow
  deriving DecidableEq, Repr

namespace KernelError

def message : KernelError → String
  | outOfHandles => "handle table exhausted"
  | invalidHandle handle => s!"invalid handle {Text.hex handle}"
  | invalidMemoryState => "invalid memory state"
  | invalidPermission => "invalid permission"
  | invalidAddress address => s!"invalid address {Text.hex address}"
  | invalidSize size => s!"invalid size {Text.hex size}"
  | outOfMemory => "out of memory"
  | timedOut => "timed out"
  | terminationRequested => "thread termination requested"
  | notPermitted call => s!"supervisor call {Text.hex call} not permitted"
  | portClosed => "port closed"
  | sessionClosed => "session closed by the remote side"
  | sessionLimit => "port session limit reached"
  | notFound => "not found"
  | invalidState => "invalid state"
  | invalidPriority priority => s!"priority {priority} not allowed"
  | maximumExceeded => "too many objects"
  | capability e => "capability: " ++ e.message
  | terminationThreadStalled => "termination thread failed to start"
  | hostThread reason => "host thread: " ++ reason
  | host e => "hal: " ++ e.message
  | overflow => "arithmetic overflow"

/-- The name under which reports list the error. -/
def name : KernelError → String
  | outOfHandles => "OutOfHandles"
  | invalidHandle _ => "InvalidHandle"
  | invalidMemoryState => "InvalidMemoryState"
  | invalidPermission => "InvalidPermission"
  | invalidAddress _ => "InvalidAddress"
  | invalidSize _ => "InvalidSize"
  | outOfMemory => "OutOfMemory"
  | timedOut => "TimedOut"
  | terminationRequested => "TerminationRequested"
  | notPermitted _ => "NotPermitted"
  | portClosed => "PortClosed"
  | sessionClosed => "SessionClosed"
  | sessionLimit => "SessionLimit"
  | notFound => "NotFound"
  | invalidState => "InvalidState"
  | invalidPriority _ => "InvalidPriority"
  | maximumExceeded => "MaximumExceeded"
  | capability e => "Capability." ++ e.name
  | terminationThreadStalled => "TerminationThreadStalled"
  | hostThread _ => "HostThread"
  | host e => "Hal." ++ e.name
  | overflow => "Overflow"

def code : KernelError → ResultCode
  | outOfHandles => .outOfHandles
  | invalidHandle _ => .invalidHandle
  | invalidMemoryState => .invalidMemoryState
  | invalidPermission => .invalidPermission
  | invalidAddress _ => .invalidAddress
  | invalidSize _ => .invalidSize
  | outOfMemory => .outOfMemory
  | timedOut => .timedOut
  | terminationRequested => .threadTerminating
  | notPermitted _ => .invalidCapability
  | portClosed => .portClosed
  | sessionClosed => .portRemoteClosed
  | sessionLimit => .sessionCountExceeded
  | notFound => .notFound
  | invalidState => .invalidState
  | invalidPriority _ => .invalidPriority
  | maximumExceeded => .maximumExceeded
  | capability e => e.code
  | terminationThreadStalled => .invalidState
  | hostThread _ => .outOfResource
  | host _ => .invalidMemoryRange
  | overflow => .invalidState

/-- Whether the session must not go on. -/
def isFatal (e : KernelError) : Bool := e = terminationThreadStalled

/-- Whether the operation was stopped by arithmetic and has no answer. -/
def isOverflow : KernelError → Bool
  | overflow => true
  | capability (.overflow _) => true
  | _ => false

def ofHandleError : HandleError → KernelError
  | .outOfHandles _ => outOfHandles
  | .invalidHandle handle => invalidHandle handle.raw.toNat

end KernelError

end Microkernel
