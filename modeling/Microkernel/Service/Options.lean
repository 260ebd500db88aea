import Microkernel.Object.Basic

/-!
# How a server runs and what it serves
-/

namespace Microkernel

/-! ## How a server runs -/

/-- The priority of a service host's thread. -/
def servicePriority : UInt32 := 44

/-- The pointer buffer that a server offers to its clients. -/
def defaultPointerBufferSize : UInt16 := 0x8000

/-- Options of a server. -/
structure ServerOptions where
  priority : UInt32 := servicePriority
  pointerBufferSize : UInt16 := defaultPointerBufferSize
  deriving DecidableEq, Repr, Inhabited

/-! ## Served sessions -/

/-- The server end of a session and the service instance that answers it. -/
structure SessionEntry where
  session : RecordId
  service : RecordId
  deriving DecidableEq, Repr, Inhabited

end Microkernel
