import Microkernel.Error
import Microkernel.Wire.Decoder

/-!
# Service errors

Why the service manager refuses a request and why a command fails.
-/

namespace Microkernel

/-- Why the service manager refuses. -/
inductive RegistryError
  | alreadyRegistered (name : String)
  | notRegistered (name : String)
  /-- Empty, longer than eight bytes, not ASCII, or with a zero byte inside. -/
  | invalidName
  deriving DecidableEq, Repr

namespace RegistryError

def message : RegistryError → String
  | alreadyRegistered name => s!"service {name} is already registered"
  | notRegistered name => s!"service {name} is not registered"
  | invalidName => "invalid service name"

/-- The name under which reports list the error. -/
def name : RegistryError → String
  | alreadyRegistered _ => "AlreadyRegistered"
  | notRegistered _ => "NotRegistered"
  | invalidName => "InvalidName"

def code : RegistryError → ResultCode
  | alreadyRegistered _ => .alreadyRegistered
  | notRegistered _ => .notRegistered
  | invalidName => .invalidName

end RegistryError

/-- Why a command handler fails. -/
inductive ServiceError
  /-- The guest is told a result; the session stays open. -/
  | result (code : ResultCode)
  /-- The service cannot serve its session any longer. -/
  | corrupted (reason : String)
  | kernel (e : KernelError)
  | registry (e : RegistryError)
  | protocol (e : Wire.ProtocolError)
  deriving DecidableEq, Repr

namespace ServiceError

def message : ServiceError → String
  | result code => "result " ++ code.display
  | corrupted reason => "session state corrupted: " ++ reason
  | kernel e => "kernel: " ++ e.message
  | registry e => "sm: " ++ e.message
  | protocol e => "protocol: " ++ e.message

/-- The name under which reports list the error. -/
def name : ServiceError → String
  | result _ => "Result"
  | corrupted _ => "Corrupted"
  | kernel e => "Kernel." ++ e.name
  | registry e => "Sm." ++ e.name
  | protocol e => "Protocol." ++ e.name

/-- The code that the response carries. -/
def code : ServiceError → ResultCode
  | result code => code
  | corrupted _ => .handlerFailed
  | kernel e => e.code
  | registry e => e.code
  | protocol _ => .invalidInHeader

end ServiceError

end Microkernel
