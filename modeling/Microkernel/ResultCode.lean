import Microkernel.Text.Hex
import Microkernel.BitField

/-!
# Result codes

A result code packs a 9-bit module and a 13-bit description into one word, the module at the low end. Zero is success. The
constants below are what guests compare against.
-/

namespace Microkernel

/-- A packed result code. -/
structure ResultCode where
  raw : UInt32
  deriving DecidableEq, Repr, Inhabited

namespace ResultCode

/-- Packs a module and a description, each cut to its width. -/
def make (module description : Nat) : ResultCode := ⟨UInt32.ofNat (packFields [(9, module), (13, description)])⟩

/-- The code of a request that succeeded. -/
def success : ResultCode := ⟨0⟩

/-- The component that reports the code. -/
def module (code : ResultCode) : Nat := bits code.raw.toNat 0 9

/-- What went wrong inside the module. -/
def description (code : ResultCode) : Nat := bits code.raw.toNat 9 13

def isSuccess (code : ResultCode) : Bool := code.raw == 0

/-- A code as people quote it: the module counted from 2000, then the description, four digits each. -/
def display (code : ResultCode) : String :=
  Text.decimalPadded 4 (2000 + code.module) ++ "-" ++ Text.decimalPadded 4 code.description

/-- A code with its raw word, for diagnostics. -/
def debug (code : ResultCode) : String := s!"ResultCode({code.display}, {Text.hex code.raw.toNat})"

/-! ## The kernel's codes -/

def sessionCountExceeded : ResultCode := make 1 7
def invalidCapability : ResultCode := make 1 14
def threadTerminating : ResultCode := make 1 59
def invalidSize : ResultCode := make 1 101
def invalidAddress : ResultCode := make 1 102
def outOfResource : ResultCode := make 1 103
def outOfMemory : ResultCode := make 1 104
def outOfHandles : ResultCode := make 1 105
def invalidMemoryState : ResultCode := make 1 106
def invalidPermission : ResultCode := make 1 108
def invalidMemoryRange : ResultCode := make 1 110
def invalidPriority : ResultCode := make 1 112
def invalidCpuCore : ResultCode := make 1 113
def invalidHandle : ResultCode := make 1 114
def invalidCombination : ResultCode := make 1 116
def timedOut : ResultCode := make 1 117
def cancelled : ResultCode := make 1 118
def maximumExceeded : ResultCode := make 1 119
def invalidEnumValue : ResultCode := make 1 120
def notFound : ResultCode := make 1 121
def portRemoteClosed : ResultCode := make 1 123
def invalidState : ResultCode := make 1 125
def reservedValue : ResultCode := make 1 126
def portClosed : ResultCode := make 1 131

/-! ## The service framework's codes -/

def invalidHeaderSize : ResultCode := make 10 202
/-- A declared buffer is missing or smaller than its command requires. -/
def invalidBufferSize : ResultCode := make 10 203
def invalidInHeader : ResultCode := make 10 211
def unknownCommandId : ResultCode := make 10 221
/-- A command handler failed in a way that has no code of its own. -/
def handlerFailed : ResultCode := make 10 700

/-! ## The service manager's codes -/

def outOfProcesses : ResultCode := make 21 1
def invalidClient : ResultCode := make 21 2
def outOfSessions : ResultCode := make 21 3
def alreadyRegistered : ResultCode := make 21 4
def outOfServices : ResultCode := make 21 5
def invalidName : ResultCode := make 21 6
def notRegistered : ResultCode := make 21 7
def notAllowed : ResultCode := make 21 8

end ResultCode

end Microkernel
