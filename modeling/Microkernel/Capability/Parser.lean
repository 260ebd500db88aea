import Microkernel.Capability.Descriptor
import Microkernel.ResultCode

/-!
# Parsed capabilities

`Capabilities.parse` reads the capability words a process is created with. It refuses unknown kinds, cores that the machine does
not have, inverted ranges and a second word for a slot that is already taken; a call that no word names stays denied.
-/

namespace Microkernel

/-- Why a capability list is refused; each reason names the word at fault. -/
inductive CapabilityError
  /-- Two words claim one slot, a range is inverted, or half of a pair is missing. -/
  | invalidCombination (word : UInt32)
  /-- A core that the machine does not have. -/
  | invalidCpuCore (word : UInt32)
  /-- A payload uses reserved values. -/
  | reservedValue (word : UInt32)
  /-- The kind is unknown. -/
  | invalidCapability (word : UInt32)
  /-- A core number is no position in a core mask. -/
  | overflow (word : UInt32)
  deriving DecidableEq, Repr

namespace CapabilityError

private def writeWord (word : UInt32) : String := "0x" ++ Text.hexPadded 8 word.toNat

def message : CapabilityError → String
  | invalidCombination word => s!"invalid combination in descriptor {writeWord word}"
  | invalidCpuCore word => s!"invalid cpu core in descriptor {writeWord word}"
  | reservedValue word => s!"reserved value in descriptor {writeWord word}"
  | invalidCapability word => s!"unknown capability descriptor {writeWord word}"
  | overflow word => s!"core number out of range in descriptor {writeWord word}"

/-- The name under which reports list the error. -/
def name : CapabilityError → String
  | invalidCombination _ => "InvalidCombination"
  | invalidCpuCore _ => "InvalidCpuCore"
  | reservedValue _ => "ReservedValue"
  | invalidCapability _ => "InvalidCapability"
  | overflow _ => "Overflow"

def code : CapabilityError → ResultCode
  | invalidCombination _ => .invalidCombination
  | invalidCpuCore _ => .invalidCpuCore
  | reservedValue _ => .reservedValue
  | invalidCapability _ => .invalidCapability
  | overflow _ => .invalidCpuCore

end CapabilityError

/-- The lowest thread priority; priorities count downwards. -/
def lowestPriority : Nat := 63

/-- What a process is allowed. Bit `n` of `coreMask` stands for core `n`, bit `n` of `priorityMask` for priority `n`. -/
structure Capabilities where
  callMask : CallMask := .empty
  coreMask : Nat := 0
  priorityMask : Nat := 0
  handleTableSize : Option Nat := none
  kernelRelease : Option Nat := none
  programType : Nat := 0
  debugFlags : Nat := 0
  deriving DecidableEq, Repr, Inhabited

namespace Capabilities

/-- The 64-bit mask of positions `low` to `high`. -/
def rangeMask (low high : Nat) : Nat := (widthLimit (high - low + 1) - 1) * widthLimit low % widthLimit 64

def allowsCall (c : Capabilities) (id : Nat) : Bool := c.callMask.contains id

def allowsPriority (c : Capabilities) (priority : Nat) : Bool := priority ≤ lowestPriority && c.priorityMask.testBit priority

/-- What has been read of a capability list: the grants so far and the slots taken. -/
structure Reading where
  granted : Capabilities := {}
  masksSeen : List Nat := []
  corePrioritySeen : Bool := false
  deriving Repr, Inhabited

/-- The calls that a mask word names. -/
def callsOf (index calls : Nat) : List Nat :=
  ((List.range callsPerDescriptor).filter calls.testBit).map (index * callsPerDescriptor + ·)

/-- Adds one word that stands alone. -/
def Reading.accept (coreCount : Nat) (r : Reading) (word : UInt32) : Capability.Descriptor → Except CapabilityError Reading
  | .corePriority lowest highest minCore maxCore =>
    if r.corePrioritySeen then .error (.invalidCombination word)
    else if lowest < highest ∨ maxCore < minCore then .error (.invalidCombination word)
    else if coreCount ≤ maxCore then .error (.invalidCpuCore word)
    else if 64 ≤ minCore then .error (.overflow word)
    else .ok { r with
      corePrioritySeen := true
      granted := { r.granted with priorityMask := rangeMask highest lowest, coreMask := rangeMask minCore maxCore } }
  | .callMask index calls =>
    if r.masksSeen.contains index then .error (.invalidCombination word)
    else if (callsOf index calls).any (supervisorCallCount ≤ ·) then .error (.reservedValue word)
    else .ok { r with
      masksSeen := index :: r.masksSeen
      granted := { r.granted with callMask := (callsOf index calls).foldl CallMask.insert r.granted.callMask } }
  | .mapRange => .error (.invalidCombination word)
  | .inert => .ok r
  | .programType value => .ok { r with granted := { r.granted with programType := value } }
  | .kernelVersion value =>
    if r.granted.kernelRelease.isSome then .error (.invalidCombination word)
    else .ok { r with granted := { r.granted with kernelRelease := some value } }
  | .handleTableSize size =>
    if r.granted.handleTableSize.isSome then .error (.invalidCombination word)
    else .ok { r with granted := { r.granted with handleTableSize := some size } }
  | .debugFlags flags => .ok { r with granted := { r.granted with debugFlags := flags } }
  | .unknown => .error (.invalidCapability word)

/-- Reads the words one by one; a range word takes the range word behind it along. -/
def Reading.run (coreCount : Nat) : Reading → List UInt32 → Except CapabilityError Capabilities
  | r, [] => .ok r.granted
  | r, word :: rest =>
    match Capability.Descriptor.ofWord word, rest with
    | .mapRange, next :: rest =>
      if Capability.Descriptor.ofWord next = .mapRange then run coreCount r rest else .error (.invalidCombination word)
    | .mapRange, [] => .error (.invalidCombination word)
    | descriptor, rest =>
      match r.accept coreCount word descriptor with
      | .ok r => run coreCount r rest
      | .error e => .error e

/-- The capabilities that a list of words grants on a machine with `coreCount` cores. -/
def parse (words : List UInt32) (coreCount : Nat) : Except CapabilityError Capabilities := Reading.run coreCount {} words

end Capabilities

end Microkernel
