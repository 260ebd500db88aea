import Microkernel.BitField
import Microkernel.Text.Hex

/-!
# Capability words and the calls they permit
-/

namespace Microkernel

/-!
## Supervisor call masks

A process may make the supervisor calls named by its mask, a set of call numbers below 128. `CallMask.toDescriptors` writes a mask
as capability words, 24 calls a word.
-/

/-- The number of supervisor calls a mask can name. -/
def supervisorCallCount : Nat := 128

/-- The calls one capability word covers. -/
def callsPerDescriptor : Nat := 24

/-- A set of permitted supervisor calls: bit `n` stands for call `n`. -/
structure CallMask where
  calls : BitVec 128
  deriving DecidableEq, Repr, Inhabited

namespace CallMask

/-- No call permitted. -/
def empty : CallMask := ⟨0⟩

/-- Every call permitted. -/
def all : CallMask := ⟨BitVec.allOnes 128⟩

/-- Whether call `id` is permitted; a number that no call has is not. -/
def contains (m : CallMask) (id : Nat) : Bool := m.calls.getLsbD id

/-- Permits call `id`; a number that no call has changes nothing. -/
def insert (m : CallMask) (id : Nat) : CallMask :=
  if id < supervisorCallCount then ⟨m.calls ||| BitVec.twoPow 128 id⟩ else m

/-- The mask of the calls listed. -/
def ofList (ids : List Nat) : CallMask := ids.foldl insert empty

/-- The calls permitted, in ascending order. -/
def toList (m : CallMask) : List Nat := (List.range supervisorCallCount).filter m.contains

/-- How many calls are permitted. -/
def count (m : CallMask) : Nat := m.toList.length

/-- The calls of group `index`, as a row of 24 bits. -/
def group (m : CallMask) (index : Nat) : Nat := bits m.calls.toNat (callsPerDescriptor * index) callsPerDescriptor

/-- The number of groups that cover all calls. -/
def groupCount : Nat := (supervisorCallCount + (callsPerDescriptor - 1)) / callsPerDescriptor

/-- The capability words that grant exactly this mask, one for each group that is not empty. -/
def toDescriptors (m : CallMask) : List UInt32 :=
  (List.range groupCount).filterMap fun index =>
    if m.group index = 0 then none else some (UInt32.ofNat (packFields [(5, 0xF), (callsPerDescriptor, m.group index), (3, index)]))

/-- The mask as diagnostics write it: all 128 bits in hexadecimal. -/
def debug (m : CallMask) : String := s!"SvcMask(0x{Text.hexPadded 32 m.calls.toNat})"

end CallMask

/-!
## Capability descriptors

A capability is a word whose kind is the number of its trailing one bits; the bits above the zero that ends them are the payload.
`Descriptor.ofWord` reads one word, and the functions below it write the words that process creation needs.
-/

namespace Capability

/-! ### Kinds, by the number of trailing ones -/

def corePriorityKind : Nat := 3
def callMaskKind : Nat := 4
def mapRangeKind : Nat := 6
def mapPageKind : Nat := 7
def mapRegionKind : Nat := 10
def interruptPairKind : Nat := 11
def programTypeKind : Nat := 13
def kernelVersionKind : Nat := 14
def handleTableSizeKind : Nat := 15
def debugFlagsKind : Nat := 16
def paddingKind : Nat := 32

/-- The number of consecutive ones at the low end of the lowest `width` bits of `n`. -/
def trailingOnes : Nat → Nat → Nat
  | 0, _ => 0
  | width + 1, n => if n % 2 = 1 then trailingOnes width (n / 2) + 1 else 0

/-- The kind of a capability word. -/
def kindOf (word : UInt32) : Nat := trailingOnes 32 word.toNat

/-- What one capability word says. -/
inductive Descriptor
  /-- Threads may run at these priorities on these cores; a high priority is a small number. -/
  | corePriority (lowest highest minCore maxCore : Nat)
  /-- The calls of one group of 24 are permitted. -/
  | callMask (index calls : Nat)
  /-- Half of a pair that maps a physical range. -/
  | mapRange
  /-- A page, a region, an interrupt pair or padding: accepted, without effect here. -/
  | inert
  | programType (value : Nat)
  | kernelVersion (value : Nat)
  | handleTableSize (size : Nat)
  | debugFlags (flags : Nat)
  /-- A kind that no descriptor has. -/
  | unknown
  deriving DecidableEq, Repr

/-- Reads a capability word. -/
def Descriptor.ofWord (word : UInt32) : Descriptor :=
  let w := word.toNat
  let kind := kindOf word
  if kind = corePriorityKind then .corePriority (bits w 4 6) (bits w 10 6) (bits w 16 8) (bits w 24 8)
  else if kind = callMaskKind then .callMask (bits w 29 3) (bits w 5 callsPerDescriptor)
  else if kind = mapRangeKind then .mapRange
  else if kind = mapPageKind || kind = mapRegionKind || kind = interruptPairKind || kind = paddingKind then .inert
  else if kind = programTypeKind then .programType (bits w 14 3)
  else if kind = kernelVersionKind then .kernelVersion (bits w 15 17)
  else if kind = handleTableSizeKind then .handleTableSize (bits w 16 10)
  else if kind = debugFlagsKind then .debugFlags (bits w 17 2)
  else .unknown

/-- The word that grants priorities `highest` to `lowest` on cores `minCore` to `maxCore`; the fields are not cut. -/
def corePriorityWord (highest lowest minCore maxCore : UInt32) : UInt32 :=
  (maxCore <<< 24) ||| (minCore <<< 16) ||| (highest <<< 10) ||| (lowest <<< 4) ||| 0x7

/-- The word that asks for a handle table of `size` entries. -/
def handleTableSizeWord (size : UInt16) : UInt32 := UInt32.ofNat (packFields [(16, 0x7FFF), (10, size.toNat)])

/-- The words granted to every service host besides its cores and priorities. -/
def serviceDefault : List UInt32 := [0x1FFFFFCF, 0x207FFFEF, 0x47E0060F, 0x0048BFFF, 0x01007FFF]

/-- The word that pins a service host to the last of `coreCount` cores with priorities 24 to 63, unless the sum of its fields
leaves the word. -/
def serviceCorePriority? (coreCount : UInt32) : Option UInt32 :=
  let last := coreCount.toNat - 1
  let word := packFields [(24, 0), (8, last)] + packFields [(16, 0), (16, last)] + 0x63F7
  if word < widthLimit 32 then some (UInt32.ofNat word) else none

/-- All capability words of a service host. -/
def serviceCapabilities? (coreCount : UInt32) : Option (List UInt32) :=
  (serviceCorePriority? coreCount).map (· :: serviceDefault)

end Capability

end Microkernel
