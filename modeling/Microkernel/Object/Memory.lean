import Microkernel.Memory.AddressSpace
import Microkernel.Object.Basic

/-!
# Memory objects

Shared memory is a block that hosts write and guests map with a fixed permission. Transfer memory is memory lent to somebody else;
its permission can be changed while it is mapped.
-/

namespace Microkernel

/-- Pages taken from a region of a kernel; they go back when nobody holds the allocation any longer. -/
structure Allocation where
  kernel : RecordId
  region : RegionKind
  pages : PageList
  deriving DecidableEq, Repr, Inhabited

/-- A block of shared memory. -/
structure SharedMemory where
  kernel : RecordId
  allocation : AllocationId
  pages : PageList
  ownerPermission : Permission
  /-- What processes that map the block are granted. -/
  userPermission : Permission
  deriving DecidableEq, Repr, Inhabited

/-- Lent memory. -/
structure TransferMemory where
  kernel : RecordId
  pages : PageList
  backing : List AllocationId
  permission : Permission
  /-- Where the object was mapped: process and address. -/
  mappings : List (RecordId × Nat) := []
  deriving DecidableEq, Repr, Inhabited

/-- The permission that a mapping gets: what is asked for, or all that is granted. -/
def effectivePermission (granted asked : Permission) : Permission := if asked = .dontCare then granted else asked

end Microkernel
