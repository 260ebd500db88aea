import Microkernel.Machine.Basic

/-!
# Memory of a machine

Taking pages from the regions of a kernel, mapping them into processes, reading and writing through address spaces, and the shared
and transfer memory objects.
-/

namespace Microkernel.Machine

open Wire (Bytes)

/-- The size in whole pages; one that leaves the word stops the operation. -/
def wholePages (size : Nat) : Action Nat :=
  match pageAlignUp? size with
  | some size => return size
  | none => throw .overflow

/-! ## Allocations -/

/-- Takes pages from a region of a kernel. -/
def allocatePages (kernel : RecordId) (kind : RegionKind) (pages : Nat) : Action (AllocationId × PageList) := do
  let k := (← get).kernel kernel
  let (region, host, result) := (k.region kind).allocate k.host pages
  setKernel kernel { k.setRegion region with host }
  let pages ← result
  let id ← freshId
  modify fun s => { s with allocations := s.allocations.insert id { kernel, region := kind, pages } }
  return (id, pages)

/-- Gives the pages of an allocation back to their region. -/
def freeAllocation (id : AllocationId) : Update Unit := do
  if let some a := (← get).allocations[id]? then
    let k := (← get).kernel a.kernel
    setKernel a.kernel (k.setRegion ((k.region a.region).release a.pages))
    modify fun s => { s with allocations := s.allocations.erase id }

/-- Runs a program that is to map an allocation. If it fails, the pages go back at once. -/
def givingBack {α : Type} (allocation : AllocationId) (program : Action α) : Action α := do
  try program
  catch e =>
    freeAllocation allocation
    throw e

/-! ## Address spaces -/

/-- Changes the address space of a process. -/
def setSpace (process : RecordId) (space : AddressSpace) : Update Unit := do
  setProcess process { (← get).process process with space }

/-- Maps freshly taken pages into a process at an address. -/
def mapOwned (process : RecordId) (address : Nat) (allocation : AllocationId) (pages : PageList) (permission : Permission)
    (state : MemoryState) : Action Unit := do
  let mapping := { Mapping.ofPages address pages permission state with backing := [allocation] }
  let space ← ((← get).process process).space.map mapping
  setSpace process space

/-- Takes pages for a process from its region. -/
def allocateFor (process : RecordId) (pages : Nat) : Action (AllocationId × PageList) := do
  let p := (← get).process process
  allocatePages p.kernel p.region pages

/-- Maps fresh heap memory into a process; answers with its address. -/
def allocateHeap (process : RecordId) (size : Nat) (permission : Permission) : Action Nat := do
  if size = 0 then throw (.invalidSize 0)
  let size ← wholePages size
  let (allocation, pages) ← allocateFor process (size / pageSize)
  givingBack allocation do
    let address ← ((← get).process process).space.findFree heapBase heapSize size
    mapOwned process address allocation pages permission .normal
    return address

/-- Maps the code of a process. -/
def mapCode (process : RecordId) (address pages : Nat) : Action Unit := do
  if pages ≠ 0 then
    let (allocation, pages) ← allocateFor process pages
    givingBack allocation (mapOwned process address allocation pages .readExecute .code)

/-- Maps a thread-local page into a process; it begins with the thread's message buffer. -/
def allocateThreadLocal (process : RecordId) : Action Nat := do
  let (allocation, pages) ← allocateFor process 1
  givingBack allocation do
    let address ← ((← get).process process).space.findFree threadLocalBase threadLocalSize pageSize
    mapOwned process address allocation pages .readWrite .threadLocal
    return address

/-- Maps the pages of a memory object into a process, at an address of its own choice or at the first free one for address zero. -/
def mapObject (process : RecordId) (address size : Nat) (mapping : Mapping) : Action Nat := do
  let p := (← get).process process
  if p.state.isTerminating then throw .invalidState
  let address ← if address = 0 then p.space.findFree aliasBase aliasSize size else pure address
  let space ← p.space.map { mapping with address }
  setSpace process space
  return address

/-- Removes the mapping of a memory object. -/
def unmapObject (process : RecordId) (address size : Nat) (object : RecordId) : Action Unit := do
  let (_, space) ← ((← get).process process).space.unmap address size (some object)
  setSpace process space

/-- Changes the permission of the mapping at an address. -/
def setMappingPermission (process : RecordId) (address : Nat) (permission : Permission) : Action Unit := do
  let space ← ((← get).process process).space.setPermission address permission
  setSpace process space

/-- Reads the memory that a process sees. -/
def readMemory (process : RecordId) (address length : Nat) : Action Bytes := do
  let p := (← get).process process
  let pieces ← p.space.translate address length .read
  ((← get).kernel p.kernel).host.memory.readChunks pieces

/-- Replaces the memory of a kernel's host. -/
def setMemory (kernel : RecordId) (memory : HostMemory) : Update Unit := do
  let k := (← get).kernel kernel
  setKernel kernel { k with host := { k.host with memory } }

/-- Writes the memory that a process sees. -/
def writeMemory (process : RecordId) (address : Nat) (bytes : Bytes) : Action Unit := do
  let p := (← get).process process
  let pieces ← p.space.translate address bytes.length .write
  let (memory, result) := ((← get).kernel p.kernel).host.memory.writeChunks pieces bytes
  setMemory p.kernel memory
  result

/-- Reads the pages of a list. -/
def readPages (kernel : RecordId) (pages : PageList) (offset length : Nat) : Action Bytes := do
  pages.read ((← get).kernel kernel).host.memory offset length

/-- Writes the pages of a list. -/
def writePages (kernel : RecordId) (pages : PageList) (offset : Nat) (bytes : Bytes) : Action Unit := do
  let (memory, result) := pages.write ((← get).kernel kernel).host.memory offset bytes
  setMemory kernel memory
  result

/-! ## Shared memory -/

/-- A block of shared memory taken from a region. -/
def newSharedMemory (kernel : RecordId) (kind : RegionKind) (size : Nat) (ownerPermission userPermission : Permission) :
    Action RecordId := do
  let size ← wholePages size
  let (allocation, pages) ← allocatePages kernel kind (size / pageSize)
  let id ← freshId
  modify fun s => { s with
    sharedMemories := s.sharedMemories.insert id { kernel, allocation, pages, ownerPermission, userPermission } }
  return id

/-- Maps a block of shared memory, whole, with at most the permission it grants. -/
def mapShared (id process : RecordId) (address size : Nat) (asked : Permission) : Action Nat := do
  let m := (← get).sharedMemory id
  let permission := effectivePermission m.userPermission asked
  if !permission.isSubsetOf m.userPermission then throw .invalidMemoryState
  if size ≠ m.pages.size then throw (.invalidSize size)
  mapObject process address size
    { Mapping.ofPages address m.pages permission .shared with object := some id, backing := [m.allocation] }

/-- Removes a mapping of a block of shared memory. -/
def unmapShared (id process : RecordId) (address size : Nat) : Action Unit := unmapObject process address size id

/-! ## Transfer memory -/

/-- Transfer memory over pages that are kept alive by allocations. -/
def newTransferMemory (kernel : RecordId) (pages : PageList) (backing : List AllocationId) (permission : Permission) :
    Update RecordId := do
  let id ← freshId
  setTransferMemory id { kernel, pages, backing, permission }
  return id

/-- Lends a range of a process's heap. -/
def lendHeap (process : RecordId) (address size : Nat) (permission : Permission) : Action RecordId := do
  if size = 0 then throw (.invalidSize 0)
  let p := (← get).process process
  let (pages, backing) ← p.space.capture address size
  newTransferMemory p.kernel pages backing permission

/-- Maps transfer memory, whole, with at most the permission it grants now. -/
def mapTransfer (id process : RecordId) (address size : Nat) (asked : Permission) : Action Nat := do
  let m := (← get).transferMemory id
  let permission := effectivePermission m.permission asked
  if !permission.isSubsetOf m.permission then throw .invalidMemoryState
  if size ≠ m.pages.size then throw (.invalidSize size)
  let address ← mapObject process address size
    { Mapping.ofPages address m.pages permission .transfer with object := some id, backing := m.backing }
  setTransferMemory id { m with mappings := m.mappings ++ [(process, address)] }
  return address

/-- Removes a mapping of transfer memory. -/
def unmapTransfer (id process : RecordId) (address size : Nat) : Action Unit := do
  unmapObject process address size id
  let m := (← get).transferMemory id
  setTransferMemory id { m with mappings := m.mappings.filter (· ≠ (process, address)) }

/-- Changes the permission of transfer memory and of its mappings in processes that still exist. -/
def protectTransfer (id : RecordId) (permission : Permission) : Action Unit := do
  if permission = .dontCare then throw .invalidPermission
  let s ← get
  let m := s.transferMemory id
  let mappings := m.mappings.filter fun (process, _) => s.processes.contains process
  setTransferMemory id { m with permission, mappings }
  for (process, address) in mappings do
    Action.forget (setMappingPermission process address permission)

end Microkernel.Machine
