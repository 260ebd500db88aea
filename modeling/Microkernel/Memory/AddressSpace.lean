import Microkernel.Memory.Region

/-!
# Permissions and address spaces
-/

namespace Microkernel

/-!
## Memory permissions

Three bits grant reading, writing and executing; a fourth marks a request that takes whatever is granted.
-/

/-- A set of permission bits. -/
structure Permission where
  bits : UInt8
  deriving DecidableEq, Repr, Inhabited

namespace Permission

def none : Permission := ⟨0⟩
def read : Permission := ⟨1⟩
def write : Permission := ⟨2⟩
def execute : Permission := ⟨4⟩
def readWrite : Permission := ⟨3⟩
def readExecute : Permission := ⟨5⟩

/-- Asks for whatever the object grants. -/
def dontCare : Permission := ⟨128⟩

/-- The permission that a guest's word stands for. -/
def ofWord? (word : Nat) : Option Permission :=
  if word = 0 ∨ word = 1 ∨ word = 3 ∨ word = 5 then some ⟨UInt8.ofNat word⟩
  else if word = 0x10000000 then some dontCare
  else Option.none

/-- Whether every bit of `q` is in `p`. -/
def contains (p q : Permission) : Bool := p.bits &&& q.bits == q.bits

/-- Whether `p` asks for no more than `q`. -/
def isSubsetOf (p q : Permission) : Bool := q.contains p

def readable (p : Permission) : Bool := p.contains read

def writable (p : Permission) : Bool := p.contains write

/-- The permission as diagnostics write it. -/
def debug (p : Permission) : String :=
  if p = dontCare then "DontCare"
  else String.ofList
    [if p.readable then 'R' else '-', if p.writable then 'W' else '-', if p.contains execute then 'X' else '-']

end Permission

/-!
## Address spaces

What a process sees at its addresses: mappings that do not overlap, each with the physical pages behind it, a permission and the
allocations that it keeps alive. `AddressSpace.physicalAt` is the byte-wise view.
-/

/-! ### Where the kinds of memory go -/

def codeBase : Nat := 0x08000000
def threadLocalBase : Nat := 0x100000000
def threadLocalSize : Nat := 0x10000000
def aliasBase : Nat := 0x1000000000
def aliasSize : Nat := 0x1000000000
def heapBase : Nat := 0x2000000000
def heapSize : Nat := 0x1000000000

/-- What a mapping is used for. -/
inductive MemoryState
  | code
  /-- Heap memory of the process itself. -/
  | normal
  | threadLocal
  | shared
  | transfer
  deriving DecidableEq, Repr, Inhabited

namespace MemoryState

def all : List MemoryState := [code, normal, threadLocal, shared, transfer]

def name : MemoryState → String
  | code => "Code"
  | normal => "Normal"
  | threadLocal => "ThreadLocal"
  | shared => "Shared"
  | transfer => "Transfer"

end MemoryState

/-- What a guest does with memory. -/
inductive Access
  | read
  | write
  deriving DecidableEq, Repr

/-- Whether a permission allows an access. -/
def Permission.allows (p : Permission) : Access → Bool
  | .read => p.readable
  | .write => p.writable

/-- Names an allocation of physical pages. -/
abbrev AllocationId := Nat

/-- A mapped guest range. -/
structure Mapping where
  address : Nat
  size : Nat
  permission : Permission
  state : MemoryState
  pages : PageList
  /-- The memory object that the pages belong to, if any. -/
  object : Option Nat := none
  /-- The allocations that live as long as the mapping. -/
  backing : List AllocationId := []
  deriving DecidableEq, Repr, Inhabited

namespace Mapping

/-- A mapping of a page list. -/
def ofPages (address : Nat) (pages : PageList) (permission : Permission) (state : MemoryState) : Mapping :=
  { address, size := pages.size, permission, state, pages }

/-- The address behind the mapping. -/
def limit (m : Mapping) : Nat := m.address + m.size

/-- Whether an address lies in the mapping. -/
def covers (m : Mapping) (address : Nat) : Bool := m.address ≤ address && address < m.limit

end Mapping

/-- The mappings of a process, in ascending order. -/
structure AddressSpace where
  mappings : List Mapping := []
  deriving DecidableEq, Repr, Inhabited

namespace AddressSpace

/-- Puts a mapping among mappings in ascending order. -/
def insert (mapping : Mapping) : List Mapping → List Mapping
  | [] => [mapping]
  | next :: rest => if mapping.address < next.address then mapping :: next :: rest else next :: insert mapping rest

/-- The last mapping that begins before an address. -/
def lastBefore (s : AddressSpace) (address : Nat) : Option Mapping :=
  (s.mappings.filter fun m => m.address < address).getLast?

/-- Whether the last mapping that begins before the end of a range ends at or before its start. The end of a range that leaves the
64-bit word counts as the largest word. -/
def isFree (s : AddressSpace) (address size : Nat) : Bool :=
  match s.lastBefore (min (address + size) (wordLimit - 1)) with
  | some last => last.limit ≤ address
  | none => true

/-- Adds a mapping, which must be page-aligned, non-empty and free of other mappings. -/
def map (s : AddressSpace) (mapping : Mapping) : Except KernelError AddressSpace :=
  if !isPageAligned mapping.address then .error (.invalidAddress mapping.address)
  else if mapping.size = 0 then .error (.invalidSize 0)
  else if wordLimit ≤ mapping.address + mapping.size || !s.isFree mapping.address mapping.size then
    .error .invalidMemoryState
  else .ok ⟨insert mapping s.mappings⟩

/-- Removes the mapping that was made at exactly this address with this size for this object. -/
def unmap (s : AddressSpace) (address size : Nat) (object : Option Nat) : Except KernelError (Mapping × AddressSpace) :=
  match s.mappings.find? (·.address = address) with
  | some m =>
    if m.size = size ∧ m.object = object then .ok (m, ⟨s.mappings.filter (·.address ≠ address)⟩)
    else .error .invalidMemoryState
  | none => .error .invalidMemoryState

/-- Walks over the mappings of a range in ascending order to the first gap of `size` bytes. -/
def findGap (size : Nat) : Nat → List Mapping → Except KernelError Nat
  | cursor, [] => .ok cursor
  | cursor, m :: rest =>
    if wordLimit ≤ cursor + size then .error .overflow
    else if cursor + size ≤ m.address then .ok cursor
    else findGap size (max cursor m.limit) rest

/-- The first gap of `size` bytes between the mappings that begin in `base` to `base + regionSize`. -/
def findFree (s : AddressSpace) (base regionSize size : Nat) : Except KernelError Nat := do
  if wordLimit ≤ base + regionSize then throw .overflow
  let cursor ← findGap size base (s.mappings.filter fun m => base ≤ m.address && m.address < base + regionSize)
  if wordLimit ≤ cursor + size then throw .overflow
  if cursor + size ≤ base + regionSize then return cursor else throw .outOfMemory

/-- The mapping that an address lies in. -/
def mappingAt (s : AddressSpace) (address : Nat) : Option Mapping :=
  (s.lastBefore (address + 1)).filter (·.covers address)

/-- The mapping that is found at an address covers it. -/
theorem covers_of_mappingAt {s : AddressSpace} {address : Nat} {m : Mapping} (h : s.mappingAt address = some m) :
    m.covers address = true := by
  unfold mappingAt at h
  exact (Option.filter_eq_some_iff.1 h).2

/-- The physical address behind a guest address. -/
def physicalAt (s : AddressSpace) (address : Nat) : Option Nat := do
  let m ← s.mappingAt address
  let (physical, _) ← m.pages.locate (address - m.address)
  return physical

/-- Changes the permission of the mapping that begins at an address. -/
def setPermission (s : AddressSpace) (address : Nat) (permission : Permission) : Except KernelError AddressSpace :=
  if s.mappings.any (·.address = address) then
    .ok ⟨s.mappings.map fun m => if m.address = address then { m with permission } else m⟩
  else .error .invalidMemoryState

/-- Adds what is not yet in a list, in order. -/
def addNew (known : List AllocationId) (new : List AllocationId) : List AllocationId :=
  new.foldl (fun known id => if known.contains id then known else known ++ [id]) known

/-- The pages behind a range of heap memory, and the allocations they belong to, added to what was found before. -/
def captureFrom (s : AddressSpace) (cursor length : Nat) (found : PageList × List AllocationId) :
    Except KernelError (PageList × List AllocationId) :=
  if length = 0 then .ok found
  else
    match _h : s.mappingAt cursor with
    | none => .error .invalidMemoryState
    | some m =>
      if m.state ≠ .normal then .error .invalidMemoryState
      else
        let piece := min (m.limit - cursor) length
        s.captureFrom (cursor + piece) (length - piece)
          (found.1.extendFrom m.pages (cursor - m.address) piece, addNew found.2 m.backing)
termination_by length
decreasing_by
  have := covers_of_mappingAt _h
  simp only [Mapping.covers, Bool.and_eq_true, decide_eq_true_eq] at this
  omega

/-- The pages behind a page-aligned range of heap memory, and the allocations they belong to. -/
def capture (s : AddressSpace) (address size : Nat) : Except KernelError (PageList × List AllocationId) :=
  if !isPageAligned address || !isPageAligned size then .error (.invalidAddress address)
  else if wordLimit ≤ address + size then .error .overflow
  else s.captureFrom address size ({}, [])

/-- The pieces of physical memory behind a range that lies below the word limit. -/
def translateFrom (s : AddressSpace) (access : Access) (cursor length : Nat) : Except KernelError (List (Nat × Nat)) :=
  if length = 0 then .ok []
  else
    match _h : s.mappingAt cursor with
    | none => .error (.invalidAddress cursor)
    | some m =>
      if !m.permission.allows access then .error .invalidPermission
      else
        match _hl : m.pages.locate (cursor - m.address) with
        | none => .error (.invalidAddress cursor)
        | some (physical, contiguous) => do
          let piece := min (min contiguous (m.limit - cursor)) length
          let rest ← s.translateFrom access (cursor + piece) (length - piece)
          return (physical, piece) :: rest
termination_by length
decreasing_by
  have := covers_of_mappingAt _h
  have := PageList.locateIn_pos _hl
  simp only [Mapping.covers, Bool.and_eq_true, decide_eq_true_eq] at *
  omega

/-- The pieces of physical memory behind a range, all of which must be mapped and allow the access. -/
def translate (s : AddressSpace) (address length : Nat) (access : Access) : Except KernelError (List (Nat × Nat)) :=
  if wordLimit ≤ address + length then .error (.invalidAddress address) else s.translateFrom access address length

/-- How many bytes are mapped. -/
def mappedSize (s : AddressSpace) : Nat := total Mapping.size s.mappings

end AddressSpace

end Microkernel
