import Microkernel.Machine.Memory

/-!
# The shared memory layout

What a supervisor carves from the NvServices region, in this order: the blocks that guests may read, and the buffer into which
applets are captured.
-/

namespace Microkernel

open Machine

/-- The sizes of the parts of the layout. -/
structure SharedLayout.Sizes where
  hid : Nat := 0x40000
  font : Nat := 0x1100000
  iirs : Nat := 0x8000
  time : Nat := 0x1000
  capture : Nat := 0x384000

/-- The shared blocks with their names, in the order of the layout, and the capture buffer. -/
structure SharedLayout where
  blocks : List (String × RecordId) := []
  capture : RecordId
  deriving Inhabited

namespace SharedLayout

/-- The names and sizes of the shared blocks. -/
def blockSizes (sizes : Sizes) : List (String × Nat) :=
  [("hid", sizes.hid), ("font", sizes.font), ("iirs", sizes.iirs), ("time", sizes.time)]

/-- Takes the whole layout from a kernel's memory. -/
def allocate (kernel : RecordId) (sizes : Sizes) : Action SharedLayout := do
  let blocks ← (blockSizes sizes).mapM fun (name, size) => do
    return (name, ← newSharedMemory kernel .nvServices size .readWrite .read)
  let (allocation, pages) ← allocatePages kernel .nvServices (sizes.capture / pageSize)
  return { blocks, capture := ← newTransferMemory kernel pages [allocation] .readWrite }

/-- The part with a name; the capture buffer for a name that no block has. -/
def part (l : SharedLayout) (name : String) : KernelObject :=
  match l.blocks.lookup name with
  | some id => .sharedMemory id
  | none => .transferMemory l.capture

/-- The records that a layout keeps alive. -/
def references (l : SharedLayout) : List RecordId := l.capture :: l.blocks.map (·.2)

end SharedLayout

end Microkernel
