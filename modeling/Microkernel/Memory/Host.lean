import Std.Data.TreeMap
import Microkernel.Text.Hex
import Microkernel.Wire.Bytes

/-!
# Host memory

The emulated physical memory. Pages come into being when they are first written and read as zero before that; clearing a whole page
gives it back. `HostMemory.byteAt` is the view of a memory as a flat array of bytes.
-/

namespace Microkernel

open Wire (Bytes)

/-- The size of a page. -/
def pageSize : Nat := 0x1000

/-- The number of values of a 64-bit word. -/
def wordLimit : Nat := 0x10000000000000000

/-- Why a host refuses. -/
inductive HostError
  /-- A physical range that leaves the memory. -/
  | outOfRange (address length : Nat)
  /-- The host has no such operation. -/
  | notSupported
  deriving DecidableEq, Repr

/-- The name under which reports list the error. -/
def HostError.name : HostError → String
  | outOfRange _ _ => "OutOfRange"
  | notSupported => "NotSupported"

def HostError.message : HostError → String
  | outOfRange address length => s!"physical range {Text.hex address}+{Text.hex length} is outside DRAM"
  | notSupported => "operation not supported"

/-- Refuses a range that wraps around or ends beyond `size`. -/
def checkRange (size address length : Nat) : Except HostError Unit :=
  if address + length < wordLimit ∧ address + length ≤ size then .ok () else .error (.outOfRange address length)

/-- One page of bytes. -/
abbrev Page := Vector UInt8 pageSize

/-- A page of zeros. -/
def zeroPage : Page := Vector.replicate pageSize 0

/-- A physical memory of `size` bytes of which only some pages are resident. -/
structure HostMemory where
  size : Nat
  pages : Std.TreeMap Nat Page := {}

namespace HostMemory

instance : Inhabited HostMemory := ⟨{ size := 0 }⟩

/-- An empty memory. -/
def new (size : Nat) : HostMemory := { size }

/-- The position of an address inside its page. -/
theorem offset_lt (address : Nat) : address % pageSize < pageSize := Nat.mod_lt _ (by decide)

/-- The byte at an address. -/
def byteAt (m : HostMemory) (address : Nat) : UInt8 :=
  match m.pages[address / pageSize]? with
  | some page => page.get ⟨address % pageSize, offset_lt address⟩
  | none => 0

/-- Stores one byte; its page becomes resident. -/
def store (m : HostMemory) (address : Nat) (byte : UInt8) : HostMemory :=
  let put (page : Option Page) : Option Page := some ((page.getD zeroPage).set (address % pageSize) byte (offset_lt address))
  { m with pages := m.pages.alter (address / pageSize) put }

/-- Stores bytes one behind the other. -/
def storeAll (m : HostMemory) (address : Nat) : Bytes → HostMemory
  | [] => m
  | byte :: rest => (m.store address byte).storeAll (address + 1) rest

/-- How many pages are resident. -/
def residentPages (m : HostMemory) : Nat := m.pages.size

/-- The bytes of a range. -/
def read (m : HostMemory) (address length : Nat) : Except HostError Bytes := do
  checkRange m.size address length
  return (List.range length).map fun i => m.byteAt (address + i)

/-- Writes bytes at an address. -/
def write (m : HostMemory) (address : Nat) (bytes : Bytes) : Except HostError HostMemory := do
  checkRange m.size address bytes.length
  return m.storeAll address bytes

/-- What is left of a page when `address` to `address + length` is cleared: nothing, if the range covers the whole page. -/
def scrub (address length number : Nat) (page : Page) : Option Page :=
  let start := number * pageSize
  if start + pageSize ≤ address ∨ address + length ≤ start then some page
  else if address ≤ start ∧ start + pageSize ≤ address + length then none
  else some (page.mapIdx fun i byte => if address ≤ start + i ∧ start + i < address + length then 0 else byte)

/-- Clears a range. -/
def zero (m : HostMemory) (address length : Nat) : Except HostError HostMemory := do
  checkRange m.size address length
  return { m with pages := m.pages.filterMap (scrub address length) }

/-- Clears a range by writing zeros page by page from its start. A range that leaves the memory is noticed on the way, after the
pages before the limit are cleared. -/
def zeroByWriting (m : HostMemory) (address length : Nat) : HostMemory × Except HostError Unit :=
  if length = 0 then (m, .ok ())
  else
    let chunk := min length pageSize
    match m.write address (Wire.zeros chunk) with
    | .ok m => m.zeroByWriting (address + chunk) (length - chunk)
    | .error e => (m, .error e)
termination_by length
decreasing_by
  have : 0 < pageSize := by decide
  omega

end HostMemory

/-- How a host clears memory. -/
inductive ZeroingMode
  /-- Whole pages are given back. -/
  | releasing
  /-- Zeros are written, page by page. -/
  | writing
  deriving DecidableEq, Repr, Inhabited

/-- What the kernel runs on: memory, a clock and a sink for debug lines. -/
structure Host where
  memory : HostMemory
  zeroing : ZeroingMode := .releasing
  /-- Nanoseconds since the host started. -/
  now : Nat := 0
  /-- The debug lines written, in order. -/
  debugLines : List String := []
  deriving Inhabited

namespace Host

/-- Clears memory the way this host does. -/
def zero (h : Host) (address length : Nat) : Host × Except HostError Unit :=
  match h.zeroing with
  | .releasing =>
    match h.memory.zero address length with
    | .ok memory => ({ h with memory }, .ok ())
    | .error e => (h, .error e)
  | .writing =>
    let (memory, result) := h.memory.zeroByWriting address length
    ({ h with memory }, result)

/-- Writes a debug line. -/
def writeDebug (h : Host) (line : String) : Host := { h with debugLines := h.debugLines ++ [line] }

end Host

end Microkernel
