import Microkernel.Error

/-!
# Page lists
-/

namespace Microkernel

/-!
## Totals

The sum of a count over a list.
-/

/-- What `count` gives for all items together. -/
def total {α : Type} (count : α → Nat) : List α → Nat
  | [] => 0
  | item :: rest => count item + total count rest

/-!
## Page lists

A page list names the physical pages behind one contiguous guest range, as runs of consecutive pages. `PageList.pages` is its view:
the page addresses, one by one.
-/

open Wire (Bytes)

/-- The least multiple of the page size that is at least `value`, if a 64-bit word can hold it. -/
def pageAlignUp? (value : Nat) : Option Nat :=
  let aligned := (value + (pageSize - 1)) / pageSize * pageSize
  if aligned < wordLimit then some aligned else none

def isPageAligned (value : Nat) : Bool := value % pageSize = 0

/-- A run of consecutive pages. -/
structure PageRun where
  address : Nat
  pages : Nat
  deriving DecidableEq, Repr, Inhabited

namespace PageRun

def size (r : PageRun) : Nat := r.pages * pageSize

/-- The address behind the run. -/
def limit (r : PageRun) : Nat := r.address + r.size

/-- The addresses of the pages. -/
def toList (r : PageRun) : List Nat := (List.range r.pages).map fun i => r.address + i * pageSize

end PageRun

/-- Runs of pages, in the order of the range they stand behind. -/
structure PageList where
  runs : List PageRun := []
  deriving DecidableEq, Repr, Inhabited

namespace PageList

/-- The page addresses that the list names. -/
def pages (l : PageList) : List Nat := l.runs.flatMap PageRun.toList

/-- Puts a run behind others; it is merged with a run that ends where it begins. -/
def appendRun (run : PageRun) : List PageRun → List PageRun
  | [] => [run]
  | [last] => if last.limit = run.address then [{ last with pages := last.pages + run.pages }] else [last, run]
  | first :: next :: rest => first :: appendRun run (next :: rest)

/-- Appends `pages` pages from `address` on. -/
def addRun (l : PageList) (address pages : Nat) : PageList :=
  if pages = 0 then l else ⟨appendRun ⟨address, pages⟩ l.runs⟩

/-- The list of a single run. -/
def ofRun (address pages : Nat) : PageList := addRun {} address pages

def pageCount (l : PageList) : Nat := total PageRun.pages l.runs

/-- The size of the range in bytes. -/
def size (l : PageList) : Nat := l.pageCount * pageSize

/-- The physical address of a byte of the range, with the number of bytes from there to the end of its run. -/
def locateIn : List PageRun → Nat → Option (Nat × Nat)
  | [], _ => none
  | run :: rest, offset =>
    if offset < run.size then some (run.address + offset, run.size - offset) else locateIn rest (offset - run.size)

def locate (l : PageList) (offset : Nat) : Option (Nat × Nat) := locateIn l.runs offset

/-- Where an offset is found, at least one byte lies in a row. -/
theorem locateIn_pos {runs : List PageRun} {offset address contiguous : Nat}
    (h : locateIn runs offset = some (address, contiguous)) : 0 < contiguous := by
  induction runs generalizing offset with
  | nil => simp [locateIn] at h
  | cons run rest ih =>
    unfold locateIn at h
    split at h
    · next hlt =>
      simp only [Option.some.injEq, Prod.mk.injEq] at h
      omega
    · exact ih h

/-- Appends the runs behind `offset` to `offset + size` of another list. -/
def extendFrom (l other : PageList) (offset size : Nat) : PageList :=
  if size = 0 then l
  else
    match _h : other.locate offset with
    | none => l
    | some (address, contiguous) =>
      let length := min contiguous size
      (l.addRun address (length / pageSize)).extendFrom other (offset + length) (size - length)
termination_by size
decreasing_by
  have := locateIn_pos _h
  omega

/-- Refuses a range that leaves the list. The end of the range is checked, the size of the list is a plain product. -/
def checkBounds (l : PageList) (offset length : Nat) : Except KernelError Unit :=
  if wordLimit ≤ offset + length then .error (.invalidSize (wordLimit - 1))
  else if wordLimit ≤ l.size then .error .overflow
  else if offset + length ≤ l.size then .ok ()
  else .error (.invalidSize (offset + length))

/-- The pieces of physical memory behind a range, each with its length. -/
def chunks (l : PageList) (offset length : Nat) : Except KernelError (List (Nat × Nat)) :=
  if length = 0 then .ok []
  else
    match _h : l.locate offset with
    | none => .error (.invalidSize offset)
    | some (address, contiguous) => do
      let piece := min contiguous length
      let rest ← l.chunks (offset + piece) (length - piece)
      return (address, piece) :: rest
termination_by length
decreasing_by
  have := locateIn_pos _h
  omega

end PageList

namespace HostMemory

/-- Reads pieces of memory one behind the other. -/
def readChunks (m : HostMemory) : List (Nat × Nat) → Except KernelError Bytes
  | [] => .ok []
  | (address, length) :: rest => do
    let first ← (m.read address length).mapError KernelError.host
    let others ← m.readChunks rest
    return first ++ others

/-- Writes bytes over pieces of memory one behind the other; a piece that cannot be written ends the writing. -/
def writeChunks (m : HostMemory) : List (Nat × Nat) → Bytes → HostMemory × Except KernelError Unit
  | [], _ => (m, .ok ())
  | (address, length) :: rest, bytes =>
    match m.write address (bytes.take length) with
    | .error e => (m, .error (.host e))
    | .ok m => m.writeChunks rest (bytes.drop length)

end HostMemory

namespace PageList

/-- The bytes of a range of the list. -/
def read (l : PageList) (m : HostMemory) (offset length : Nat) : Except KernelError Bytes := do
  l.checkBounds offset length
  m.readChunks (← l.chunks offset length)

/-- Writes bytes to a range of the list. -/
def write (l : PageList) (m : HostMemory) (offset : Nat) (bytes : Bytes) : HostMemory × Except KernelError Unit :=
  match l.checkBounds offset bytes.length with
  | .error e => (m, .error e)
  | .ok () =>
    match l.chunks offset bytes.length with
    | .error e => (m, .error e)
    | .ok pieces => m.writeChunks pieces bytes

end PageList

/-!
## Plain sums

The same operations with every plain sum and product where it is taken. They are taken in 64-bit words, and one that leaves the word
stops the operation.
-/

/-- A plain sum or product: one that leaves the word stops the operation. -/
def word (n : Nat) : Except KernelError Nat := if n < wordLimit then .ok n else .error .overflow

/-- A number below the limit of a word is one. -/
theorem word_ok {n : Nat} (h : n < wordLimit) : word n = .ok n := if_pos h

/-- A number from the limit of a word on overflows. -/
theorem word_overflow {n : Nat} (h : wordLimit ≤ n) : word n = .error .overflow := if_neg (Nat.not_lt.2 h)

/-- What follows a sum in the word goes on with it. -/
theorem word_bind {α : Type} {n : Nat} (h : n < wordLimit) (f : Nat → Except KernelError α) : word n >>= f = f n := by
  rw [word_ok h]
  rfl

/-- Only a sum in the word goes on. -/
theorem of_word_bind {α : Type} {n : Nat} {f : Nat → Except KernelError α} {a : α} (h : word n >>= f = .ok a) : f n = .ok a := by
  by_cases hn : n < wordLimit
  · rwa [word_bind hn] at h
  · rw [word_overflow (Nat.not_lt.1 hn)] at h
    cases h

namespace PageList

/-- Counts pages on. -/
def countInWords (count : Nat) : List PageRun → Except KernelError Nat
  | [] => .ok count
  | run :: rest => do countInWords (← word (count + run.pages)) rest

def sizeInWords (l : PageList) : Except KernelError Nat := do word ((← countInWords 0 l.runs) * pageSize)

/-- Locates a byte behind the byte that the runs begin at. -/
def locateInWords (base : Nat) : List PageRun → Nat → Except KernelError (Option (Nat × Nat))
  | [], _ => .ok none
  | run :: rest, offset => do
    let limit ← word (base + (← word (run.pages * pageSize)))
    if offset < limit then return some (← word (run.address + (offset - base)), run.size - (offset - base))
    else locateInWords limit rest offset

def appendRunInWords (run : PageRun) : List PageRun → Except KernelError (List PageRun)
  | [] => .ok [run]
  | [last] => do
    let limit ← word (last.address + (← word (last.pages * pageSize)))
    if limit = run.address then return [{ last with pages := ← word (last.pages + run.pages) }] else return [last, run]
  | first :: next :: rest => do return first :: (← appendRunInWords run (next :: rest))

def addRunInWords (l : PageList) (address pages : Nat) : Except KernelError PageList :=
  if pages = 0 then .ok l else do return ⟨← appendRunInWords ⟨address, pages⟩ l.runs⟩

/-- Where an offset is found in words, at least one byte lies in a row. -/
theorem locateInWords_pos {runs : List PageRun} {base offset address contiguous : Nat} (hbase : base ≤ offset)
    (h : locateInWords base runs offset = .ok (some (address, contiguous))) : 0 < contiguous := by
  induction runs generalizing base with
  | nil => cases h
  | cons run rest ih =>
    have h := of_word_bind (of_word_bind h)
    split at h
    · next hlt =>
      obtain ⟨-, rfl⟩ := Prod.mk.inj (Option.some.inj (Except.ok.inj (of_word_bind h)))
      have : run.size = run.pages * pageSize := rfl
      omega
    · next hge => exact ih (Nat.le_of_not_lt hge) h

/-- Appends the runs behind `offset` to `offset + size` of another list. -/
def extendFromInWords (l other : PageList) (offset size : Nat) : Except KernelError PageList :=
  if size = 0 then .ok l
  else
    match _h : locateInWords 0 other.runs offset with
    | .error e => .error e
    | .ok none => .ok l
    | .ok (some (address, contiguous)) => do
      let length := min contiguous size
      let l ← l.addRunInWords address (length / pageSize)
      let next ← word (offset + length)
      l.extendFromInWords other next (size - length)
termination_by size
decreasing_by
  have := locateInWords_pos (Nat.zero_le _) _h
  omega

/-- Appends a range of another list, the end of which is a plain sum. -/
def extendInWords (l other : PageList) (offset size : Nat) : Except KernelError PageList := do
  let _ ← word (offset + size)
  l.extendFromInWords other offset size

end PageList

end Microkernel
