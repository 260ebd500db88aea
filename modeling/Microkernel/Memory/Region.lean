import Microkernel.Memory.PageList

/-!
# Physical regions

Physical memory is split into four regions. Each hands out runs of pages, lowest address first, and merges a run that comes back
with the free runs it touches.
-/

namespace Microkernel

/-- The regions, in the order of their addresses. -/
inductive RegionKind
  | application
  | applet
  | service
  | nvServices
  deriving DecidableEq, Repr, Inhabited

namespace RegionKind

def all : List RegionKind := [application, applet, service, nvServices]

def name : RegionKind → String
  | application => "Application"
  | applet => "Applet"
  | service => "Service"
  | nvServices => "NvServices"

end RegionKind

/-- How much physical memory there is. -/
inductive MemoryArrange
  | mib4096
  | mib6144
  | mib8192
  deriving DecidableEq, Repr, Inhabited

namespace MemoryArrange

def all : List MemoryArrange := [mib4096, mib6144, mib8192]

def name : MemoryArrange → String
  | mib4096 => "Mib4096"
  | mib6144 => "Mib6144"
  | mib8192 => "Mib8192"

def mebibyte : Nat := 0x100000

/-- The size of physical memory. -/
def totalSize : MemoryArrange → Nat
  | mib4096 => 4096 * mebibyte
  | mib6144 => 6144 * mebibyte
  | mib8192 => 8192 * mebibyte

/-- The size of a region; applications get what the others leave. -/
def regionSize (a : MemoryArrange) : RegionKind → Nat
  | .application => a.totalSize - 0x1FB00000 - 0x08000000 - 0x02000000
  | .applet => 0x1FB00000
  | .service => 0x08000000
  | .nvServices => 0x02000000

end MemoryArrange

/-- A region: where it lies and which of its pages are free, as runs in ascending order. -/
structure Region where
  kind : RegionKind
  address : Nat
  size : Nat
  free : List PageRun
  deriving DecidableEq, Repr, Inhabited

namespace Region

/-- A region all of whose whole pages are free. -/
def new (kind : RegionKind) (address size : Nat) : Region :=
  { kind, address, size, free := if pageSize ≤ size then [⟨address, size / pageSize⟩] else [] }

/-- The four regions of an arrangement, one behind the other from address zero. -/
def layout (arrange : MemoryArrange) : List Region :=
  let place := fun (acc : List Region × Nat) kind =>
    let size := arrange.regionSize kind
    (acc.1 ++ [new kind acc.2 size], acc.2 + size)
  (RegionKind.all.foldl place ([], 0)).1

def freePages (r : Region) : Nat := total PageRun.pages r.free

/-- Takes `pages` pages from the front of the first run that is long enough. -/
def takeFirst (pages : Nat) : List PageRun → Option (Nat × List PageRun)
  | [] => none
  | run :: rest =>
    if pages ≤ run.pages then
      some (run.address,
        if pages < run.pages then ⟨run.address + pages * pageSize, run.pages - pages⟩ :: rest else rest)
    else (takeFirst pages rest).map fun (address, rest) => (address, run :: rest)

/-- Puts a run back among runs in ascending order, merged with the runs it touches. -/
def putBack (run : PageRun) : List PageRun → List PageRun
  | [] => [run]
  | next :: rest =>
    if run.address < next.address then
      if run.limit = next.address then ⟨run.address, run.pages + next.pages⟩ :: rest else run :: next :: rest
    else if next.limit = run.address then putBack ⟨next.address, next.pages + run.pages⟩ rest
    else next :: putBack run rest

/-- Takes pages out of the region and clears them on the host. The pages are taken before the host is asked. -/
def allocate (r : Region) (host : Host) (pages : Nat) : Region × Host × Except KernelError PageList :=
  if pages = 0 then (r, host, .error (.invalidSize 0))
  else
    match takeFirst pages r.free with
    | none => (r, host, .error .outOfMemory)
    | some (address, free) =>
      match host.zero address (pages * pageSize) with
      | (host, .ok ()) => ({ r with free }, host, .ok (.ofRun address pages))
      | (host, .error e) => ({ r with free }, host, .error (.host e))

/-- Gives the pages of a list back. -/
def release (r : Region) (pages : PageList) : Region :=
  { r with free := pages.runs.foldl (fun free run => putBack run free) r.free }

end Region

end Microkernel
