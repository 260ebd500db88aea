import Microkernel.Handle.Table
import Microkernel.Records

/-!
# Stored forms by name

Every type that has a JSON form, under the name by which files refer to it. Reading a form and writing it again gives the same text up
to spelling.
-/

namespace Microkernel.StoredForm

/-- Reads a value and writes it again. -/
def form {α : Type} (read : Json → Option α) (write : α → Json) (j : Json) : Option Json := (read j).map write

/-- The form of a number of a given width. -/
def word (width : Nat) : Json → Option Json := form (Json.word? width) Json.nat

/-- The form of a name. -/
def unit {α : Type} (all : List α) (name : α → String) : Json → Option Json :=
  form (Json.unitVariant? all name) fun a => .string (name a)

/-- The forms by name. -/
def all : List (String × (Json → Option Json)) :=
  [("ProcessFlags", form ProcessFlags.ofJson? ProcessFlags.toJson),
    ("ProcessCreationInfo", form ProcessCreation.ofJson? ProcessCreation.toJson),
    ("KernelStats", form KernelStats.ofJson? KernelStats.toJson),
    ("KernelEvent", form KernelEvent.ofJson? KernelEvent.toJson),
    ("KernelLogEntry", form AuditEntry.ofJson? AuditEntry.toJson),
    ("MemoryArrange", form MemoryArrange.ofJson? MemoryArrange.toJson),
    ("RegionSizes", form RegionSizes.ofJson? RegionSizes.toJson),
    ("KernelConfig", form KernelConfig.ofJson? KernelConfig.toJson),
    ("MemoryRegionKind", unit RegionKind.all RegionKind.name),
    ("PageRange", form PageRun.ofJson? PageRun.toJson),
    ("PageList", form PageList.ofJson? PageList.toJson),
    ("MemoryState", unit MemoryState.all MemoryState.name),
    ("SvcMask", form CallMask.ofJson? CallMask.toJson),
    ("KernelCapabilities", form Capabilities.ofJson? Capabilities.toJson),
    ("ProcessId", word 64), ("ThreadId", word 64), ("ObjectId", word 64),
    ("ObjectKind", unit ObjectKind.all ObjectKind.name),
    ("ThreadType", unit ThreadType.all ThreadType.name),
    ("MemoryPermission", form Permission.ofJson? Permission.toJson),
    ("ThreadState", unit ThreadState.all ThreadState.name),
    ("ProcessState", unit ProcessState.all ProcessState.name),
    ("Handle", form Handle.ofJson? Handle.toJson),
    ("ServerOptions", form ServerOptions.ofJson? ServerOptions.toJson),
    ("ServiceName", form ServiceName.ofJson? ServiceName.toJson),
    ("ResultCode", form ResultCode.ofJson? ResultCode.toJson),
    ("AppletMessage", unit AppletMessage.all AppletMessage.name),
    ("PerformanceMode", unit PerformanceMode.all PerformanceMode.name),
    ("SupervisorConfig", form SupervisorConfig.ofJson? SupervisorConfig.toJson),
    ("SystemMetrics", form SystemMetrics.ofJson? SystemMetrics.toJson)]

end Microkernel.StoredForm
