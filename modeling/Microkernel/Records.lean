import Microkernel.AuditLog
import Microkernel.Capability.Parser
import Microkernel.Config
import Microkernel.Json.Reader
import Microkernel.Json.Basic
import Microkernel.Json.Writer
import Microkernel.Kernel.Stats
import Microkernel.Lifecycle
import Microkernel.Memory.AddressSpace
import Microkernel.Object.Basic
import Microkernel.Process.Basic
import Microkernel.Service.Registry
import Microkernel.Service.Options
import Microkernel.Supervisor.MessageQueue

/-!
# The JSON forms of the library's records

For each type that is stored or exchanged as JSON, how it is written (`toJson`) and how it is read (`ofJson?`). Reading checks every
number against the width of its field.
-/

namespace Microkernel

open Json (nat Row unitVariant? record tagged)

/-! ## Numbers and names -/

def ResultCode.toJson (c : ResultCode) : Json := nat c.raw.toNat

def ResultCode.ofJson? (j : Json) : Option ResultCode := (j.word? 32).map fun n => ⟨.ofNat n⟩

def Handle.toJson (h : Handle) : Json := nat h.raw.toNat

def Handle.ofJson? (j : Json) : Option Handle := (j.word? 32).map fun n => ⟨.ofNat n⟩

def Permission.toJson (p : Permission) : Json := nat p.bits.toNat

def Permission.ofJson? (j : Json) : Option Permission := (j.word? 8).map fun n => ⟨.ofNat n⟩

def ProcessFlags.toJson (f : ProcessFlags) : Json := nat f.bits.toNat

def ProcessFlags.ofJson? (j : Json) : Option ProcessFlags := (j.word? 32).map fun n => ⟨.ofNat n⟩

def ServiceName.toJson (n : ServiceName) : Json := .string n.text

def ServiceName.ofJson? (j : Json) : Option ServiceName := j.string? >>= fun text => (ServiceName.ofString text).toOption

/-- A filter is read in any mix of cases. -/
def LevelFilter.ofJson? (j : Json) : Option LevelFilter :=
  match Json.variant? j with
  | some (name, .null) => LevelFilter.all.find? fun f => f.name = name.map Char.toUpper
  | _ => none

def LevelFilter.toJson (f : LevelFilter) : Json := .string f.name

/-! ## States and kinds -/

def ThreadState.all : List ThreadState := [created, started, running, waiting, exiting, exited]

def ThreadEvent.all : List ThreadEvent := [start, run, beginWait, endWait, exit, finish]

def ProcessState.all : List ProcessState := [created, running, terminating, terminated]

def ProcessEvent.all : List ProcessEvent := [start, beginTermination, finishTermination]

def ThreadType.all : List ThreadType := [kernel, guest]

/-! ## The audit log -/

namespace KernelEvent

def toJson : KernelEvent → Json
  | processCreated pid name isApplication =>
    tagged "ProcessCreated" (record [("pid", nat pid), ("name", .string name), ("is_application", .bool isApplication)])
  | processTerminated pid => tagged "ProcessTerminated" (record [("pid", nat pid)])
  | namedPortRegistered name => tagged "NamedPortRegistered" (record [("name", .string name)])
  | serviceRegistered name => tagged "ServiceRegistered" (record [("name", .string name)])
  | serviceUnregistered name => tagged "ServiceUnregistered" (record [("name", .string name)])
  | paused => .string "Paused"
  | resumed => .string "Resumed"

/-- The only field of an event that names something. -/
def nameOf? (data : Json) : Option String := do (← Row.ofJson? ["name"] data).required 0 Json.string?

def ofJson? (j : Json) : Option KernelEvent := do
  let (name, data) ← Json.variant? j
  if name = "ProcessCreated" then
    let row ← Row.ofJson? ["pid", "name", "is_application"] data
    return processCreated (← row.required 0 (Json.word? 64)) (← row.required 1 Json.string?) (← row.required 2 Json.bool?)
  else if name = "ProcessTerminated" then
    return processTerminated (← (← Row.ofJson? ["pid"] data).required 0 (Json.word? 64))
  else if name = "NamedPortRegistered" then return namedPortRegistered (← nameOf? data)
  else if name = "ServiceRegistered" then return serviceRegistered (← nameOf? data)
  else if name = "ServiceUnregistered" then return serviceUnregistered (← nameOf? data)
  else
    match name, data with
    | "Paused", .null => some paused
    | "Resumed", .null => some resumed
    | _, _ => none

end KernelEvent

def AuditEntry.toJson (e : AuditEntry) : Json :=
  record [("id", nat e.id), ("timestamp", nat e.timestamp), ("event", e.event.toJson)]

def AuditEntry.ofJson? (j : Json) : Option AuditEntry := do
  let row ← Row.ofJson? ["id", "timestamp", "event"] j
  return { id := ← row.required 0 (Json.word? 64), timestamp := ← row.required 1 (Json.word? 64),
           event := ← row.required 2 KernelEvent.ofJson? }

/-! ## Memory -/

def PageRun.toJson (r : PageRun) : Json := record [("address", nat r.address), ("pages", nat r.pages)]

def PageRun.ofJson? (j : Json) : Option PageRun := do
  let row ← Row.ofJson? ["address", "pages"] j
  return { address := ← row.required 0 (Json.word? 64), pages := ← row.required 1 (Json.word? 64) }

def PageList.toJson (l : PageList) : Json := record [("ranges", Json.list PageRun.toJson l.runs)]

def PageList.ofJson? (j : Json) : Option PageList := do
  let row ← Row.ofJson? ["ranges"] j
  return ⟨← row.required 0 fun j => j.array? >>= fun items => items.mapM PageRun.ofJson?⟩

/-- The sizes of the four regions. -/
structure RegionSizes where
  application : Nat
  applet : Nat
  service : Nat
  nvServices : Nat
  deriving DecidableEq, Repr

def MemoryArrange.sizes (a : MemoryArrange) : RegionSizes :=
  { application := a.regionSize .application, applet := a.regionSize .applet, service := a.regionSize .service,
    nvServices := a.regionSize .nvServices }

def RegionSizes.toJson (s : RegionSizes) : Json :=
  record [("application", nat s.application), ("applet", nat s.applet), ("service", nat s.service),
    ("nv_services", nat s.nvServices)]

def RegionSizes.ofJson? (j : Json) : Option RegionSizes := do
  let row ← Row.ofJson? ["application", "applet", "service", "nv_services"] j
  return { application := ← row.required 0 (Json.word? 64), applet := ← row.required 1 (Json.word? 64),
           service := ← row.required 2 (Json.word? 64), nvServices := ← row.required 3 (Json.word? 64) }

/-! ## Capabilities -/

/-- A call mask is written as its two long words, the low calls first. -/
def CallMask.toJson (m : CallMask) : Json := .array [nat (bits m.calls.toNat 0 64), nat (bits m.calls.toNat 64 64)]

def CallMask.ofJson? : Json → Option CallMask
  | .array [low, high] => do return ⟨BitVec.ofNat 128 (packFields [(64, ← low.word? 64), (64, ← high.word? 64)])⟩
  | _ => none

def Capabilities.toJson (c : Capabilities) : Json :=
  record [("svc_mask", c.callMask.toJson), ("core_mask", nat c.coreMask), ("priority_mask", nat c.priorityMask),
    ("handle_table_size", Json.opt nat c.handleTableSize), ("kernel_release", Json.opt nat c.kernelRelease),
    ("program_type", nat c.programType), ("debug_flags", nat c.debugFlags)]

/-! ## Processes -/

namespace ProcessCreation

def toJson (c : ProcessCreation) : Json :=
  record [("name", .string c.name), ("version", nat c.version.toNat), ("program_id", nat c.programId.toNat),
    ("code_address", nat c.codeAddress.toNat), ("code_pages", nat c.codePages.toNat), ("flags", c.flags.toJson)]

def ofJson? (j : Json) : Option ProcessCreation := do
  let row ← Row.ofJson? ["name", "version", "program_id", "code_address", "code_pages", "flags"] j
  return {
    name := ← row.required 0 Json.string?
    version := .ofNat (← row.required 1 (Json.word? 32))
    programId := .ofNat (← row.required 2 (Json.word? 64))
    codeAddress := .ofNat (← row.required 3 (Json.word? 64))
    codePages := .ofNat (← row.required 4 (Json.word? 64))
    flags := ← row.required 5 ProcessFlags.ofJson? }

end ProcessCreation

/-! ## Statistics -/

namespace KernelStats

def toJson (s : KernelStats) : Json :=
  record [("processes", nat s.processes), ("application_processes", nat s.applicationProcesses), ("threads", nat s.threads),
    ("handles", nat s.handles), ("named_ports", nat s.namedPorts), ("free_pages", nat s.freePages), ("ticks", nat s.ticks),
    ("paused", .bool s.paused)]

def ofJson? (j : Json) : Option KernelStats := do
  let row ← Row.ofJson? ["processes", "application_processes", "threads", "handles", "named_ports", "free_pages", "ticks",
    "paused"] j
  return {
    processes := ← row.required 0 (Json.word? 64)
    applicationProcesses := ← row.required 1 (Json.word? 64)
    threads := ← row.required 2 (Json.word? 64)
    handles := ← row.required 3 (Json.word? 64)
    namedPorts := ← row.required 4 (Json.word? 64)
    freePages := ← row.required 5 (Json.word? 64)
    ticks := ← row.required 6 (Json.word? 64)
    paused := ← row.required 7 Json.bool? }

end KernelStats

namespace SystemMetrics

def toJson (m : SystemMetrics) : Json :=
  record [("processes", nat m.processes), ("application_processes", nat m.applicationProcesses), ("threads", nat m.threads),
    ("handles", nat m.handles), ("sessions", nat m.sessions), ("registered_services", nat m.registeredServices),
    ("free_pages", nat m.freePages), ("ticks", nat m.ticks), ("paused", .bool m.paused), ("docked", .bool m.docked)]

def ofJson? (j : Json) : Option SystemMetrics := do
  let row ← Row.ofJson? ["processes", "application_processes", "threads", "handles", "sessions", "registered_services",
    "free_pages", "ticks", "paused", "docked"] j
  return {
    processes := ← row.required 0 (Json.word? 64)
    applicationProcesses := ← row.required 1 (Json.word? 64)
    threads := ← row.required 2 (Json.word? 64)
    handles := ← row.required 3 (Json.word? 64)
    sessions := ← row.required 4 (Json.word? 64)
    registeredServices := ← row.required 5 (Json.word? 64)
    freePages := ← row.required 6 (Json.word? 64)
    ticks := ← row.required 7 (Json.word? 64)
    paused := ← row.required 8 Json.bool?
    docked := ← row.required 9 Json.bool? }

end SystemMetrics

/-! ## Configuration -/

def MemoryArrange.toJson (a : MemoryArrange) : Json := .string a.name

def MemoryArrange.ofJson? : Json → Option MemoryArrange := unitVariant? MemoryArrange.all MemoryArrange.name

namespace KernelConfig

def toJson (c : KernelConfig) : Json :=
  record [("memory_arrange", c.memoryArrange.toJson), ("cpu_core_count", nat c.cpuCoreCount.toNat),
    ("default_handle_table_size", nat c.defaultHandleTableSize),
    ("termination_start_timeout_ms", nat c.terminationStartTimeout), ("kernel_log_capacity", nat c.auditLogCapacity)]

/-- Fields that are left out take their defaults. -/
def ofJson? (j : Json) : Option KernelConfig := do
  let row ← Row.ofJson? ["memory_arrange", "cpu_core_count", "default_handle_table_size", "termination_start_timeout_ms",
    "kernel_log_capacity"] j
  return {
    memoryArrange := ← row.defaulted 0 .mib4096 MemoryArrange.ofJson?
    cpuCoreCount := ← row.defaulted 1 4 fun j => (j.word? 32).map UInt32.ofNat
    defaultHandleTableSize := ← row.defaulted 2 1024 (Json.word? 64)
    terminationStartTimeout := ← row.defaulted 3 1000 (Json.word? 64)
    auditLogCapacity := ← row.defaulted 4 1000 (Json.word? 64) }

end KernelConfig

namespace SupervisorConfig

def toJson (c : SupervisorConfig) : Json :=
  record [("kernel", c.kernel.toJson), ("docked_mode", .bool c.dockedMode), ("is_applet", .bool c.isApplet),
    ("ignore_missing_services", .bool c.ignoreMissingServices), ("log_level", c.logLevel.toJson)]

/-- Fields that are left out take their defaults. -/
def ofJson? (j : Json) : Option SupervisorConfig := do
  let row ← Row.ofJson? ["kernel", "docked_mode", "is_applet", "ignore_missing_services", "log_level"] j
  return {
    kernel := ← row.defaulted 0 {} KernelConfig.ofJson?
    dockedMode := ← row.defaulted 1 false Json.bool?
    isApplet := ← row.defaulted 2 false Json.bool?
    ignoreMissingServices := ← row.defaulted 3 false Json.bool?
    logLevel := ← row.defaulted 4 (some .info) LevelFilter.ofJson? }

/-- Reads a configuration from JSON text. -/
def parse (text : String) : Option SupervisorConfig := Json.parse text >>= ofJson?

/-- A configuration as JSON text. -/
def render (c : SupervisorConfig) : String := Json.pretty c.toJson

end SupervisorConfig

namespace ServerOptions

def toJson (o : ServerOptions) : Json :=
  record [("priority", nat o.priority.toNat), ("pointer_buffer_size", nat o.pointerBufferSize.toNat)]

def ofJson? (j : Json) : Option ServerOptions := do
  let row ← Row.ofJson? ["priority", "pointer_buffer_size"] j
  return { priority := .ofNat (← row.required 0 (Json.word? 32)),
           pointerBufferSize := .ofNat (← row.required 1 (Json.word? 16)) }

end ServerOptions

namespace Capabilities

def ofJson? (j : Json) : Option Capabilities := do
  let row ← Row.ofJson? ["svc_mask", "core_mask", "priority_mask", "handle_table_size", "kernel_release", "program_type",
    "debug_flags"] j
  return {
    callMask := ← row.required 0 CallMask.ofJson?
    coreMask := ← row.required 1 (Json.word? 64)
    priorityMask := ← row.required 2 (Json.word? 64)
    handleTableSize := ← row.optional 3 (Json.word? 16)
    kernelRelease := ← row.optional 4 (Json.word? 32)
    programType := ← row.required 5 (Json.word? 32)
    debugFlags := ← row.required 6 (Json.word? 32) }

end Capabilities

end Microkernel
