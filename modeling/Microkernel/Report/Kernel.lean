import Microkernel.AuditLog
import Microkernel.Records
import Microkernel.Report.Wire
import Microkernel.SupervisorCall
import Microkernel.Handle.Table
import Microkernel.Supervisor.MessageQueue
import Microkernel.Service.Blueprint

/-!
# Reports on parts of the kernel

Result codes, capabilities, tables, clocks and queues as JSON for an operator to look at.
-/

namespace Microkernel

open Json (nat record)

def ResultCode.report (c : ResultCode) : Json :=
  record [("raw", c.toJson), ("module", nat c.module), ("description", nat c.description), ("success", .bool c.isSuccess),
    ("failure", .bool !c.isSuccess), ("display", .string c.display), ("debug", .string c.debug)]

/-- Answers to several yes-or-no questions. -/
def boolsReport (answers : List Bool) : Json := Json.list .bool answers

/-- A response and the words and long words at some places of its payload. -/
def Wire.Response.reportWith (r : Response) (wordsAt longWordsAt : List Nat) : Json :=
  let reads (read : Nat → Option Nat) (offsets : List Nat) : Json := Json.list (fun o => Json.opt nat (read o)) offsets
  record (r.reportFields ++ [("u32", reads r.word? wordsAt), ("u64", reads r.longWord? longWordsAt)])

def Wire.CommandType.report (c : CommandType) : Json :=
  record [("name", .string c.name), ("request", .bool c.isRequest), ("control", .bool c.isControl)]

/-- What a process is allowed, some calls and priorities in particular. -/
def Capabilities.report (c : Capabilities) (calls priorities : List Nat) : Json :=
  record [("mask", .string c.callMask.debug), ("count", nat c.callMask.count), ("core_mask", nat c.coreMask),
    ("priority_mask", nat c.priorityMask), ("handle_table_size", Json.opt nat c.handleTableSize),
    ("kernel_release", Json.opt nat c.kernelRelease), ("program_type", nat c.programType), ("debug_flags", nat c.debugFlags),
    ("svcs", boolsReport (calls.map c.allowsCall)), ("priorities", boolsReport (priorities.map c.allowsPriority)),
    ("json", c.toJson)]

/-- A call mask, and whether it names some calls. -/
def CallMask.report (m : CallMask) (calls : List Nat) : Json :=
  record [("debug", .string m.debug), ("count", nat m.count), ("descriptors", Wire.handlesReport m.toDescriptors),
    ("contains", boolsReport (calls.map m.contains)), ("empty", .bool (m = .empty))]

/-- A permission, and how it compares to another. -/
def Permission.report (p q : Permission) : List (String × Json) :=
  [("a", .string p.debug), ("readable", .bool p.readable), ("writable", .bool p.writable), ("contains", .bool (p.contains q)),
    ("subset", .bool (p.isSubsetOf q))]

/-- Bindings of handles to numbers. -/
def bindingsReport (bindings : List (Handle × Nat)) : Json := Json.list (fun (h, n) => Json.array [h.toJson, nat n]) bindings

def HandleTable.report {α : Type} (t : HandleTable α) : Json :=
  record [("len", nat t.count), ("empty", .bool (t.count = 0)), ("capacity", nat t.capacity),
    ("violations", Json.list (fun v => Json.list .string [v.invariant, v.description]) t.violations)]

def TickClock.report (c : TickClock) (now : Nat) : Json :=
  record [("nanos", nat (c.elapsed now)), ("ticks", nat (c.ticks now)), ("suspended", .bool c.isSuspended)]

/-- What was allocated from a region. -/
def PageList.allocationReport (l : PageList) (r : Region) : Json :=
  record [("address", nat ((l.runs.head?.map PageRun.address).getD 0)), ("size", nat l.size), ("region", .string r.kind.name),
    ("ranges", l.report), ("free", nat r.freePages)]

/-- A page list and its sizes. -/
def PageList.sizesReport (l : PageList) : Json :=
  record [("ranges", l.report), ("pages", nat l.pageCount), ("size", nat l.size), ("sizes", Json.list (fun r => nat r.size) l.runs)]

def MemoryArrange.report (a : MemoryArrange) : Json :=
  record [("dram", nat a.totalSize), ("sizes", a.sizes.toJson), ("regions", Json.list Region.report (Region.layout a))]

def Event.report (e : Event) : Json := record [("signaled", .bool e.signaled), ("waiters", nat e.waiters.length)]

def ServiceName.report (n : ServiceName) : Json :=
  record [("name", .string n.text), ("raw", nat n.toWord), ("display", .string n.text), ("string", .string n.text)]

def ServiceTable.report (t : ServiceTable) : Json :=
  record [("len", nat t.entries.length), ("empty", .bool t.entries.isEmpty),
    ("entries", Json.list (fun e => Json.array [.string e.name.text, nat e.maxSessions]) t.entries)]

def ProcessFlags.report (f : ProcessFlags) : Json :=
  record [("application", .bool f.isApplication), ("region", .string f.region.name),
    ("defaults", .array [application.toJson, service.toJson])]

/-- How long a queue is and whether its event is signaled. -/
def MessageQueue.report {α : Type} (q : MessageQueue α) : Json := .array [nat q.items.length, .bool q.event.signaled]

/-- The queues and events of a system beside a queue of its own. -/
def SystemEvents.report (e : SystemEvents) (own : MessageQueue Nat) (value : Json) : Json :=
  record [("value", value), ("applet", e.appletMessages.report), ("general", e.generalChannel.report),
    ("queue", .array [nat own.items.length, .bool own.items.isEmpty, .bool own.event.signaled]), ("vsync", .bool e.vsync.signaled),
    ("resolution", .bool e.displayResolutionChange.signaled), ("other", .bool ({} : SystemEvents).vsync.signaled)]

/-- A configuration, its text, and whether the text reads back. -/
def SupervisorConfig.report (c : SupervisorConfig) : Json :=
  record [("value", c.toJson), ("text", .string c.render), ("round_trip", .bool (parse c.render = some c))]

/-- The buffers that a message brings for declared ones. -/
def BufferSpec.sizesReport (specs : List BufferSpec) (m : Wire.Message) : Json :=
  Json.list (fun spec => Json.opt nat (BufferSpec.actualSize spec m)) specs

end Microkernel
