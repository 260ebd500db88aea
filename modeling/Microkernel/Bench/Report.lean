import Microkernel.Bench.Basic
import Microkernel.Records
import Microkernel.Report.Wire

/-!
# Reports from a bench

What the operator sees of processes, servers and objects, as JSON. Kernel objects are shown under numbers that count them in the order
in which they are first shown.
-/

namespace Microkernel.Bench

open Json (nat record)

/-- A thread: its id, state, priority, type and the handles that name it. -/
def threadReport (m : Machine) (id : RecordId) : Json :=
  let t := m.thread id
  .array [nat t.threadId, .string t.state.name, nat t.priority, .string t.type.name, nat (m.handleCount id)]

def processReport (m : Machine) (id : RecordId) : Json :=
  let p := m.process id
  record [("pid", nat p.pid), ("name", .string p.name), ("program", nat p.programId), ("application", .bool p.isApplication),
    ("state", .string p.state.name), ("paused", .bool p.paused), ("handles", nat p.handles.count),
    ("capacity", nat p.handles.capacity), ("mapped", nat p.space.mappedSize), ("refs", nat (m.handleCount id)),
    ("threads", Json.list (threadReport m) p.threads), ("violations", nat p.handles.violations.length)]

def serverReport (m : Machine) (id : RecordId) : Json :=
  let x := m.server id
  let port := m.port (m.serverPort x.port)
  record [("name", .string x.name), ("stopped", .bool x.stopped), ("port_closed", .bool !port.isOpen), ("port", .string port.name),
    ("sessions", nat x.sessions.length), ("process", processReport m x.process)]

/-- The fields that show which object an object is. -/
def objectFields (o : KernelObject) : Operation (List (String × Json)) := do
  let number ← number o.id
  return [("kind", .string o.kind.name), ("id", nat number), ("debug", .string s!"{o.kind.name}#{number}")]

/-- An object, how many handles name it and whether it can be waited on. -/
def objectReport (o : KernelObject) : Operation Json := do
  let fields ← objectFields o
  let handles ← look fun m => m.handleCount o.id
  return record (fields ++ [("handles", nat handles), ("waitable", .bool o.waitable?.isSome)])

def sharedReport (m : Machine) (id : RecordId) : Json :=
  let x := m.sharedMemory id
  record [("size", nat x.pages.size), ("physical", nat ((x.pages.runs.head?.map PageRun.address).getD 0)),
    ("owner", .string x.ownerPermission.debug), ("user", .string x.userPermission.debug),
    ("ranges", Json.list PageRun.toJson x.pages.runs), ("kind", .string ObjectKind.sharedMemory.name)]

def transferReport (m : Machine) (id : RecordId) : Json :=
  let x := m.transferMemory id
  record [("size", nat x.pages.size), ("permission", .string x.permission.debug),
    ("ranges", Json.list PageRun.toJson x.pages.runs), ("kind", .string ObjectKind.transferMemory.name)]

/-- The server end of a port: whether a session waits at it, and how many sessions are open. -/
def portReport (m : Machine) (id : RecordId) : Json :=
  let p := m.port (m.serverPort id)
  record [("name", .string p.name), ("closed", .bool !p.isOpen), ("sessions", nat p.sessions),
    ("pending", .bool !p.incoming.isEmpty)]

/-- The client end of a port. -/
def clientPortReport (m : Machine) (id : RecordId) : Json :=
  let p := m.port (m.clientPort id)
  record [("name", .string p.name), ("closed", .bool !p.isOpen), ("handles", nat (m.handleCount id))]

/-- The server end of a session. -/
def sessionReport (m : Machine) (id : RecordId) : Json :=
  let x := m.session (m.serverSession id)
  record [("pending", .bool !x.pending.isEmpty), ("client_closed", .bool !x.clientOpen), ("closed", .bool !x.serverOpen),
    ("serving", .bool x.current.isSome), ("acquire", .bool x.isSignaled)]

/-- The client end of a session. -/
def clientReport (m : Machine) (id : RecordId) : Json :=
  record [("server_closed", .bool !(m.session (m.clientSession id)).serverOpen), ("handles", nat (m.handleCount id))]

/-- A session that a service serves. -/
def entryReport (m : Machine) (e : SessionEntry) : Json :=
  let x := m.session (m.serverSession e.session)
  let interface := (m.service e.service).interfaceName
  record [("closed", .bool !x.serverOpen), ("client_closed", .bool !x.clientOpen),
    ("debug", .string ("IpcService \x7b interface: \"" ++ interface ++ "\" \x7d"))]

/-- A request that was sent: the message address and the pid of its client. -/
def requestFields (m : Machine) (id : RecordId) : List (String × Json) :=
  let r := m.request id
  [("address", nat r.messageAddress), ("pid", nat (m.process r.client).pid)]

/-- The commands of an interface with the buffers they declare. -/
def commandReport (c : CommandInfo) : Json :=
  let buffer (b : BufferSpec) : Json := .array [.string b.kind.name, nat b.index, nat b.minSize]
  .array [nat c.id.toNat, .string c.name, Json.list buffer c.buffers]

/-- A server set's start and stop order and what is registered. -/
def supervisorReport (s : Supervisor) (m : Machine) : Json :=
  let set := s.active
  let names (ids : List RecordId) : Json := Json.list (fun id => .string (m.server id).name) ids
  let registered (set : ServerSet) : Json := Json.list .string (m.registry set.registry).names
  record [("active", .string s.activeContext.name), ("docked", .bool s.docked), ("performance", .string s.performance.name),
    ("paused", .bool s.paused), ("shut_down", .bool s.isShutDown), ("initialized", .bool set.isInitialized),
    ("servers", names set.servers), ("table", nat set.table.entries.length), ("registered", registered set),
    ("stop_order", names set.stopOrder), ("main_registered", registered s.main),
    ("applet", Json.opt (fun set => .bool set.isInitialized) s.applet),
    ("kernel_paused", .bool (m.kernel set.kernel).paused), ("config", s.config.toJson)]

/-- The oldest item of each message queue, taken, and what is left and signaled. -/
def popMessages (s : Supervisor) : Supervisor × Json :=
  let (applet, appletMessages) := s.events.appletMessages.pop
  let (general, generalChannel) := s.events.generalChannel.pop
  let events := { s.events with appletMessages, generalChannel }
  let left : Json := .array [nat appletMessages.items.length, nat generalChannel.items.length]
  let signals := [appletMessages.event, generalChannel.event, events.displayResolutionChange, events.vsync]
  ({ s with events }, record [("applet", Json.opt (fun a => .string a.name) applet), ("general", Json.opt bytesReport general),
    ("left", left), ("signals", Json.list (fun e => .bool e.signaled) signals)])

/-- The metrics of a system; the sessions and the clock are shown only if they are asked for. -/
def metricsReport (x : SystemMetrics) (withSessions withTicks : Bool) : Json :=
  let isShown (name : String) : Bool := if name = "sessions" then withSessions else name ≠ "ticks" || withTicks
  match x.toJson with
  | .object fields => .object (fields.map fun (name, value) => (name, if isShown name then value else .null))
  | other => other

/-- The shared memory layout, part by part. -/
def layoutReport (l : SharedLayout) (m : Machine) : Json :=
  let blocks : List Json := l.blocks.map fun (name, id) => .array [.string name, sharedReport m id]
  .array (blocks ++ [.array [.string "capture", transferReport m l.capture]])

end Microkernel.Bench
