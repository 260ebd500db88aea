import Microkernel.Bench.Report
import Microkernel.Bench.Description
import Microkernel.Bench.Guests
import Microkernel.Report.Failure

/-!
# Services on a bench

Service instances and requests handed to them by hand, servers, and the supervisor's own operations.
-/

namespace Microkernel.Bench

open Json (nat record)
open Wire (Bytes)

/-! ## Instances and requests -/

/-- Makes a service instance; answers with its interface and those of some commands that it has. -/
def makeService (name : String) (blueprint : Blueprint) (ask : List Nat) : Operation Json := do
  let id ← update (Service.build blueprint)
  keep name (.service id)
  let service ← look fun m => m.service id
  let info (c : CommandInfo) : Json := .array [nat c.id.toNat, .string c.name, nat c.buffers.length]
  return record [("interface", .string service.interfaceName),
    ("commands", Json.list (fun id => Json.opt info (service.findCommand (.ofNat id))) ask)]

/-- The interface of a built-in service. -/
def interfaceReport (blueprint : Blueprint) : Operation Json := do
  let id ← update (Service.build blueprint)
  let service ← look fun m => m.service id
  return record [("interface", .string service.interfaceName), ("commands", Json.list commandReport service.commands)]

/-- The server end of a session with a name. -/
def serverEnd (name : String) : Operation RecordId :=
  objectAs name fun
    | .serverSession id => some id
    | _ => none

/-- The client end of a session with a name. -/
def clientEnd (name : String) : Operation RecordId := objectAs name KernelObject.clientSession?

/-- The request with a name. -/
def request (name : String) : Operation RecordId :=
  find name fun
    | .request id => some id
    | _ => none

/-- The served session with a name. -/
def entry (name : String) : Operation SessionEntry :=
  find name fun
    | .entry e => some e
    | _ => none

/-- Who answers requests that are handed over by hand. -/
def dispatcher (server : String) (pointerBufferSize : Nat) : Operation Dispatcher := do
  let process ← process server
  let kernel ← look fun m => (m.process process).kernel
  return { kernel, server := process, pointerBufferSize := .ofNat pointerBufferSize }

/-- What a scripted handler saw, as it is reported. -/
def traceReport : TraceValue → Operation Json
  | .nothing => return .null
  | .number n => return nat n
  | .bool b => return .bool b
  | .bytes bytes => return bytesReport bytes
  | .object o => return record (← objectFields o)
  | .buffer d => return d.report
  | .noObject => return .string "no object"
  | .noStep => return .string "no step"
  | .caller client clientPid server command paused =>
    return record [("client", .string client), ("client_pid", Json.opt nat clientPid), ("server", .string server),
      ("command", nat command), ("paused", .bool paused)]
  | .failure e => return (Failure.ofService e).report

/-- The trace since it was last looked at. -/
def lastTrace : Operation Json := do return .array (← (← takeTrace).mapM traceReport)

/-- A response image as it is reported; nothing for no image. -/
def responseReport (image : Bytes) : Json :=
  if image.isEmpty then .null
  else
    match Wire.Response.parse image with
    | .ok r => r.report
    | .error e => (Failure.ofProtocol e).report

/-- Reports what became of a request, and names the sessions it opened after `name` and their place. -/
def concluded (name : String) (d : Dispatched) : Operation Json := do
  for (e, i) in d.newSessions.zipIdx do keep s!"{name}{i}" (.entry e)
  settle
  return record [("hex", bytesReport d.response), ("response", responseReport d.response), ("close", .bool d.close),
    ("new_sessions", nat d.newSessions.length), ("trace", ← lastTrace)]

/-- What became of a guest's call, as it is reported. -/
def outcomeReport : CallOutcome → Operation Json
  | .pending => return .string "pending"
  | .ended state => return .string state.name
  | .answer .unit => return .null
  | .answer (.number n) => return nat n
  | .answer (.bytes bytes) => return bytesReport bytes
  | .answer (.object o) => return record (← objectFields o)
  | .answer (.message image) =>
    match Wire.Response.parse image with
    | .ok r => return r.report
    | .error e => throw (.protocol e)

/-- The states of the apps, as they are reported. -/
def statesReport (states : List (String × ProcessState)) : Json :=
  record (states.map fun (name, state) => (name, .string state.name))

/-! ## Servers -/

/-- Names a server and reports on it once the machine is at rest. -/
def keepServer (name : String) (id : RecordId) : Operation Json := do
  keep name (.server id)
  settle
  look fun m => serverReport m id

/-- Starts the services of the bench's own table, each under its name; one that fails does not stop the others. -/
def startTable (onMain : Bool) : Operation Json := do
  let kernel ← kernelOn onMain
  let registry ← registryOn onMain
  let mut started : List (Except ServiceError (String × RecordId)) := []
  for e in (← get).table.entries do
    let outcome ← update (Machine.startEntry kernel registry e)
    if let .ok server := outcome then keep e.name.text (.server server)
    started := started ++ [outcome.map fun server => (e.name.text, server)]
  settle
  let reports ← started.mapM fun
    | .ok (_, server) => look fun m => serverReport m server
    | .error e => pure (Failure.ofService e).report
  return .array reports

/-- What a registry holds, and what it says about one name. -/
def registryReport (registry : RecordId) (name : String) : Operation Json := do
  let waited ← update (Machine.waitReady registry .immediate).run
  let m := (← get).machine
  let r := m.registry registry
  let name := (ServiceName.ofString name).toOption
  let port := name >>= r.get?
  return record [("names", Json.list .string r.names), ("len", nat r.services.size), ("empty", .bool r.services.isEmpty),
    ("contains", Json.opt (fun n => .bool (r.get? n).isSome) name),
    ("port", Json.opt (fun id => .string (m.port (m.clientPort id)).name) port),
    ("init_done", .bool (m.event r.ready).signaled),
    ("wait", Failure.answer ((waited.map fun _ => Json.null).mapError Failure.ofKernel))]

/-! ## Making a bench -/

/-- A bench with one kernel. -/
def new (config : KernelConfig) (host : Host) : Except KernelError Bench :=
  let (kernel, machine) := (Machine.newKernel config host).run.run {}
  kernel.map fun kernel => { machine, kernel }

/-- A bench with a supervisor, whose services run if it is booted. -/
def supervised (config : SupervisorConfig) (host : Host) (boot : Bool) : Except SupervisorError Bench :=
  let start : Update (Except SupervisorError Supervisor) :=
    if boot then Supervisor.boot config host else do return (← (Supervisor.new config host).run).mapError .kernel
  let (supervisor, machine) := start.run {}
  supervisor.map fun s => { machine, kernel := s.main.kernel, supervisor := some s }

/-- A host of its own whose clock shows the time of the others. -/
def newHost (size : Nat) : Operation Host := do
  let b ← get
  return { memory := .new size, now := (b.machine.kernel b.kernel).host.now }

/-- Lets time pass on every host. -/
def advance (nanos : Nat) : Operation Nat := do
  let b ← get
  let now (k : Kernel) : Nat := min (k.host.now + nanos) (wordLimit - 1)
  update (modify fun m => { m with kernels := m.kernels.map fun _ k => { k with host := { k.host with now := now k } } })
  return now (b.machine.kernel b.kernel)

end Microkernel.Bench
