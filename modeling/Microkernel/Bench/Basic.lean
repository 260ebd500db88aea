import Microkernel.Machine.Collecting
import Microkernel.Supervisor.Basic

/-!
# Benches

A bench is a machine on an operator's table: the operator gives names to what is on it, steers guest threads one call at a time, and
looks at everything. What has a name stays; what loses its name and is not kept by the machine itself goes away.
-/

namespace Microkernel

open Wire (Bytes)

/-- Why the operator gets no answer. -/
inductive BenchError
  /-- Nothing of the kind asked for has this name. -/
  | noObject (name : String)
  /-- The guest thread has exited. -/
  | noThread
  /-- An earlier call of the guest thread has not been collected. -/
  | busy
  /-- There is no call to collect. -/
  | idle
  /-- The call cannot end as things stand. -/
  | stuck
  | kernel (e : KernelError)
  | service (e : ServiceError)
  | registry (e : RegistryError)
  | protocol (e : Wire.ProtocolError)
  | supervisor (e : SupervisorError)
  /-- The operator asked for something that is not there to be asked for. -/
  | unknown
  deriving DecidableEq, Repr

/-- What the operator has a name for. -/
inductive Item
  | object (object : KernelObject)
  | request (id : RecordId)
  | service (id : RecordId)
  | entry (entry : SessionEntry)
  | server (id : RecordId)
  | pages (allocation : AllocationId) (pages : PageList)
  deriving Inhabited

/-- A process whose first thread takes its calls from the operator. -/
structure App where
  process : RecordId
  thread : RecordId
  /-- Whether a call was handed over whose answer has not been collected. -/
  pending : Bool := false
  deriving Inhabited

/-- A machine, and what its operator knows about it. -/
structure Bench where
  machine : Machine := {}
  /-- The kernel to work on when there is no supervisor. -/
  kernel : RecordId := 0
  supervisor : Option Supervisor := none
  registry : Option RecordId := none
  table : ServiceTable := {}
  items : Std.TreeMap String Item := {}
  apps : Std.TreeMap String App := {}
  /-- The records shown so far, in the order in which they were first shown. -/
  shown : List RecordId := []
  /-- How much of the trace has been gone through for records shown. -/
  traced : Nat := 0
  /-- How many lines of the journal, and of the host's debug output, have been read. -/
  journalRead : Nat := 0
  debugRead : Nat := 0
  deriving Inhabited

/-- What an operator does at a bench. -/
abbrev Operation := ExceptT BenchError (StateM Bench)

/-- The records that a named thing keeps alive. -/
def Item.references : Item → List RecordId
  | object o => [o.id]
  | request id => [id]
  | service id => [id]
  | entry e => e.references
  | server id => [id]
  | pages allocation _ => [allocation]

namespace Bench

/-! ## Working on the machine -/

/-- Changes the machine. -/
def update {α : Type} (program : Update α) : Operation α :=
  modifyGet fun b =>
    let (a, machine) := program.run b.machine
    (a, { b with machine })

/-- Changes the machine in a way that can fail. -/
def perform {α : Type} (program : Action α) : Operation α := do
  match ← update program.run with
  | .ok a => return a
  | .error e => throw (.kernel e)

/-- Changes the machine in a way that a service can refuse. -/
def serve {α : Type} (program : Update (Except ServiceError α)) : Operation α := do
  match ← update program with
  | .ok a => return a
  | .error e => throw (.service e)

/-- Changes the machine in a way that a registry can refuse. -/
def enlist {α : Type} (program : Update (Except RegistryError α)) : Operation α := do
  match ← update program with
  | .ok a => return a
  | .error e => throw (.registry e)

/-- Looks at the machine. -/
def look {α : Type} (view : Machine → α) : Operation α := do return view (← get).machine

/-- Works on the machine's supervisor. -/
def supervise {α : Type} (program : Supervising (Except SupervisorError α)) : Operation α := do
  match (← get).supervisor with
  | none => throw (.noObject "supervisor")
  | some s =>
    let (outcome, s) ← update (program.run s)
    modify fun b => { b with supervisor := some s }
    match outcome with
    | .ok a => return a
    | .error e => throw (.supervisor e)

/-- The records that the operator keeps alive. -/
def references (b : Bench) : List RecordId :=
  b.items.values.flatMap Item.references ++ b.apps.values.flatMap (fun a => [a.process, a.thread])
  ++ (b.supervisor.map Supervisor.references).getD []

/-- The record that a traced value shows. -/
def shownBy? : TraceValue → Option RecordId
  | .object o => some o.id
  | _ => none

/-- Adds a record to those shown before. -/
def addShown (shown : List RecordId) (id : RecordId) : List RecordId := if shown.contains id then shown else shown ++ [id]

/-- Lets the machine come to rest. -/
def settle : Operation Unit := do
  let held := (← get).references
  update do
    modify fun m => { m with held }
    Machine.quiesce
  modify fun b => { b with
    shown := (b.machine.trace.toList.drop b.traced).filterMap shownBy? |>.foldl addShown b.shown
    traced := b.machine.trace.size }

/-- Does something and lets the machine come to rest, whether or not it fails. -/
def operate {α : Type} (program : Operation α) : Operation α := do
  try
    let a ← program
    settle
    return a
  catch e =>
    settle
    throw e

/-! ## Names -/

/-- Names a thing; a thing that had the name loses it. -/
def keep (name : String) (item : Item) : Operation Unit := modify fun b => { b with items := b.items.insert name item }

/-- The thing with a name, if it is of the kind looked for. -/
def find {α : Type} (name : String) (cast : Item → Option α) : Operation α := do
  match (← get).items[name]? >>= cast with
  | some a => return a
  | none => throw (.noObject name)

/-- The app with a name. -/
def app (name : String) : Operation App := do
  match (← get).apps[name]? with
  | some a => return a
  | none => throw (.noObject name)

/-- Changes an app. -/
def setApp (name : String) (app : App) : Operation Unit := modify fun b => { b with apps := b.apps.insert name app }

/-- The server set of the active context, or of the main one. -/
def serverSet? (b : Bench) (onMain : Bool) : Option ServerSet :=
  b.supervisor.map fun s => if onMain then s.main else s.active

/-- The kernel to work on. -/
def kernelOn (onMain : Bool) : Operation RecordId := do
  let b ← get
  return ((b.serverSet? onMain).map ServerSet.kernel).getD b.kernel

/-- The registry to work on. -/
def registryOn (onMain : Bool) : Operation RecordId := do
  let b ← get
  match b.registry <|> (b.serverSet? onMain).map ServerSet.registry with
  | some registry => return registry
  | none => throw (.noObject "registry")

/-- The server with a name; a supervisor's servers go by their own names. -/
def server (name : String) : Operation RecordId := do
  let b ← get
  match b.items[name]? with
  | some (.server id) => return id
  | _ =>
    let set := b.serverSet? false
    match set >>= fun s => if name = managerPortName then s.manager else s.server? b.machine name with
    | some id => return id
    | none => throw (.noObject name)

/-- The process of the app or of the server with a name. -/
def process (name : String) : Operation RecordId := do
  match (← get).apps[name]? with
  | some a => return a.process
  | none =>
    let server ← server name
    look fun m => (m.server server).process

/-- The kernel object with a name; `proc:` and `thread:` before the name of an app stand for its process and its thread. -/
def object (name : String) : Operation KernelObject := do
  let b ← get
  match b.items[name]? with
  | some (.object o) => return o
  | _ =>
    if name.startsWith "proc:" then return .process (← process (name.drop 5).toString)
    else if name.startsWith "thread:" then return .thread (← app (name.drop 7).toString).thread
    else throw (.noObject name)

/-- The kernel object with a name as one of a kind. -/
def objectAs {α : Type} (name : String) (cast : KernelObject → Option α) : Operation α := do
  match cast (← object name) with
  | some a => return a
  | none => throw (.noObject name)

/-- Takes a name away. -/
def drop (name : String) : Operation Unit := modify fun b => { b with items := b.items.erase name }

/-- The number under which a record is shown. -/
def number (id : RecordId) : Operation Nat := do
  modify fun b => { b with shown := addShown b.shown id }
  return (← get).shown.idxOf id

/-- What scripted handlers saw since this was last asked. -/
def takeTrace : Operation (List TraceValue) :=
  modifyGet fun b => (b.machine.trace.toList, { b with traced := 0, machine := { b.machine with trace := #[] } })

/-- The lines written to the journal since this was last asked, the detailed ones left out. -/
def takeJournal : Operation (List JournalLine) :=
  modifyGet fun b =>
    let lines := b.machine.journal.toList.drop b.journalRead
    (lines.filter fun l => LevelFilter.keeps (some .info) l.level, { b with journalRead := b.machine.journal.size })

/-- The lines of a kernel's debug output since this was last asked. -/
def takeDebugLines (kernel : RecordId) : Operation (List String) :=
  modifyGet fun b =>
    let lines := (b.machine.kernel kernel).host.debugLines
    (lines.drop b.debugRead, { b with debugRead := lines.length })

end Bench

end Microkernel
