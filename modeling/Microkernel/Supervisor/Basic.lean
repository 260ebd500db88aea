import Microkernel.Supervisor.MessageQueue
import Microkernel.Kernel.Stats
import Microkernel.Supervisor.ServerSet
import Microkernel.Supervisor.SharedLayout

/-!
# The supervisor

The operator's view of a whole emulated system: a main context, an applet context that may be attached beside it, the shared memory
layout and the system events.
-/

namespace Microkernel

open Machine
open Wire (Bytes)

/-- Which of the two contexts something belongs to. The main one is always there. -/
inductive ContextKind
  | main
  | applet
  deriving DecidableEq, Repr, Inhabited

namespace ContextKind

def name : ContextKind → String
  | main => "Main"
  | applet => "Applet"

/-- Where services run: in the applet context if that is wanted and one is attached. -/
def select (isApplet appletAttached : Bool) : ContextKind := if isApplet && appletAttached then applet else main

end ContextKind

/-- A supervisor. -/
structure Supervisor where
  config : SupervisorConfig
  main : ServerSet
  applet : Option ServerSet := none
  layout : SharedLayout
  events : SystemEvents := {}
  docked : Bool
  performance : PerformanceMode
  paused : Bool := false
  isShutDown : Bool := false
  deriving Inhabited

/-- A program over a supervisor and its machine. -/
abbrev Supervising := StateT Supervisor Update

/-- What wakes a sleeping applet up: the words 0x534D4153, 1, 2 and 1. -/
def wakeUpMessage : Bytes := [0x534D4153, 1, 2, 1].flatMap Wire.word32

namespace Supervisor

/-- A supervisor over a host; its services do not run yet. -/
def new (config : SupervisorConfig) (host : Host) : Action Supervisor := do
  let kernel ← newKernel config.kernel host
  let layout ← SharedLayout.allocate kernel {}
  let docked := config.dockedMode
  return { config, main := ← ServerSet.new kernel, layout, docked, performance := .forDocked docked }

/-! ## Contexts -/

/-- The context in which services run. -/
def activeContext (s : Supervisor) : ContextKind := .select s.config.isApplet s.applet.isSome

/-- The server set of the active context. -/
def active (s : Supervisor) : ServerSet :=
  match s.activeContext with
  | .applet => s.applet.getD s.main
  | .main => s.main

/-- Replaces the server set of the active context. -/
def setActive (s : Supervisor) (set : ServerSet) : Supervisor :=
  match s.activeContext with
  | .applet => { s with applet := some set }
  | .main => { s with main := set }

/-- The server sets of all contexts. -/
def sets (s : Supervisor) : List ServerSet := s.main :: s.applet.toList

/-- The records that a supervisor keeps alive. -/
def references (s : Supervisor) : List RecordId := s.sets.flatMap ServerSet.references ++ s.layout.references

/-- Attaches an applet context with a kernel of its own. -/
def attachApplet (host : Host) : Supervising (Except SupervisorError Unit) := do
  let s ← get
  if s.applet.isSome then return .error .appletAttached
  match ← (newKernel s.config.kernel host).run with
  | .error e => return .error (.kernel e)
  | .ok kernel =>
    set { s with applet := some (← ServerSet.new kernel) }
    log .info "Applet context attached"
    return .ok ()

/-! ## Services -/

/-- Starts the services of the active context. -/
def startServices : Supervising (Except SupervisorError Unit) := do
  let s ← get
  let (servers, outcome) ← s.active.start s.config.ignoreMissingServices
  set (s.setActive servers)
  if outcome.isOk then log .info s!"Services initialized ({s.activeContext.name} context)"
  return outcome

/-- Stops the services of the active context. -/
def stopServices : Supervising Unit := do
  let s ← get
  set (s.setActive (← s.active.stop))

/-- A supervisor over a host whose services run. -/
def boot (config : SupervisorConfig) (host : Host) : Update (Except SupervisorError Supervisor) := do
  log .info "Booting Horizon HLE"
  match ← (new config host).run with
  | .error e => return .error (.kernel e)
  | .ok s =>
    let (outcome, s) ← startServices.run s
    return outcome.map fun _ => s

/-! ## System events -/

/-- Docks the system or takes it out of its dock; the foreground applet is told. -/
def changeDockedMode (docked : Bool) : Supervising Unit := do
  let s ← get
  if docked ≠ s.docked then
    let performance := PerformanceMode.forDocked docked
    let change := if docked then "enabled" else "disabled"
    log .info s!"Docked mode {change} ({performance.name} performance)"
    let events := ((s.events.pushApplet .operationModeChanged).pushApplet .performanceModeChanged).signalResolutionChange
    set { s with docked, performance, events }

/-- Tells the foreground applet to wake up, on both channels. -/
def wakeUp : Supervising Unit :=
  modify fun s => { s with events := (s.events.pushApplet .resume).pushGeneral wakeUpMessage }

/-- Puts bytes on the general channel. -/
def pushGeneral (bytes : Bytes) : Supervising Unit := modify fun s => { s with events := s.events.pushGeneral bytes }

/-- Pauses or resumes the kernels of all contexts. -/
def setPaused (paused : Bool) : Supervising Unit := do
  let s ← get
  for servers in s.sets do
    if paused then pause servers.kernel else resume servers.kernel
  set { s with paused }

/-! ## Diagnostics -/

/-- Totals over all contexts. -/
def metrics (s : Supervisor) (m : Machine) : SystemMetrics :=
  s.sets.foldl
    (fun total servers =>
      let total := total.add (m.statsOf servers.kernel)
      { total with
        sessions := total.sessions + servers.sessionCount m
        registeredServices := total.registeredServices + (m.registry servers.registry).services.size })
    { ticks := (m.kernel s.main.kernel).ticks, paused := s.paused, docked := s.docked }

/-! ## Shutdown -/

/-- Shuts the kernel of a context down; between its applications and its service hosts runs `hook`, then the servers stop. A shutdown
that fails leaves the servers as they are. -/
def shutDownSet {α : Type} (servers : ServerSet) (hook : Update α) : Update (Except SupervisorError (α × ServerSet)) := do
  let stopServers : Update α := do
    let seen ← hook
    for server in servers.stopOrder do stopServer server
    return seen
  match ← (terminateAll servers.kernel stopServers).run with
  | .ok seen => return .ok (seen, ← servers.stop)
  | .error e =>
    log .error ((if e.isFatal then "Fatal: " else "Shutdown failed: ") ++ e.message)
    return .error (.kernel e)

/-- Shuts the system down, the applet context first; in the main context `hook` runs once its applications are gone. Nothing happens
the second time. -/
def shutDown {α : Type} (hook : Update α) : Supervising (Except SupervisorError (Option α)) := do
  if (← get).isShutDown then return .ok none
  modify fun s => { s with isShutDown := true }
  if (← get).paused then setPaused false
  if let some applet := (← get).applet then
    match ← shutDownSet applet (pure ()) with
    | .error e => return .error e
    | .ok (_, applet) => modify fun s => { s with applet := some applet }
  match ← shutDownSet (← get).main hook with
  | .error e => return .error e
  | .ok (seen, main) =>
    modify fun s => { s with main }
    log .info "Shutdown complete"
    return .ok (some seen)

end Supervisor

end Microkernel
