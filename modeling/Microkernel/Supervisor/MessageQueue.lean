import Microkernel.Sync
import Microkernel.Wire.Bytes

/-!
# Messages to applets
-/

namespace Microkernel

/-! ## Messages to the foreground applet -/

/-- What the foreground applet is told. -/
inductive AppletMessage
  | resume
  | operationModeChanged
  | performanceModeChanged
  deriving DecidableEq, Repr, Inhabited

namespace AppletMessage

def all : List AppletMessage := [resume, operationModeChanged, performanceModeChanged]

def name : AppletMessage → String
  | resume => "Resume"
  | operationModeChanged => "OperationModeChanged"
  | performanceModeChanged => "PerformanceModeChanged"

/-- The word that applets receive. -/
def code : AppletMessage → Nat
  | resume => 16
  | operationModeChanged => 30
  | performanceModeChanged => 31

end AppletMessage

/-- How fast the machine runs. -/
inductive PerformanceMode
  | standard
  | boost
  deriving DecidableEq, Repr, Inhabited

namespace PerformanceMode

def all : List PerformanceMode := [standard, boost]

def name : PerformanceMode → String
  | standard => "Default"
  | boost => "Boost"

/-- A docked machine runs boosted. -/
def forDocked (docked : Bool) : PerformanceMode := if docked then boost else standard

end PerformanceMode

/-!
## Message queues and system events

A message queue is paired with an event that is signaled while the queue holds something. `SystemEvents` gathers the queues and the
plain events that a supervisor offers to its services.
-/

open Wire (Bytes)

/-- A queue and its event. -/
structure MessageQueue (α : Type) where
  items : List α := []
  event : Event := {}
  deriving Repr, Inhabited

namespace MessageQueue

variable {α : Type}

/-- Puts an item at the end of the queue; the event is raised by `announce`. -/
def append (q : MessageQueue α) (item : α) : MessageQueue α := { q with items := q.items ++ [item] }

/-- Raises the event. -/
def announce (q : MessageQueue α) : MessageQueue α := { q with event := q.event.raise }

/-- Puts an item at the end of the queue and raises the event. -/
def push (q : MessageQueue α) (item : α) : MessageQueue α := (q.append item).announce

/-- Takes the oldest item; the event of a queue that is then empty is cleared. -/
def pop (q : MessageQueue α) : Option α × MessageQueue α :=
  match q.items with
  | [] => (none, { q with event := q.event.clear })
  | item :: rest => (some item, { items := rest, event := if rest.isEmpty then q.event.clear else q.event })

end MessageQueue

/-- The events of a system. -/
structure SystemEvents where
  vsync : Event := {}
  displayResolutionChange : Event := {}
  generalChannel : MessageQueue Bytes := {}
  appletMessages : MessageQueue AppletMessage := {}
  deriving Repr, Inhabited

namespace SystemEvents

/-- Queues bytes on the general channel; nothing is queued for no bytes. -/
def pushGeneral (e : SystemEvents) (bytes : Bytes) : SystemEvents :=
  if bytes.isEmpty then e else { e with generalChannel := e.generalChannel.push bytes }

/-- Queues a message to the foreground applet. -/
def pushApplet (e : SystemEvents) (message : AppletMessage) : SystemEvents :=
  { e with appletMessages := e.appletMessages.push message }

def signalVsync (e : SystemEvents) : SystemEvents := { e with vsync := e.vsync.raise }

def signalResolutionChange (e : SystemEvents) : SystemEvents :=
  { e with displayResolutionChange := e.displayResolutionChange.raise }

end SystemEvents

end Microkernel
