import Microkernel.Service.Blueprint
import Microkernel.Service.Options
import Microkernel.Sync

/-!
# Servers

A server answers the sessions of one port from a process of its own. It waits on its port and on at most 63 of its sessions at a
time; when it has more, the window of sessions moves on with every pass.
-/

namespace Microkernel

/-- The most sessions one wait holds beside the port. -/
def waitWindow : Nat := maxWaitObjects - 1

/-- A server. -/
structure Server where
  kernel : RecordId
  name : String
  /-- The server end of its port. -/
  port : RecordId
  /-- Its host process. -/
  process : RecordId
  blueprint : Blueprint
  options : ServerOptions := {}
  sessions : List SessionEntry := []
  /-- Where the next window of sessions begins. -/
  windowStart : Nat := 0
  stopped : Bool := false
  deriving Inhabited

namespace Server

/-- The sessions to wait on in this pass, whether the pass is bounded in time, and where the next pass begins. -/
def window (sessions : List SessionEntry) (start : Nat) : List SessionEntry × Bool × Nat :=
  if sessions.length ≤ waitWindow then (sessions, false, 0)
  else
    let first := start % sessions.length
    (((sessions.drop first) ++ sessions).take waitWindow, true, first + waitWindow)

end Server

end Microkernel
