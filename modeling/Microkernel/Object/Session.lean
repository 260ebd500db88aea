import Microkernel.Error
import Microkernel.Object.Basic
import Microkernel.Sync

/-!
# Sessions and ports
-/

namespace Microkernel

/-!
## Sessions

A session is one connection between a client and a server. Requests queue on it; the server takes them one by one and answers each
before it takes the next. Closing the server side fails what is queued and spares the request being served; closing the client side is
something the server notices between requests.
-/

/-- The part that both ends of a session share. -/
structure Session where
  pending : List RecordId := []
  /-- The request being served. -/
  current : Option RecordId := none
  clientOpen : Bool := true
  serverOpen : Bool := true
  /-- Who waits for the server's end. -/
  waiters : WaitList := {}
  /-- The port that the session was opened through. -/
  port : Option RecordId := none
  deriving DecidableEq, Repr, Inhabited

namespace Session

/-- Queues a request. -/
def send (s : Session) (request : RecordId) : Except KernelError Session :=
  if !s.serverOpen then .error .sessionClosed
  else if !s.clientOpen then .error .invalidState
  else .ok { s with pending := s.pending ++ [request] }

/-- Takes the oldest request to serve it, unless one is being served or the server side is closed. -/
def receive (s : Session) : Option (RecordId × Session) :=
  match s.current, s.serverOpen, s.pending with
  | none, true, request :: rest => some (request, { s with pending := rest, current := some request })
  | _, _, _ => none

/-- Takes the request being served away from the server. -/
def finish (s : Session) : Option (RecordId × Session) :=
  s.current.map fun request => (request, { s with current := none })

/-- Closes the server side; answers with the requests that fail for it, or with nothing if it was closed before. -/
def closeServer (s : Session) : Option (List RecordId × Session) :=
  if s.serverOpen then some (s.pending, { s with serverOpen := false, pending := [] }) else none

/-- Closes the client side, unless it was closed before. -/
def closeClient (s : Session) : Option Session := if s.clientOpen then some { s with clientOpen := false } else none

/-- Whether the server has something to do: a request to take, or a client that is gone. -/
def isSignaled (s : Session) : Bool := (s.current.isNone && !s.pending.isEmpty) || !s.clientOpen

end Session

/-- One end of a session, as a handle names it. -/
structure SessionEnd where
  session : RecordId
  deriving DecidableEq, Repr, Inhabited

/-- A request in flight: whose it is, where its message lies, and what became of it. -/
structure SessionRequest where
  client : RecordId
  messageAddress : Nat
  result : Option (Except KernelError Unit) := none
  waiters : WaitList := {}
  deriving Repr, Inhabited

/-- Records an outcome; the first one stands. -/
def SessionRequest.complete (r : SessionRequest) (result : Except KernelError Unit) : SessionRequest :=
  if r.result.isSome then r else { r with result := some result }

/-!
## Ports

A port is where a service is reached. A client that connects gets a session whose server end queues on the port until it is
accepted. A port counts the sessions opened through it whose server side is still open and never has more than its limit.
-/

/-- The part that both ends of a port share. -/
structure Port where
  name : String
  maxSessions : Nat
  /-- The server ends that wait to be accepted, oldest first. -/
  incoming : List RecordId := []
  /-- The sessions opened through the port and not yet closed by the server. -/
  sessions : Nat := 0
  isOpen : Bool := true
  waiters : WaitList := {}
  deriving DecidableEq, Repr, Inhabited

namespace Port

/-- Takes a place for one more session. -/
def takePlace (p : Port) : Except KernelError Port :=
  if !p.isOpen then .error .portClosed
  else if p.maxSessions ≤ p.sessions then .error .sessionLimit
  else .ok { p with sessions := p.sessions + 1 }

/-- Queues a server end. -/
def enqueue (p : Port) (server : RecordId) : Port := { p with incoming := p.incoming ++ [server] }

/-- Takes the oldest server end that waits. -/
def accept (p : Port) : Option (RecordId × Port) :=
  match p.incoming with
  | server :: rest => some (server, { p with incoming := rest })
  | [] => none

/-- Gives the place of a session back. -/
def release (p : Port) : Port := { p with sessions := p.sessions - 1 }

/-- Closes the port; answers with the server ends that were still waiting, or with nothing if it was closed before. -/
def close (p : Port) : Option (List RecordId × Port) :=
  if p.isOpen then some (p.incoming, { p with isOpen := false, incoming := [] }) else none

end Port

/-- One end of a port, as a handle names it. -/
structure PortEnd where
  port : RecordId
  deriving DecidableEq, Repr, Inhabited

end Microkernel
