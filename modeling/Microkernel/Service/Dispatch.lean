import Microkernel.Service.Handlers
import Microkernel.Wire.Response

/-!
# Dispatch

From one request image to one response image. A request that cannot be read, an unknown command and a handler that fails all become
result codes; only a request to close, and a handler that reports its state corrupted, end the session.
-/

namespace Microkernel

open Machine
open Wire (Bytes CommandType Message Request Response)

/-- What is left to do after a request. -/
structure Dispatched where
  /-- The response image; empty after a request to close. -/
  response : Bytes := []
  /-- Whether the session ends. -/
  close : Bool := false
  /-- The sessions to serve from now on. -/
  newSessions : List SessionEntry := []
  deriving DecidableEq, Repr, Inhabited

/-- A response that carries only a result. -/
def Dispatched.failure (code : ResultCode) : Dispatched := { response := Response.bare code }

/-- The image of a response, or of no response if it does not fit. -/
def imageOf (r : Response) : Bytes := (r.encode.toOption).getD []

/-- The response to a call that succeeded, under the handles that the client got. -/
def Call.response (c : Call) (copies moves : List Handle) : Response := {
  result := .success, payload := c.output, copyHandles := copies.map Handle.raw, moveHandles := moves.map Handle.raw
  sendStatics := c.statics }

/-- What the commands of service instances do. -/
abbrev Handlers := RecordId → UInt32 → Handler Unit

/-- Who answers: the process of a server on its kernel. -/
structure Dispatcher where
  kernel : RecordId
  server : RecordId
  pointerBufferSize : UInt16 := defaultPointerBufferSize
  deriving DecidableEq, Repr, Inhabited

namespace Dispatcher

/-- The call of a request, before anything is attached. -/
def call (d : Dispatcher) (client : RecordId) (request : Request) : Call :=
  { kernel := d.kernel, server := d.server, client, request }

/-- Delivers what a handler that succeeded has staged, and writes the response. -/
def complete (d : Dispatcher) (c : Call) : Update Dispatched := do
  let server := ((← get).process d.server).name
  match ← c.commit with
  | .error e =>
    let e := ServiceError.kernel e
    log .warn s!"{server}: reply not delivered: {e.message}"
    Call.discard (c.copyOut ++ c.moveOut) c.newSessions
    return .failure e.code
  | .ok (copies, moves) =>
    match (c.response copies moves).encode with
    | .ok response => return { response, newSessions := c.newSessions }
    | .error e =>
      log .error s!"{server}: response does not fit: {e.message}"
      Call.unbind c.client (copies ++ moves)
      Call.discard [] c.newSessions
      return .failure .handlerFailed

/-- What becomes of a call whose handler is over. -/
def conclude (d : Dispatcher) (c : Call) (label : String) (outcome : Except HandlerFailure Unit) : Update Dispatched := do
  let discard := Call.discard (c.copyOut ++ c.moveOut) c.newSessions
  match outcome with
  | .ok () => d.complete c
  | .error (.error (.corrupted reason)) =>
    log .error s!"{label} corrupted its session: {reason}"
    discard
    return { response := Response.bare .handlerFailed, close := true }
  | .error (.error e) =>
    discard
    return .failure e.code
  | .error .panicked =>
    log .error s!"{label} panicked"
    discard
    return .failure .handlerFailed

/-- Carries out a command: attached handles are duplicated, the handler runs, and what it staged is delivered. -/
def carryOut (d : Dispatcher) (handler : Handler Unit) (label : String) (call : Call) : Update Dispatched := do
  match ← call.importAll with
  | (.error e, c) =>
    c.release
    log .warn s!"{label} bad handle: {e.message}"
    return .failure e.code
  | (.ok (), c) =>
    let (outcome, c) ← handler.run.run c
    let dispatched ← d.conclude c label outcome
    c.release
    return dispatched

/-- Answers a request to a service. -/
def dispatchRequest (d : Dispatcher) (handlers : Handlers) (entry : SessionEntry) (client : RecordId) (request : Request) :
    Update Dispatched := do
  let id := request.commandId
  let service := (← get).service entry.service
  let interface := service.interfaceName
  match service.findCommand id with
  | none =>
    log .warn s!"{interface}: unknown command {id}"
    return .failure .unknownCommandId
  | some command =>
    let label := s!"{interface}: {command.name} ({id})"
    match validateBuffers command.buffers request.message with
    | .error e =>
      log .warn s!"{label} rejected: {e.message}"
      return .failure e.code
    | .ok () => d.carryOut (handlers entry.service id) label (d.call client request)

/-- Opens a second session to the service instance behind a session. -/
def cloneSession (entry : SessionEntry) (client : RecordId) : Update Dispatched := do
  let (server, clientEnd) ← newSession none
  match ← (generateHandle client (.clientSession clientEnd)).run with
  | .error e =>
    closeClientSession clientEnd
    return .failure e.code
  | .ok handle =>
    return {
      response := imageOf { result := .success, moveHandles := [handle.raw] }
      newSessions := [{ session := server, service := entry.service }] }

/-- Answers a request to the session itself. -/
def dispatchControl (d : Dispatcher) (entry : SessionEntry) (client : RecordId) (request : Request) : Update Dispatched := do
  let id := request.commandId
  if id = Wire.queryPointerBufferSize then
    return { response := imageOf { result := .success, payload := Wire.word32 d.pointerBufferSize.toNat } }
  else if id = Wire.cloneObject ∨ id = Wire.cloneObjectEx then cloneSession entry client
  else
    log .warn s!"{((← get).process client).name}: unsupported control command {id}"
    return .failure .unknownCommandId

/-- Answers one message image of a client, where the commands of services do what the handlers do. -/
def dispatchWith (d : Dispatcher) (handlers : Handlers) (entry : SessionEntry) (client : RecordId) (image : Bytes) :
    Update Dispatched := do
  let name := ((← get).process client).name
  match Message.decode image with
  | .error e =>
    log .warn s!"{name}: malformed request: {e.message}"
    return .failure .invalidHeaderSize
  | .ok message =>
    let command := (CommandType.ofCode? message.messageType).getD .invalid
    if command = .close then return { close := true }
    else if command.isRequest then
      match Request.ofMessage command message with
      | .ok request => d.dispatchRequest handlers entry client request
      | .error e =>
        log .warn s!"{name}: bad request header: {e.message}"
        return .failure .invalidInHeader
    else if command.isControl then
      match Request.ofMessage command message with
      | .ok request => d.dispatchControl entry client request
      | .error e =>
        log .warn s!"{name}: bad control header: {e.message}"
        return .failure .invalidInHeader
    else
      log .warn s!"{name}: unsupported message type {message.messageType}"
      return .failure .invalidInHeader

/-- Answers one message image of a client. -/
def dispatch (d : Dispatcher) (entry : SessionEntry) (client : RecordId) (image : Bytes) : Update Dispatched :=
  d.dispatchWith Service.invoke entry client image

/-- Serves a request that was taken from a session: its message is read from the client, answered, and the request completed. -/
def handle (d : Dispatcher) (entry : SessionEntry) (request : RecordId) : Update Dispatched := do
  let r := (← get).request request
  let name := ((← get).process r.client).name
  match ← (readMemory r.client r.messageAddress Wire.messageBufferSize).run with
  | .error e =>
    log .warn s!"{name}: unreadable message buffer at {Text.hex r.messageAddress}: {e.message}"
    Action.forget (reply entry.session (.error e))
    return {}
  | .ok image =>
    let outcome ← d.dispatch entry r.client image
    let written ← if outcome.response.isEmpty then pure (.ok ()) else (writeMemory r.client r.messageAddress outcome.response).run
    if let .error e := written then log .warn s!"{name}: response not written: {e.message}"
    Action.forget (reply entry.session written)
    return outcome

end Dispatcher

end Microkernel
