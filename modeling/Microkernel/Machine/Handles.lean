import Microkernel.Machine.Sessions

/-!
# Handles of a machine

Binding an object to a handle, resolving and closing handles, over the tables of all processes. Every object counts the handles that
name it; the close that removes the last one tears a session or port end down.
-/

namespace Microkernel.Machine

/-- Counts one more handle on an object. -/
def handleOpened (object : KernelObject) : Update Unit :=
  modify fun s => { s with handleCounts := s.handleCounts.insert object.id (s.handleCount object.id + 1) }

/-- Counts one handle less; the last one closes the end of a session or of a port. -/
def handleClosed (object : KernelObject) : Update Unit := do
  let count := (← get).handleCount object.id
  modify fun s => { s with handleCounts := s.handleCounts.insert object.id (count - 1) }
  if count = 1 then
    match object with
    | .clientSession id => closeClientSession id
    | .serverSession id => closeServerSession id
    | .serverPort id => closePort id
    | _ => return

/-- Binds an object to a fresh handle of a process. -/
def generateHandle (process : RecordId) (object : KernelObject) : Action Handle := do
  let p := (← get).process process
  match p.handles.generate object with
  | .ok (handle, handles) =>
    setProcess process { p with handles }
    handleOpened object
    return handle
  | .error e =>
    if let .outOfHandles capacity := e then
      log .warn s!"{p.name} ({p.pidText}): handle table exhausted at {capacity} entries"
    throw (.ofHandleError e)

/-- The object that a handle of a process names. -/
def resolveHandle (process : RecordId) (handle : Handle) : Action KernelObject := do
  match ((← get).process process).handles.resolve handle with
  | some object => return object
  | none => throw (.invalidHandle handle.raw.toNat)

/-- Removes a handle of a process. -/
def closeHandle (process : RecordId) (handle : Handle) : Action Unit := do
  let p := (← get).process process
  match p.handles.close handle with
  | .ok (object, handles) =>
    setProcess process { p with handles }
    handleClosed object
  | .error e => throw (.ofHandleError e)

/-- Removes a handle if it names something. -/
def releaseHandle (process : RecordId) (handle : Handle) : Update Unit := Action.forget (closeHandle process handle)

end Microkernel.Machine
