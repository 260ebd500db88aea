import Microkernel.Service.Call

/-!
# Command handlers

What each command of each service does. Built-in commands are written out; a scripted command runs its steps in order, up to the
first that fails outside an `attempt`.
-/

namespace Microkernel

open Machine

namespace Service

/-- Builds a service instance. -/
def build (blueprint : Blueprint) : Update RecordId := do
  let service ← match blueprint with
    | .systemSettings firmware => pure (systemSettings firmware)
    | .wirelessMonitorCreator => pure wirelessMonitorCreator
    | .wirelessMonitor => pure (wirelessMonitor false)
    | .applicationManager =>
      pure (applicationManager {
        recordUpdate := ← newEvent .manual
        sdCardMountStatusChanged := ← newEvent .manual
        gameCardUpdateDetection := ← newEvent .manual
        gameCardMountFailure := ← newEvent .manual
        gameCardWake := ← newEvent .manual })
    | .serviceManager registry ignoreMissing => pure (serviceManager registry ignoreMissing false)
    | .absent name => pure (absent name)
    | .scripted commands => pure (scripted commands 0 none)
  let id ← freshId
  setService id service
  return id

/-- Opens a session to a fresh instance and sends its client end to the client. -/
def sendFresh (blueprint : Blueprint) : Handler Unit := do Call.openSession (← Call.update (build blueprint))

/-! ## Built-in commands -/

/-- The state of local wireless, which is never available. -/
def wirelessStateNone : Nat := 0

/-- Reported as the total and as the free space of every storage. -/
def storageSpace : Nat := 6999999999999

/-- Settings: the firmware version (3, 4) and the lock screen flag (7). -/
def invokeSettings (firmware : FirmwareVersion) (id : Nat) : Handler Unit :=
  match id with
  | 3 => Call.writeOutEither 0 firmware.encode
  | 4 => Call.writeOutEither 0 firmware.encode
  | 7 => Call.writeBytes [0]
  | _ => Call.failWith .unknownCommandId

/-- The monitor of local wireless: its state (0), starting (100) and stopping (101). -/
def invokeMonitor (self : RecordId) (id : Nat) : Handler Unit :=
  match id with
  | 0 => Call.writeNumber 4 wirelessStateNone
  | 100 => Call.update (setService self (wirelessMonitor true))
  | 101 => Call.update (setService self (wirelessMonitor false))
  | _ => Call.failWith .unknownCommandId

/-- The application manager: its events, storage sizes and flags. -/
def invokeApplications (events : ApplicationEvents) (id : Nat) : Handler Unit :=
  let sendEvent (event : RecordId) := Call.sendObject .copy (.event event)
  let reportSpace : Handler Unit := do
    let _ ← Call.readNumber 1
    Call.writeNumber 8 storageSpace
  match id with
  | 2 => sendEvent events.recordUpdate
  | 44 => sendEvent events.sdCardMountStatusChanged
  | 47 => reportSpace
  | 48 => reportSpace
  | 52 => sendEvent events.gameCardUpdateDetection
  | 55 => do
    let _ ← Call.readNumber 1
    Call.writeBytes [0]
  | 70 => return
  | 505 => sendEvent events.gameCardMountFailure
  | 511 => do
    sendEvent events.gameCardWake
    Call.update (signalEvent events.gameCardWake)
  | 512 => Call.writeBytes [1]
  | _ => Call.failWith .unknownCommandId

/-- Reads a service name. -/
def readName : Handler ServiceName := do
  match ServiceName.ofWord (← Call.readNumber 8) with
  | .ok name => return name
  | .error e => Call.fail (.registry e)

/-- The service manager: a client introduces itself (0), and then looks services up (1), offers (2) and withdraws (3) them. -/
def invokeManager (self registry : RecordId) (ignoreMissing initialized : Bool) (id : Nat) : Handler Unit := do
  if id = 0 then Call.update (setService self (serviceManager registry ignoreMissing true))
  else if 3 < id then Call.failWith .unknownCommandId
  else if !initialized then Call.failWith .invalidClient
  else
    let name ← readName
    match id with
    | 1 =>
      match ← Call.update (connectService registry name) with
      | .ok session => Call.sendObject .move (.clientSession session)
      | .error e =>
        match e, ignoreMissing with
        | .registry (.notRegistered _), true =>
          Call.update (log .warn s!"Missing service {name.text} ignored")
          sendFresh (.absent name)
        | e, _ => Call.fail e
    | 2 =>
      let _ ← Call.readNumber 1
      let maxSessions ← Call.readNumber 4
      match ← Call.update (registerService registry name maxSessions) with
      | .ok port => Call.sendObject .move (.serverPort port)
      | .error e => Call.fail (.registry e)
    | _ =>
      match ← Call.update (unregisterService registry name) with
      | .ok () => return
      | .error e => Call.fail (.registry e)

/-! ## Scripted commands -/

/-- Changes the state of a scripted instance. -/
def changeScripted (self : RecordId) (f : UInt32 → Option RecordId → UInt32 × Option RecordId) : Handler Unit := do
  match (← Call.update get).service self with
  | scripted commands counted lastSession =>
    let (counted, lastSession) := f counted lastSession
    Call.update (setService self (scripted commands counted lastSession))
  | _ => return

/-- Sends an object to the client. -/
def sendSource (self : RecordId) (mode : HandleMode) : ObjectSource → Handler TraceValue
  | .newEvent => do
    Call.sendObject mode (.event (← Call.update (newEvent .manual)))
    return .nothing
  | .newSession => do
    let (server, client) ← Call.update (newSession none)
    changeScripted self fun counted _ => (counted, some server)
    Call.sendObject mode (.clientSession client)
    return .nothing
  | .existing object => do
    Call.sendObject mode object
    return .nothing
  | .missing => return .noObject

/-- Runs a step that sees nothing. -/
def quietly (step : Handler Unit) : Handler TraceValue := do
  step
  return .nothing

/-- Runs one step of a scripted command; answers with what it saw. -/
def runStep (self : RecordId) : ScriptStep → Handler TraceValue
  | .readByte => return .number (← Call.readNumber 1)
  | .readBool => return .bool ((← Call.readNumber 1) ≠ 0)
  | .readWord => return .number (← Call.readNumber 4)
  | .readLongWord => return .number (← Call.readNumber 8)
  | .readBytes length => return .bytes (← Call.readBytes length)
  | .writeByte value => quietly (Call.writeBytes [value])
  | .writeBool value => quietly (Call.writeBytes [if value then 1 else 0])
  | .writeWord value => quietly (Call.writeNumber 4 value.toNat)
  | .writeLongWord value => quietly (Call.writeNumber 8 value.toNat)
  | .writeBytes bytes => quietly (Call.writeBytes bytes)
  | .count => do
    changeScripted self fun counted lastSession => (counted + 1, lastSession)
    let counted := match (← Call.update get).service self with
      | scripted _ counted _ => counted.toNat
      | _ => 0
    Call.writeNumber 4 counted
    return .number counted
  | .inBuffer index => return .bytes (← Call.readInBuffer index)
  | .inPointer index => return .bytes (← Call.readInPointer index)
  | .outBufferInfo index => return ((← get).outBuffer? index).elim .nothing .buffer
  | .outBuffer index bytes => quietly (Call.writeOutBuffer index bytes)
  | .outPointer index bytes => quietly (Call.writeOutPointer index bytes)
  | .outEither index bytes => quietly (Call.writeOutEither index bytes)
  | .readMemory address length => return .bytes (← Call.readMemory address length)
  | .writeMemory address bytes => quietly (Call.writeMemory address bytes)
  | .inHandle mode index => return .number (← Call.inHandle mode index).raw.toNat
  | .keepHandle mode index => return .number (← Call.keepHandle mode index).raw.toNat
  | .inObject mode index => return .object (← Call.inObject mode index)
  | .signalIn mode index => do
    match (← Call.inObject mode index).event? with
    | some event =>
      Call.update (signalEvent event)
      return .bool true
    | none => return .bool false
  | .outObject mode source => sendSource self mode source
  | .sessionDropped => do
    let s ← Call.update get
    match s.service self with
    | scripted _ _ (some server) => return .bool !(s.session (s.serverSession server)).clientOpen
    | _ => return .bool false
  | .makeObject service => quietly (sendFresh service)
  | .who => do
    let s ← Call.update get
    let c ← get
    return .caller (s.process c.client).name (c.clientPid? s) (s.process c.server).name c.request.commandId.toNat
      (s.kernel c.kernel).paused
  | .serverHandles => return .number ((← Call.update get).process (← get).server).handles.count
  | .fail e => Call.fail e
  | .panic => throw .panicked
  | .attempt step => runStep self step
  | .idle => return .noStep

/-- Whether a script goes on when this step fails. -/
def isAttempt : ScriptStep → Bool
  | .attempt _ => true
  | _ => false

/-- Runs the steps of a scripted command and traces what they see. -/
def runScript (self : RecordId) : List ScriptStep → Handler Unit
  | [] => return
  | step :: rest => do
    match ← tryCatch (Except.ok <$> runStep self step) fun e => pure (Except.error e) with
    | .ok value =>
      Call.update (traceStep value)
      runScript self rest
    | .error (.error e) =>
      Call.update (traceStep (.failure e))
      if isAttempt step then runScript self rest else Call.fail e
    | .error .panicked => throw .panicked

/-- Runs a command of a service instance. -/
def invoke (self : RecordId) (id : UInt32) : Handler Unit := do
  match (← Call.update get).service self with
  | systemSettings firmware => invokeSettings firmware id.toNat
  | wirelessMonitorCreator => if id = 0 then sendFresh .wirelessMonitor else Call.failWith .unknownCommandId
  | wirelessMonitor _ => invokeMonitor self id.toNat
  | applicationManager events => invokeApplications events id.toNat
  | serviceManager registry ignoreMissing initialized => invokeManager self registry ignoreMissing initialized id.toNat
  | absent name => Call.update (log .warn s!"Missing service {name.text}: command {id} ignored")
  | scripted commands _ _ =>
    match commands.find? (·.info.id = id) with
    | some command => runScript self command.steps
    | none => Call.failWith .unknownCommandId

end Service

end Microkernel
