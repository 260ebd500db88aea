import Microkernel.Service.Blueprint

/-!
# Service instances

The state behind a session. Every accepted session gets an instance of its own, built from the blueprint of its server.
-/

namespace Microkernel

open Wire (Bytes)

/-- The events of one application manager. -/
structure ApplicationEvents where
  recordUpdate : RecordId
  sdCardMountStatusChanged : RecordId
  gameCardUpdateDetection : RecordId
  gameCardMountFailure : RecordId
  gameCardWake : RecordId
  deriving DecidableEq, Repr, Inhabited

/-- A service instance. -/
inductive Service
  | systemSettings (firmware : FirmwareVersion)
  | wirelessMonitorCreator
  | wirelessMonitor (initialized : Bool)
  | applicationManager (events : ApplicationEvents)
  | serviceManager (registry : RecordId) (ignoreMissing initialized : Bool)
  | absent (name : ServiceName)
  /-- A scripted service, what it has counted and the server end of the last session it made. -/
  | scripted (commands : List ScriptCommand) (counted : UInt32) (lastSession : Option RecordId)

instance : Inhabited Service := ⟨.wirelessMonitorCreator⟩

namespace Service

/-- The name of the interface, as the journal writes it. -/
def interfaceName : Service → String
  | systemSettings _ => "set:sys"
  | wirelessMonitorCreator => "ldn:m"
  | wirelessMonitor _ => "IMonitorService"
  | applicationManager _ => "ns:am"
  | serviceManager _ _ _ => "sm:"
  | absent _ => "missing"
  | scripted _ _ _ => "script"

/-- The commands of the built-in interfaces. -/
def commands : Service → List CommandInfo
  | systemSettings _ =>
    let record := [{ kind := .outputEither, index := 0, minSize := FirmwareVersion.recordSize }]
    [{ id := 3, name := "GetFirmwareVersion", buffers := record }, { id := 4, name := "GetFirmwareVersion2", buffers := record },
      { id := 7, name := "GetLockScreenFlag" }]
  | wirelessMonitorCreator => [{ id := 0, name := "CreateMonitorService" }]
  | wirelessMonitor _ =>
    [{ id := 0, name := "GetStateForMonitor" }, { id := 100, name := "InitializeMonitor" },
      { id := 101, name := "FinalizeMonitor" }]
  | applicationManager _ =>
    [{ id := 2, name := "GetApplicationRecordUpdateSystemEvent" }, { id := 44, name := "GetSdCardMountStatusChangedEvent" },
      { id := 47, name := "GetTotalSpaceSize" }, { id := 48, name := "GetFreeSpaceSize" },
      { id := 52, name := "GetGameCardUpdateDetectionEvent" }, { id := 55, name := "GetApplicationDesiredLanguage" },
      { id := 70, name := "ResumeAll" }, { id := 505, name := "GetGameCardMountFailureEvent" },
      { id := 511, name := "GetGameCardWakenReadyEvent" }, { id := 512, name := "IsGameCardApplicationRunning" }]
  | serviceManager _ _ _ =>
    [{ id := 0, name := "Initialize" }, { id := 1, name := "GetService" }, { id := 2, name := "RegisterService" },
      { id := 3, name := "UnregisterService" }]
  | absent _ => []
  | scripted commands _ _ => commands.map ScriptCommand.info

/-- The command with an id. A stand-in for a missing service has every command. -/
def findCommand (s : Service) (id : UInt32) : Option CommandInfo :=
  match s with
  | absent _ => some { id, name := "ignored" }
  | s => s.commands.find? (·.id = id)

/-- The records that the instance keeps alive. -/
def references : Service → List RecordId
  | applicationManager e =>
    [e.recordUpdate, e.sdCardMountStatusChanged, e.gameCardUpdateDetection, e.gameCardMountFailure, e.gameCardWake]
  | serviceManager registry _ _ => [registry]
  | scripted _ _ lastSession => lastSession.toList
  | _ => []

end Service

end Microkernel
