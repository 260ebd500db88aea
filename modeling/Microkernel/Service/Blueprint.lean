import Microkernel.Object.Basic
import Microkernel.Service.Buffer
import Microkernel.Service.Registry
import Microkernel.Wire.Bytes

/-!
# Services before they run
-/

namespace Microkernel

/-!
## Firmware version

The record that settings report: version numbers and four texts, each in a slot of fixed size that ends with a zero byte.
-/

open Wire (Bytes)

/-- The firmware that the emulated system reports. -/
structure FirmwareVersion where
  major : UInt8 := 3
  minor : UInt8 := 0
  micro : UInt8 := 0
  revision : UInt32 := 0x0A
  platform : String := "NX"
  versionHash : String := "7fbde2b0bba4d14107bf836e4643043d9f6c8e47"
  displayVersion : String := "3.0.0"
  displayTitle : String := "NintendoSDK Firmware for NX 3.0.0-10.0"
  deriving DecidableEq, Repr, Inhabited

namespace FirmwareVersion

/-- The size of the record. -/
def recordSize : Nat := 0x100

/-- The bytes of a text in a slot: cut so that a zero byte is left, filled up with zeros. -/
def slot (size : Nat) (text : String) : Bytes := Wire.padTo size (text.toUTF8.toList.take (size - 1))

/-- The record as guests read it. -/
def encode (v : FirmwareVersion) : Bytes :=
  [v.major, v.minor, v.micro, 0] ++ Wire.word32 v.revision.toNat ++ slot 0x20 v.platform ++ slot 0x40 v.versionHash
  ++ slot 0x18 v.displayVersion ++ slot 0x80 v.displayTitle

end FirmwareVersion

/-!
## Blueprints of services

What a service instance is built from. Besides the built-in services there are scripted ones: each of their commands is a list of
steps over the call it serves, so that any behaviour a handler can have is a value that can be reasoned about.
-/

/-- How a handle travels: the sender keeps it, or gives it away. -/
inductive HandleMode
  | copy
  | move
  deriving DecidableEq, Repr, Inhabited

/-- What a scripted handler sends to its client. -/
inductive ObjectSource
  /-- An event made for the occasion. -/
  | newEvent
  /-- The client end of a session made for the occasion; the service keeps the server end. -/
  | newSession
  | existing (object : KernelObject)
  /-- Nothing: the object was not there when the script was made. -/
  | missing
  deriving DecidableEq, Repr, Inhabited

mutual

/-- One step of a scripted handler. -/
inductive ScriptStep
  | readByte
  | readBool
  | readWord
  | readLongWord
  | readBytes (length : Nat)
  | writeByte (value : UInt8)
  | writeBool (value : Bool)
  | writeWord (value : UInt32)
  | writeLongWord (value : UInt64)
  | writeBytes (bytes : Bytes)
  /-- Counts the step on the instance and writes the count. -/
  | count
  | inBuffer (index : Nat)
  | inPointer (index : UInt8)
  | outBufferInfo (index : Nat)
  | outBuffer (index : Nat) (bytes : Bytes)
  | outPointer (index : Nat) (bytes : Bytes)
  | outEither (index : Nat) (bytes : Bytes)
  | readMemory (address length : Nat)
  | writeMemory (address : Nat) (bytes : Bytes)
  | inHandle (mode : HandleMode) (index : Nat)
  | keepHandle (mode : HandleMode) (index : Nat)
  | inObject (mode : HandleMode) (index : Nat)
  /-- Signals an attached event; answers whether it was one. -/
  | signalIn (mode : HandleMode) (index : Nat)
  | outObject (mode : HandleMode) (source : ObjectSource)
  /-- Whether the client end of the last session made has been closed. -/
  | sessionDropped
  | makeObject (service : Blueprint)
  /-- Who calls, and what. -/
  | who
  /-- How many handles the server's process has. -/
  | serverHandles
  | fail (e : ServiceError)
  | panic
  /-- Runs a step and goes on whether or not it fails. -/
  | attempt (step : ScriptStep)
  /-- Does nothing. -/
  | idle

/-- A scripted command. -/
inductive ScriptCommand
  | mk (info : CommandInfo) (steps : List ScriptStep)

/-- What a service instance is built from. -/
inductive Blueprint
  | systemSettings (firmware : FirmwareVersion)
  | wirelessMonitorCreator
  | wirelessMonitor
  | applicationManager
  /-- The service manager's interface over a registry. -/
  | serviceManager (registry : RecordId) (ignoreMissing : Bool)
  /-- Stands in for a service that nobody offers. -/
  | absent (name : ServiceName)
  | scripted (commands : List ScriptCommand)

end

instance : Inhabited ScriptStep := ⟨.idle⟩
instance : Inhabited Blueprint := ⟨.scripted []⟩

namespace ScriptCommand

def info : ScriptCommand → CommandInfo
  | mk info _ => info

def steps : ScriptCommand → List ScriptStep
  | mk _ steps => steps

end ScriptCommand

/-!
## The service table

The services that a system starts with, in the order in which they start.
-/

/-- The session limit of the services in the default table. -/
def defaultMaxSessions : Nat := 32

/-- A named service. -/
structure ServiceEntry where
  name : ServiceName
  maxSessions : Nat
  blueprint : Blueprint

/-- Services in the order in which they start; no name stands twice. -/
structure ServiceTable where
  entries : List ServiceEntry := []
  deriving Inhabited

namespace ServiceTable

/-- Puts a service at the end of the table. -/
def add (t : ServiceTable) (name : String) (maxSessions : Nat) (blueprint : Blueprint) : Except RegistryError ServiceTable := do
  let name ← ServiceName.ofString name
  if t.entries.any (·.name = name) then throw (.alreadyRegistered name.text)
  return ⟨t.entries ++ [{ name := name, maxSessions, blueprint }]⟩

/-- The system settings, the local wireless monitor and the application manager. -/
def standard : ServiceTable :=
  let services : List (String × Blueprint) :=
    [("set:sys", .systemSettings {}), ("ldn:m", .wirelessMonitorCreator), ("ns:am", .applicationManager)]
  services.foldl (fun t (name, blueprint) => (t.add name defaultMaxSessions blueprint).toOption.getD t) {}

end ServiceTable

end Microkernel
