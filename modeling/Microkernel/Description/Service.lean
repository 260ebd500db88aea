import Microkernel.Json.Fields
import Microkernel.Service.Blueprint
import Microkernel.Service.Buffer
import Microkernel.Service.Error
import Microkernel.Service.Registry
import Microkernel.Wire.Request
import Microkernel.Wire.Response

/-!
# Described values

Errors, messages and firmware versions as an operator describes them.
-/

namespace Microkernel.Description

/-!
## Described errors

Errors by name, with the numbers and texts that they carry.
-/

/-- The kernel errors that carry a number, a text and a length. -/
def kernelErrors (number length : Nat) (text : String) : List KernelError :=
  let word := bits number 0 32
  let descriptor : UInt32 := .ofNat number
  [.outOfHandles, .invalidHandle word, .invalidMemoryState, .invalidPermission, .invalidAddress number, .invalidSize number,
    .outOfMemory, .timedOut, .terminationRequested, .notPermitted word, .portClosed, .sessionClosed, .sessionLimit, .notFound,
    .invalidState, .invalidPriority word, .maximumExceeded, .terminationThreadStalled, .hostThread text,
    .host (.outOfRange number length), .host .notSupported, .capability (.invalidCombination descriptor),
    .capability (.invalidCpuCore descriptor),
    .capability (.reservedValue descriptor), .capability (.invalidCapability descriptor)]

/-- The kernel error with a name; an unknown name is an invalid state. -/
def kernelError (name : String) (j : Json) : KernelError :=
  let number := j.num "arg"
  match name with
  | "Handle.OutOfHandles" => .ofHandleError (.outOfHandles number)
  | "Handle.InvalidHandle" => .ofHandleError (.invalidHandle ⟨.ofNat number⟩)
  | name => (Json.named (kernelErrors number (j.num "len") (j.text "text")) KernelError.name name).getD .invalidState

/-- The service error with a name; the name of a kernel error stands for that error. -/
def serviceError (name : String) (j : Json) : ServiceError :=
  match name with
  | "Result" => .result ⟨.ofNat (j.num "arg")⟩
  | "Corrupted" => .corrupted (j.text "text")
  | "Sm.AlreadyRegistered" => .registry (.alreadyRegistered (j.text "text"))
  | "Sm.NotRegistered" => .registry (.notRegistered (j.text "text"))
  | "Sm.InvalidName" => .registry .invalidName
  | "Protocol.InvalidMagic" => .protocol (.invalidMagic (j.num32 "arg"))
  | name => .kernel (kernelError (if name.startsWith "Kernel." then (name.drop 7).toString else name) j)

/-- The protocol error with a name. -/
def protocolError (name : String) (j : Json) : Wire.ProtocolError :=
  match name with
  | "Truncated" => .truncated (j.num "offset") (j.num "needed") (j.num "available")
  | "InvalidMagic" => .invalidMagic (j.num32 "arg")
  | "InvalidBufferMode" => .invalidBufferMode (bits (j.num "arg") 0 8)
  | _ => .missingHeader (j.num "arg")

/-- What an operation that may have failed answered: success, unless an error is named. -/
def outcome (j : Json) : Except KernelError Unit :=
  match (j.field "error").string? with
  | some name => .error (kernelError name j)
  | none => .ok ()

/-!
## Described messages

Messages, requests and responses as an operator describes them.
-/

open Wire

def static (j : Json) : StaticDescriptor := ⟨.ofNat (j.nthNum 0), .ofNat (j.nthNum 1), .ofNat (j.nthNum 2)⟩

def receiveEntry (j : Json) : ReceiveEntry := ⟨.ofNat (j.nthNum 0), .ofNat (j.nthNum 1)⟩

/-- An unknown mode is the normal one. -/
def buffer (j : Json) : BufferDescriptor :=
  { address := .ofNat (j.nthNum 0), size := .ofNat (j.nthNum 1)
    mode := if j.nthNum 2 = 1 then .nonSecure else if j.nthNum 2 = 3 then .nonDevice else .normal }

def message (j : Json) : Message :=
  { messageType := .ofNat (j.num "type"), pid := if j.hasNumber "pid" then some (.ofNat (j.num "pid")) else none
    copyHandles := j.words "copy", moveHandles := j.words "move", sendStatics := (j.items "statics").map static
    sendBuffers := (j.items "send").map buffer, receiveBuffers := (j.items "recv").map buffer
    exchangeBuffers := (j.items "exch").map buffer, receiveList := (j.items "recv_list").map receiveEntry
    receiveListOffset := .ofNat (j.num "recv_list_offset"), data := j.hex "data", dataOffset := j.num "data_offset" }

/-- An argument: its kind and its value; a name that no service can have is zero. -/
def argument (j : Json) : Argument :=
  match j.nthText 0 with
  | "u32" => .word (.ofNat (j.nthNum 1))
  | "u64" => .longWord (.ofNat (j.nthNum 1))
  | "name" => .longWord (.ofNat (((ServiceName.ofString (j.nthText 1)).toOption.map ServiceName.toWord).getD 0))
  | _ => .raw (j.nthHex 1)

def request (j : Json) : RequestDescription :=
  let mapped (name : String) : List BufferDescriptor :=
    (j.items name).map fun d => .mapped (.ofNat (d.nthNum 0)) (.ofNat (d.nthNum 1))
  { commandType := (CommandType.ofCode? (.ofNat (j.natOr "type" 4))).getD .invalid, commandId := .ofNat (j.num "id")
    sendPid := j.flag "pid", copyHandles := j.words "copy", moveHandles := j.words "move"
    sendStatics := (j.items "statics").map static, sendBuffers := mapped "send", receiveBuffers := mapped "recv"
    exchangeBuffers := mapped "exch", receiveList := (j.items "recv_list").map receiveEntry
    arguments := (j.items "args").map argument }

/-- The image of a request: one that closes the session, bytes as they are, or the image of a described request. -/
def image (j : Json) : Except ProtocolError Bytes :=
  if j.flag "close" then .ok closeRequest
  else if j.field "hex" matches .string _ then .ok (j.hex "hex")
  else (request j).encode

def response (j : Json) : Response :=
  { result := ⟨.ofNat (j.num "result")⟩, payload := j.hex "payload", copyHandles := j.words "copy", moveHandles := j.words "move"
    sendStatics := (j.items "statics").map static }

/-- A declared buffer: its kind, index and least size. -/
def bufferSpec (j : Json) : BufferSpec :=
  let kinds : List BufferKind := [.input, .output, .outputEither, .exchange, .inputPointer]
  { kind := (Json.named kinds BufferKind.name (j.nthText 0)).getD .outputPointer, index := j.nthNum 1, minSize := j.nthNum 2 }

/-!
## Described services

Firmware versions, scripts and blueprints as an operator describes them.
-/

/-- A firmware version; what is left out is as in the default one. -/
def firmware (j : Json) : FirmwareVersion :=
  let d : FirmwareVersion := {}
  let byte (name : String) (fallback : UInt8) : UInt8 := .ofNat (j.natOr name fallback.toNat)
  { major := byte "major" d.major, minor := byte "minor" d.minor, micro := byte "micro" d.micro
    revision := .ofInt (j.intOr "revision" d.revision.toNat), platform := j.textOr "platform" d.platform
    versionHash := j.textOr "version_hash" d.versionHash, displayVersion := j.textOr "display_version" d.displayVersion
    displayTitle := j.textOr "display_title" d.displayTitle }

end Microkernel.Description
