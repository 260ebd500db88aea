import Microkernel.Records
import Microkernel.Report.Wire
import Microkernel.Supervisor.Basic

/-!
# Constants by name

The numbers that guests and hosts have agreed on, in groups.
-/

namespace Microkernel.Constants

open Json (nat record)

/-- Result codes by name. -/
def codes (named : List (String × ResultCode)) : Json := record (named.map fun (name, code) => (name, code.toJson))

/-- Numbers by name. -/
def numbers (named : List (String × Nat)) : List (String × Json) := named.map fun (name, n) => (name, nat n)

def kernel : Json :=
  codes [("CANCELLED", .cancelled), ("INVALID_ADDRESS", .invalidAddress), ("INVALID_CAPABILITY", .invalidCapability),
    ("INVALID_COMBINATION", .invalidCombination), ("INVALID_CPU_CORE", .invalidCpuCore),
    ("INVALID_ENUM_VALUE", .invalidEnumValue), ("INVALID_HANDLE", .invalidHandle),
    ("INVALID_MEMORY_RANGE", .invalidMemoryRange), ("INVALID_MEMORY_STATE", .invalidMemoryState),
    ("INVALID_PERMISSION", .invalidPermission), ("INVALID_PRIORITY", .invalidPriority), ("INVALID_SIZE", .invalidSize),
    ("INVALID_STATE", .invalidState), ("MAXIMUM_EXCEEDED", .maximumExceeded), ("NOT_FOUND", .notFound),
    ("OUT_OF_HANDLES", .outOfHandles), ("OUT_OF_MEMORY", .outOfMemory), ("OUT_OF_RESOURCE", .outOfResource),
    ("PORT_CLOSED", .portClosed), ("PORT_REMOTE_CLOSED", .portRemoteClosed), ("RESERVED_VALUE", .reservedValue),
    ("SESSION_COUNT_EXCEEDED", .sessionCountExceeded), ("THREAD_TERMINATING", .threadTerminating), ("TIMED_OUT", .timedOut)]

def serviceFrame : Json :=
  codes [("HANDLER_FAILED", .handlerFailed), ("INVALID_BUFFER_SIZE", .invalidBufferSize),
    ("INVALID_HEADER_SIZE", .invalidHeaderSize), ("INVALID_IN_HEADER", .invalidInHeader),
    ("UNKNOWN_COMMAND_ID", .unknownCommandId)]

def serviceManager : Json :=
  codes [("ALREADY_REGISTERED", .alreadyRegistered), ("INVALID_CLIENT", .invalidClient), ("INVALID_NAME", .invalidName),
    ("NOT_ALLOWED", .notAllowed), ("NOT_REGISTERED", .notRegistered), ("OUT_OF_PROCESSES", .outOfProcesses),
    ("OUT_OF_SERVICES", .outOfServices), ("OUT_OF_SESSIONS", .outOfSessions)]

open Capability in
def capability : Json :=
  record (numbers [("TYPE_CORE_PRIORITY", corePriorityKind), ("TYPE_SYSCALL_MASK", callMaskKind),
      ("TYPE_MAP_RANGE", mapRangeKind), ("TYPE_MAP_IO_PAGE", mapPageKind), ("TYPE_MAP_REGION", mapRegionKind),
      ("TYPE_INTERRUPT_PAIR", interruptPairKind), ("TYPE_PROGRAM_TYPE", programTypeKind),
      ("TYPE_KERNEL_VERSION", kernelVersionKind), ("TYPE_HANDLE_TABLE_SIZE", handleTableSizeKind),
      ("TYPE_DEBUG_FLAGS", debugFlagsKind), ("TYPE_PADDING", paddingKind), ("SYSCALLS_PER_MASK", callsPerDescriptor)]
    ++ [("SERVICE_DEFAULT", Wire.handlesReport serviceDefault)])

open Wire in
def wire : Json :=
  record (numbers [("DATA_ALIGNMENT", frameAlignment), ("HEADER_SIZE", frameHeaderSize), ("IN_HEADER_MAGIC", requestMagic),
      ("OUT_HEADER_MAGIC", responseMagic), ("MESSAGE_BUFFER_SIZE", messageBufferSize)]
    ++ [("CONTROL", handlesReport [convertToDomain, copyFromDomain, cloneObject, queryPointerBufferSize, cloneObjectEx])])

def memory : Json :=
  let range (base size : Nat) : Json := Json.list nat [base, size]
  record ([("TLS", range threadLocalBase threadLocalSize), ("ALIAS", range aliasBase aliasSize), ("HEAP", range heapBase heapSize)]
    ++ numbers [("CODE", codeBase), ("MAX_WAIT_OBJECTS", maxWaitObjects), ("PAGE_SIZE", pageSize),
      ("TICK_FREQUENCY", tickFrequency)])

def supervisor : Json :=
  let sizes : SharedLayout.Sizes := {}
  record [("SIZES", Json.list nat [sizes.hid, sizes.font, sizes.iirs, sizes.time, sizes.capture]),
    ("WAKE_UP_MESSAGE", bytesReport wakeUpMessage), ("PRIORITY", nat servicePriority.toNat),
    ("SM_INIT_TIMEOUT_MS", nat ServerSet.managerTimeout), ("OPTIONS", ServerOptions.toJson {})]

/-- The groups by name. -/
def groups : List (String × Json) :=
  [("kernel", kernel), ("sf", serviceFrame), ("sm", serviceManager), ("capability", capability), ("wire", wire),
    ("kernel_memory", memory), ("supervisor", supervisor)]

end Microkernel.Constants
