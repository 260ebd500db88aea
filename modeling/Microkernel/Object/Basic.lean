/-!
# Kernel objects and their kinds
-/

namespace Microkernel

/-! ## Kinds of kernel objects -/

/-- What a handle can name, as far as guests can tell. The two ends of a port, and of a session, are of one kind. -/
inductive ObjectKind
  | event
  | sharedMemory
  | transferMemory
  | process
  | thread
  | port
  | session
  deriving DecidableEq, Repr, Inhabited

namespace ObjectKind

def all : List ObjectKind := [event, sharedMemory, transferMemory, process, thread, port, session]

def name : ObjectKind → String
  | event => "Event"
  | sharedMemory => "SharedMemory"
  | transferMemory => "TransferMemory"
  | process => "Process"
  | thread => "Thread"
  | port => "Port"
  | session => "Session"

/-- The number of a kind; zero is no kind. -/
def code : ObjectKind → Nat
  | event => 1
  | sharedMemory => 2
  | transferMemory => 3
  | process => 4
  | thread => 5
  | port => 6
  | session => 7

/-- The kind with a given number. -/
def ofCode? (code : Nat) : Option ObjectKind := all.find? (·.code = code)

end ObjectKind

/-!
## Kernel objects

The records of a machine are numbered, and no two records ever have the same number. A kernel object is a record that a handle can name.
-/

/-- Names a record of a machine. -/
abbrev RecordId := Nat

/-- What a handle can name. -/
inductive KernelObject
  | event (id : RecordId)
  | sharedMemory (id : RecordId)
  | transferMemory (id : RecordId)
  | process (id : RecordId)
  | thread (id : RecordId)
  | serverPort (id : RecordId)
  | clientPort (id : RecordId)
  | serverSession (id : RecordId)
  | clientSession (id : RecordId)
  deriving DecidableEq, Repr, Inhabited

namespace KernelObject

def id : KernelObject → RecordId
  | event id => id
  | sharedMemory id => id
  | transferMemory id => id
  | process id => id
  | thread id => id
  | serverPort id => id
  | clientPort id => id
  | serverSession id => id
  | clientSession id => id

def kind : KernelObject → ObjectKind
  | event _ => .event
  | sharedMemory _ => .sharedMemory
  | transferMemory _ => .transferMemory
  | process _ => .process
  | thread _ => .thread
  | serverPort _ => .port
  | clientPort _ => .port
  | serverSession _ => .session
  | clientSession _ => .session

/-! ### The object as one of a kind -/

def event? : KernelObject → Option RecordId
  | event id => some id
  | _ => none

def sharedMemory? : KernelObject → Option RecordId
  | sharedMemory id => some id
  | _ => none

def transferMemory? : KernelObject → Option RecordId
  | transferMemory id => some id
  | _ => none

def clientSession? : KernelObject → Option RecordId
  | clientSession id => some id
  | _ => none

end KernelObject

/-- What a thread can wait on. -/
inductive Waitable
  | event (id : RecordId)
  | process (id : RecordId)
  | thread (id : RecordId)
  | serverPort (id : RecordId)
  | serverSession (id : RecordId)
  | request (id : RecordId)
  deriving DecidableEq, Repr, Inhabited

/-- The object as something to wait on; memory and the client ends are not. -/
def KernelObject.waitable? : KernelObject → Option Waitable
  | event id => some (.event id)
  | process id => some (.process id)
  | thread id => some (.thread id)
  | serverPort id => some (.serverPort id)
  | serverSession id => some (.serverSession id)
  | _ => none

end Microkernel
