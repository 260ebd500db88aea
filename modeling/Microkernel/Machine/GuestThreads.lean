import Microkernel.Machine.Processes

/-!
# Guest threads

A guest thread takes one call at a time. A call is checked against the call mask of its process, passes a checkpoint at which a paused
process holds it, and then runs; a call that has to wait leaves a `Wait` behind, and its answer comes when the wait is over.
-/

namespace Microkernel.Machine

open Wire (Bytes)

/-- What a call does when it runs: it answers, or it waits. -/
inductive CallStep
  | answer (value : CallValue)
  | wait (objects : List Waitable) (timeout : Timeout) (purpose : WaitPurpose)
  /-- The entry of the thread is over. -/
  | leave (ending : ThreadEnd)

/-! ## Objects behind handles -/

/-- The object that a handle names for a thread, which may name itself and its process. -/
def resolveFor (thread : RecordId) (handle : Handle) : Action KernelObject := do
  let process := ((← get).thread thread).process
  if handle = .currentProcess then return .process process
  else if handle = .currentThread then return .thread thread
  else resolveHandle process handle

/-- The object of one kind that a handle names for a thread. -/
def resolveAs {α : Type} (thread : RecordId) (handle : Handle) (cast : KernelObject → Option α) : Action α := do
  match cast (← resolveFor thread handle) with
  | some a => return a
  | none => throw (.invalidHandle handle.raw.toNat)

/-- Binds a client session, or closes it. -/
def bindClientSession (process session : RecordId) : Action Handle := do
  try generateHandle process (.clientSession session)
  catch e =>
    closeClientSession session
    throw e

/-- The things to wait on behind handles: all are resolved before the first that cannot be waited on is refused. -/
def waitablesFor (thread : RecordId) (handles : List Handle) : Action (List Waitable) := do
  let objects ← handles.mapM (resolveFor thread)
  (objects.zip handles).mapM fun (object, handle) =>
    match object.waitable? with
    | some w => pure w
    | none => throw (.invalidHandle handle.raw.toNat)

/-! ## The message buffer -/

/-- Puts a message into the buffer of a thread. -/
def writeMessageBuffer (thread : RecordId) (bytes : Bytes) : Action Unit := do
  if Wire.messageBufferSize < bytes.length then throw (.invalidSize bytes.length)
  let t := (← get).thread thread
  writeMemory t.process t.messageAddress bytes

/-- The whole message buffer of a thread. -/
def readMessageBuffer (thread : RecordId) : Action Bytes := do
  let t := (← get).thread thread
  readMemory t.process t.messageAddress Wire.messageBufferSize

/-- Queues a request on the session that a handle names. -/
def queueRequest (thread : RecordId) (handle : Handle) (isExchange : Bool) : Action CallStep := do
  let session ← resolveAs thread handle KernelObject.clientSession?
  let t := (← get).thread thread
  let request ← newRequest t.process t.messageAddress
  sendRequest session request
  return .wait [.request request] .never (.reply request isExchange)

/-- The pid of the process, or of the owner of the thread, that a handle names. -/
def pidOf (thread : RecordId) (handle : Handle) : Action Nat := do
  let object ← resolveFor thread handle
  let s ← get
  match object with
  | .process id => return (s.process id).pid
  | .thread id =>
    let owner := (s.thread id).process
    if s.processes.contains owner then return (s.process owner).pid else throw (.invalidHandle handle.raw.toNat)
  | _ => throw (.invalidHandle handle.raw.toNat)

/-! ## Calls -/

/-- Runs a call that has passed its checks. -/
def runCall (thread : RecordId) (call : GuestCall) : Action CallStep := do
  let process := ((← get).thread thread).process
  let done (program : Action Unit) : Action CallStep := do
    program
    return .answer .unit
  let number (program : Action Nat) : Action CallStep := do return .answer (.number (← program))
  let handle (program : Action Handle) : Action CallStep := number do return (← program).raw.toNat
  let event (h : Handle) : Action RecordId := resolveAs thread h KernelObject.event?
  let shared (h : Handle) : Action RecordId := resolveAs thread h KernelObject.sharedMemory?
  let transfer (h : Handle) : Action RecordId := resolveAs thread h KernelObject.transferMemory?
  match call with
  | .checkpoint => return .answer .unit
  | .resolve h => return .answer (.object (← resolveFor thread h))
  | .generateHandle object => handle (generateHandle process object)
  | .bindSession session => handle (bindClientSession process session)
  | .createEvent mode => handle do generateHandle process (.event (← newEvent mode))
  | .signalEvent h => done do signalEvent (← event h)
  | .clearEvent h => done do clearEvent (← event h)
  | .resetSignal h => done do resetEvent (← event h)
  | .wait handles nanos =>
    if maxWaitObjects < handles.length then throw .maximumExceeded
    return .wait (← waitablesFor thread handles) (.ofNanos nanos) .index
  | .sleep nanos => if nanos ≤ 0 then return .answer .unit else return .wait [] (.ofNanos nanos) .sleep
  | .closeHandle h =>
    if h.isPseudo then throw (.invalidHandle h.raw.toNat)
    done (closeHandle process h)
  | .allocate size permission => number (allocateHeap process size permission)
  | .readMemory address length => return .answer (.bytes (← readMemory process address length))
  | .writeMemory address bytes => done (writeMemory process address bytes)
  | .createTransfer address size permission =>
    handle do generateHandle process (.transferMemory (← lendHeap process address size permission))
  | .mapShared h address size permission => number do mapShared (← shared h) process address size permission
  | .unmapShared h address size => done do unmapShared (← shared h) process address size
  | .mapTransfer h address size permission => number do mapTransfer (← transfer h) process address size permission
  | .unmapTransfer h address size => done do unmapTransfer (← transfer h) process address size
  | .protectTransfer h permission => done do protectTransfer (← transfer h) permission
  | .connect name =>
    let kernel := ((← get).process process).kernel
    handle do bindClientSession process (← connectNamedPort kernel name)
  | .sendRequest h => queueRequest thread h false
  | .exchange h _ => queueRequest thread h true
  | .writeMessage bytes => done (writeMessageBuffer thread bytes)
  | .readMessage => return .answer (.bytes (← readMessageBuffer thread))
  | .messageAddress => return .answer (.number ((← get).thread thread).messageAddress)
  | .systemTick =>
    let s ← get
    return .answer (.number (s.kernel (s.process process).kernel).ticks)
  | .processId h => number (pidOf thread h)
  | .writeDebug text =>
    let p := (← get).process process
    log .info s!"{p.name}: {text}"
    let k := (← get).kernel p.kernel
    setKernel p.kernel { k with host := k.host.writeDebug text }
    return .answer .unit
  | .exitProcess =>
    terminateProcess process (some thread)
    throw .terminationRequested
  | .finish => return .leave .returned
  | .fail e => return .leave (.failed e)
  | .panic => return .leave .panicked

/-- Ends a call with its answer; a call that answers that the thread was asked to exit ends the thread. -/
def finishCall (thread : RecordId) (answer : Except KernelError CallValue) : Update Unit := do
  answerCall thread answer
  match answer with
  | .error .terminationRequested => exitThread thread .returned
  | _ => setActivity thread .idle

/-- What a call whose wait is over answers. -/
def afterWait (thread : RecordId) (purpose : WaitPurpose) (result : Except KernelError Nat) : Action CallValue := do
  match purpose with
  | .index => return .number (← result)
  | .sleep =>
    match result with
    | .ok _ => return .unit
    | .error .timedOut => return .unit
    | .error e => throw e
  | .reply request isExchange =>
    match result with
    | .ok _ =>
      (((← get).request request).result).getD (.error .sessionClosed)
      if isExchange then return .message (← readMessageBuffer thread) else return .unit
    | .error e =>
      completeRequest request (.error .terminationRequested)
      throw e
  | .serve _ => return .unit

/-- Ends the wait of a guest thread. -/
def endGuestWait (thread : RecordId) (purpose : WaitPurpose) (result : Except KernelError Nat) : Update Unit := do
  moveThread thread .endWait
  finishCall thread (← (afterWait thread purpose result).run)

/-- Goes on with a call that has passed its checkpoint. -/
def proceed (thread : RecordId) (call : GuestCall) : Update Unit := do
  match ← (runCall thread call).run with
  | .error e => finishCall thread (.error e)
  | .ok (.answer value) => finishCall thread (.ok value)
  | .ok (.leave ending) =>
    answerCall thread (.ok .unit)
    exitThread thread ending
  | .ok (.wait objects timeout purpose) =>
    moveThread thread .beginWait
    let cancelled := ((← get).thread thread).terminationRequested
    match ← (beginWait thread cancelled objects timeout).run with
    | .ok none =>
      let isTimed := timeout ≠ .never
      setActivity thread (.waiting { objects, isTimed, purpose })
    | .ok (some index) => endGuestWait thread purpose (.ok index)
    | .error e => endGuestWait thread purpose (.error e)

/-- Passes a checkpoint: the call ends if the thread was asked to exit, and is held while the process is paused. -/
def passCheckpoint (thread : RecordId) (call : GuestCall) : Update Unit := do
  let s ← get
  let t := s.thread thread
  if t.terminationRequested then finishCall thread (.error .terminationRequested)
  else if (s.process t.process).paused then setActivity thread (.held call)
  else proceed thread call

/-- Whether a process's mask lets a thread make a call. -/
def permits (s : Machine) (thread : RecordId) (id : CallId) : Bool :=
  let t := s.thread thread
  t.type ≠ .guest || (s.process t.process).capabilities.allowsCall id.number

/-- Refuses a supervisor call that the mask does not name, and otherwise passes the checkpoint. -/
def enterCall (thread : RecordId) (call : GuestCall) : Update Unit := do
  match call.callId? with
  | some id =>
    let s ← get
    if s.permits thread id then passCheckpoint thread call
    else
      log .warn s!"{(s.process (s.thread thread).process).name}: supervisor call {Text.hex id.number} denied by capabilities"
      finishCall thread (.error (.notPermitted id.number))
  | none => if call matches .checkpoint then passCheckpoint thread call else proceed thread call

/-- Hands a call to an idle guest thread. -/
def submitCall (thread : RecordId) (call : GuestCall) : Update Unit := do
  match call with
  | .exchange _ message =>
    match ← (writeMessageBuffer thread message).run with
    | .ok () => enterCall thread call
    | .error e => finishCall thread (.error e)
  | call => enterCall thread call

end Microkernel.Machine
