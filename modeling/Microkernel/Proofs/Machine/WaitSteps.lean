import Mathlib.Logic.Function.Basic
import Microkernel.Machine.Termination

/-!
# Waits and signals in atomic steps

A wait, a signal and a request to exit are not one action each: other parties act between any two of their steps. A `Traffic` is a
machine with all the calls that are under way on it, and `Traffic.step` lets one of them take its next atomic step. The steps
change the machine by the parts that `beginWait`, `resumeWait`, `expireWait`, `signalEvent` and `requestTermination` are made of.
-/

namespace Microkernel.Machine

/-! ## Calls under way -/

/-- Which of its looks at the objects a wait takes. -/
inductive Round
  /-- Before it stands on any wait list. -/
  | first
  /-- Standing on all wait lists, before it blocks. -/
  | again
  /-- After its time was over. -/
  | last
  deriving DecidableEq, Repr

/-- The next atomic step of a wait; objects are taken by their index. -/
inductive WaitStage
  /-- Looks whether its thread is to exit, before anything else. -/
  | entering
  | looking (round : Round) (next : Nat)
  | registering (next : Nat)
  /-- Looks whether its thread is to exit, standing on all wait lists. -/
  | checking
  /-- Takes its wake-up or blocks. -/
  | parking
  /-- Blocked until it is given a wake-up or its time is over. -/
  | parked
  /-- Leaves the wait lists, with its result. -/
  | leaving (next : Nat) (result : Except KernelError Nat)
  | ended (result : Except KernelError Nat)

/-- A wait on events. -/
structure WaitCall where
  objects : List RecordId
  timeout : Timeout
  stage : WaitStage

namespace WaitCall

def isOver (w : WaitCall) : Bool := w.stage matches .ended _

/-- Whether the wait is at the point where it blocks, for a limited time. -/
def canExpire (w : WaitCall) : Bool := (w.stage matches .parking | .parked) && (w.timeout matches .after _)

/-- Where a wait goes on that has found something. -/
def found (w : WaitCall) (round : Round) (index : Nat) : WaitCall :=
  { w with stage := if round = .first then .ended (.ok index) else .leaving 0 (.ok index) }

/-- Where a wait goes on that has looked at all objects and found nothing. -/
def foundNone (w : WaitCall) : Round → WaitCall
  | .first => { w with stage := if w.timeout = .immediate then .ended (.error .timedOut) else .registering 0 }
  | .again => { w with stage := .parking }
  | .last => { w with stage := .leaving 0 (.error .timedOut) }

end WaitCall

/-- What a wait can end on: a signaled event, or the request that a thread exits. -/
inductive Flag
  | event (id : RecordId)
  | exit (thread : ParkerId)
  deriving DecidableEq, Repr

def isUp (s : Machine) : Flag → Bool
  | .event id => (s.event id).signaled
  | .exit thread => (s.thread thread).terminationRequested

/-- A call that has set a flag and goes on to wake those who wait for it. -/
structure Notice where
  flag : Flag
  /-- Who still has to be given a wake-up, once the call has taken the wait list. -/
  owed : Option (List ParkerId)
  /-- Whether the flag has been up ever since. -/
  current : Bool := true
  deriving DecidableEq, Repr

namespace Notice

/-- The call holds the wait list. -/
def isDelivering (n : Notice) : Bool := n.owed matches some (_ :: _)

/-- The call has woken everybody. -/
def isFinished (n : Notice) : Bool := n.owed matches some []

/-- Gives notice that a flag is down. -/
def lower (flag : Flag) (n : Notice) : Notice := if n.flag = flag then { n with current := false } else n

/-- The call has given a wake-up to a parker. -/
def deliver (p : ParkerId) (n : Notice) : Notice := { n with owed := n.owed.map (·.erase p) }

end Notice

/-- A machine and the calls that are under way on it. -/
structure Traffic where
  machine : Machine
  /-- The wait of every parker, if it has one. -/
  waits : ParkerId → Option WaitCall := fun _ => none
  /-- All calls that have set a flag, oldest first. -/
  notices : List Notice := []
  /-- The events that ended a look at them, oldest first. -/
  acquired : List RecordId := []

/-! ## Steps -/

/-- Puts a parker on the wait list of one object. -/
def register (parker : ParkerId) (object : Waitable) : Update Unit := do
  setWaiters object (((← get).waitersOf object).register parker)

/-- Takes a parker off the wait list of one object. -/
def unregister (parker : ParkerId) (object : Waitable) : Update Unit := do
  setWaiters object (((← get).waitersOf object).unregister parker)

/-- Sets the flag of an event. -/
def raiseEvent (id : RecordId) : Update Unit := do setEvent id ((← get).event id).raise

/-- Sets the flag that asks a thread to exit. -/
def raiseExit (id : RecordId) : Update Unit := do setThread id { (← get).thread id with terminationRequested := true }

namespace Traffic

/-- Whether a call that wakes the waiters of an event holds its wait list. -/
def isLocked (x : Traffic) (event : RecordId) : Bool := x.notices.any fun n => n.flag = .event event && n.isDelivering

def setWait (x : Traffic) (p : ParkerId) (w : WaitCall) : Traffic := { x with waits := Function.update x.waits p (some w) }

/-- Gives notice that a flag is down, if it is. -/
def lower (x : Traffic) (flag : Flag) : Traffic :=
  { x with notices := if isUp x.machine flag then x.notices else x.notices.map (·.lower flag) }

/-- Changes the machine. -/
def run (x : Traffic) (program : Update Unit) : Traffic := { x with machine := (program x.machine).2 }

/-- One look at an event. -/
def look (x : Traffic) (event : RecordId) : Bool × Traffic :=
  let (acquired, machine) := tryAcquire (.event event) x.machine
  (acquired, { x with machine, acquired := if acquired then x.acquired ++ [event] else x.acquired }.lower (.event event))

/-- Takes the wake-up of a parker, or blocks. -/
def park (x : Traffic) (p : ParkerId) (w : WaitCall) : Traffic :=
  if x.machine.wakeUps.has p then
    (x.setWait p { w with stage := .checking }).run (modify fun s => { s with wakeUps := s.wakeUps.take p })
  else x.setWait p { w with stage := .parked }

/-- The next atomic step of a wait. One that needs a wait list stays where it is while somebody else holds the list. -/
def proceed (x : Traffic) (p : ParkerId) (w : WaitCall) : Traffic :=
  let exiting := isUp x.machine (.exit p)
  match w.stage with
  | .entering => x.setWait p { w with stage := if exiting then .ended (.error .terminationRequested) else .looking .first 0 }
  | .looking round next =>
    match w.objects[next]? with
    | none => x.setWait p (w.foundNone round)
    | some event =>
      match x.look event with
      | (true, y) => y.setWait p (w.found round next)
      | (false, y) => y.setWait p { w with stage := .looking round (next + 1) }
  | .registering next =>
    match w.objects[next]? with
    | none => x.setWait p { w with stage := .checking }
    | some event =>
      if x.isLocked event then x
      else (x.run (register p (.event event))).setWait p { w with stage := .registering (next + 1) }
  | .checking => x.setWait p { w with stage := if exiting then .leaving 0 (.error .terminationRequested) else .looking .again 0 }
  | .parking => x.park p w
  | .parked => x.park p w
  | .leaving next result =>
    match w.objects[next]? with
    | none => x.setWait p { w with stage := .ended result }
    | some event =>
      if x.isLocked event then x
      else (x.run (unregister p (.event event))).setWait p { w with stage := .leaving (next + 1) result }
  | .ended _ => x

/-- Takes the wait list of an event, to wake everybody on it. -/
def takeList (x : Traffic) (number : Nat) : Traffic :=
  match x.notices[number]? with
  | some { flag := .event event, owed := none, .. } =>
    if x.isLocked event then x
    else { x with notices := x.notices.modify number fun n => { n with owed := some (x.machine.event event).waiters.parkers } }
  | _ => x

/-- Gives a wake-up to one of those who still have to get one. -/
def deliver (x : Traffic) (number : Nat) (p : ParkerId) : Traffic :=
  match x.notices[number]? with
  | some { owed := some owed, .. } =>
    if p ∈ owed then { x.run (wakeOne p) with notices := x.notices.modify number (·.deliver p) } else x
  | _ => x

end Traffic

/-- An atomic step of one party. -/
inductive TrafficAct
  /-- Somebody begins to wait, if it does not wait already. -/
  | begin (p : ParkerId) (events : List RecordId) (timeout : Timeout)
  | proceed (p : ParkerId)
  /-- The time of a wait that is blocked or about to block is over. -/
  | expire (p : ParkerId)
  /-- Somebody signals an event: the flag is set, the waiters are not yet woken. -/
  | signal (event : RecordId)
  /-- Somebody asks a thread to exit: the flag is set, the thread is not yet woken. -/
  | askToExit (thread : ParkerId)
  | takeList (notice : Nat)
  | deliver (notice : Nat) (p : ParkerId)
  | clear (event : RecordId)
  | reset (event : RecordId)
  deriving Repr

namespace Traffic

def step (x : Traffic) : TrafficAct → Traffic
  | .begin p objects timeout =>
    if (x.waits p).all WaitCall.isOver then
      x.setWait p { objects, timeout
                    stage := if maxWaitObjects < objects.length then .ended (.error .maximumExceeded) else .entering }
    else x
  | .proceed p =>
    match x.waits p with
    | some w => x.proceed p w
    | none => x
  | .expire p =>
    match x.waits p with
    | some w => if w.canExpire && !x.machine.wakeUps.has p then x.setWait p { w with stage := .looking .last 0 } else x
    | none => x
  | .signal event => { x.run (raiseEvent event) with notices := x.notices ++ [{ flag := .event event, owed := none }] }
  | .askToExit thread =>
    { x.run (raiseExit thread) with notices := x.notices ++ [{ flag := .exit thread, owed := some [thread] }] }
  | .takeList notice => x.takeList notice
  | .deliver notice p => x.deliver notice p
  | .clear event => (x.run (clearEvent event)).lower (.event event)
  | .reset event => (x.run (Action.forget (resetEvent event))).lower (.event event)

/-- A run from a machine on which no call is under way. -/
def after (s : Machine) (acts : List TrafficAct) : Traffic := acts.foldl step { machine := s }

end Traffic

end Microkernel.Machine
