import Mathlib.Data.List.Rotate
import Microkernel.Proofs.Machine.WaitsAlone
import Microkernel.Proofs.Service.Memory
import Microkernel.Proofs.Stopping.Invariant
import Microkernel.Proofs.Supervising.Placid

/-!
# Windows of sessions

The window of a pass is the beginning of the server's list, rotated to where the pass begins (`Server.window_eq`), so the windows of
consecutive passes follow on each other around the list. A pass waits for the port and the sessions of its window, which are never too
many, and what it serves does not move the next window (`servePass_start`). `window_reaches_all` puts this together.
-/

namespace Microkernel

/-! ## One window -/

namespace Server

variable {sessions : List SessionEntry} {entry : SessionEntry}

/-- As many sessions as one wait holds are all in the window, and the next one begins at the first again. -/
theorem window_of_le (h : sessions.length ≤ waitWindow) (start : Nat) : window sessions start = (sessions, false, 0) := if_pos h

/-- The window of a long list is the beginning of the rotated list. -/
theorem window_eq (h : waitWindow < sessions.length) (start : Nat) :
    window sessions start = ((sessions.rotate start).take waitWindow, true, start % sessions.length + waitWindow) := by
  have htake : (sessions.drop (start % sessions.length) ++ sessions).take waitWindow = (sessions.rotate start).take waitWindow := by
    rw [List.rotate_eq_drop_append_take_mod, List.take_append, List.take_append, List.take_take, List.length_drop]
    have hlt : start % sessions.length < sessions.length := Nat.mod_lt _ (by omega)
    rw [Nat.min_eq_left (by omega)]
  rw [window, if_neg (Nat.not_le.2 h)]
  dsimp only
  rw [htake]

/-- A window is as long as the list, but no longer than one wait holds. -/
theorem length_window (sessions : List SessionEntry) (start : Nat) :
    (window sessions start).1.length = min waitWindow sessions.length := by
  by_cases h : sessions.length ≤ waitWindow
  · rw [window_of_le h, Nat.min_eq_right h]
  · rw [window_eq (Nat.not_le.1 h), List.length_take, List.length_rotate]

/-- As many entries of a list as one wait holds, one behind the other around the list from where a pass begins. No entry is taken more
often than the list has it. -/
structure Arc (sessions : List SessionEntry) (start : Nat) (window : List SessionEntry) : Prop where
  length : window.length = waitWindow
  cyclic : ∀ i < waitWindow, window[i]? = sessions[(start + i) % sessions.length]?
  distinct : List.Subperm window sessions

/-- The window over a longer list is an arc of it. -/
theorem arc_window (h : waitWindow < sessions.length) (start : Nat) : Arc sessions start (window sessions start).1 where
  length := by rw [length_window, Nat.min_eq_left (by omega)]
  cyclic i hi := by
    rw [window_eq h, List.getElem?_take_of_lt hi, List.getElem?_rotate (by omega), Nat.add_comm]
  distinct := by
    rw [window_eq h]
    exact (List.take_sublist _ _).subperm.trans (List.rotate_perm _ _).subperm

/-! ## Consecutive windows -/

/-- Where the next window begins after so many passes over one list. -/
def startAfter (sessions : List SessionEntry) (start : Nat) : Nat → Nat
  | 0 => start
  | passes + 1 => (window sessions (startAfter sessions start passes)).2.2

/-- Every pass moves on by one window. -/
theorem startAfter_mod (h : waitWindow < sessions.length) (start passes : Nat) :
    startAfter sessions start passes % sessions.length = (start + passes * waitWindow) % sessions.length := by
  induction passes with
  | zero => rw [startAfter, Nat.zero_mul, Nat.add_zero]
  | succ passes ih => rw [startAfter, window_eq h, ih, Nat.mod_add_mod, Nat.succ_mul, Nat.add_assoc]

/-- The windows of consecutive passes follow one another around the list. -/
theorem window_startAfter (h : waitWindow < sessions.length) (start passes : Nat) :
    (window sessions (startAfter sessions start passes)).1 = (sessions.rotate (start + passes * waitWindow)).take waitWindow := by
  rw [window_eq h, ← List.rotate_mod, startAfter_mod h, List.rotate_mod]

/-- Every entry is in a window of enough consecutive passes. -/
theorem mem_window_startAfter (hentry : entry ∈ sessions) (start : Nat) :
    ∃ i < (sessions.length + 62) / 63, entry ∈ (window sessions (startAfter sessions start i)).1 := by
  have hlimit : waitWindow = 63 := rfl
  by_cases hlong : waitWindow < sessions.length
  · -- the place of the entry in the rotated list says in which window it is
    obtain ⟨j, hj, rfl⟩ := List.getElem_of_mem (List.mem_rotate.2 hentry : entry ∈ sessions.rotate start)
    have hlength := List.length_rotate sessions start
    have hwindow : j % waitWindow < waitWindow := Nat.mod_lt _ (by decide)
    have hplace : j % waitWindow + j / waitWindow * waitWindow = j := Nat.mod_add_div' _ _
    refine ⟨j / waitWindow, by rw [hlimit]; omega, ?_⟩
    rw [window_startAfter hlong, ← List.rotate_rotate]
    refine List.mem_of_getElem? (i := j % waitWindow) ?_
    rw [List.getElem?_take_of_lt hwindow, List.getElem?_rotate (by omega), hplace, Nat.mod_eq_of_lt hj, List.getElem?_eq_getElem hj]
  · have hnonempty := List.length_pos_of_mem hentry
    refine ⟨0, by omega, ?_⟩
    rw [window_of_le (Nat.not_lt.1 hlong)]
    exact hentry

/-! ## What a pass waits for -/

/-- What the next pass of a server waits for. -/
def objects (x : Server) : List Waitable :=
  .serverPort x.port :: (window x.sessions x.windowStart).1.map fun entry => .serverSession entry.session

/-- One wait holds them all. -/
theorem length_objects (x : Server) : x.objects.length ≤ maxWaitObjects := by
  rw [objects, List.length_cons, List.length_map, length_window]
  exact Nat.succ_le_of_lt (Nat.lt_of_le_of_lt (Nat.min_le_left _ _) (by decide))

end Server

namespace Machine

variable {s t : Machine} {objects : List Waitable} {thread server : RecordId}

/-- A wait that looks again does not fail because there are too many objects. -/
theorem recheck_ne_maximumExceeded (p : ParkerId) (cancelled : Bool) (objects : List Waitable) (s : Machine) :
    (recheck p cancelled objects s).1 ≠ .error .maximumExceeded := by
  unfold recheck
  split
  · nofun
  · split <;> nofun

/-- No part of a wait for a server's objects fails because there are too many. -/
structure NeverTooMany (objects : List Waitable) : Prop where
  begins : ∀ p cancelled timeout s, ((beginWait p cancelled objects timeout).run s).1 ≠ .error .maximumExceeded
  resumes : ∀ p cancelled s, ((resumeWait p cancelled objects).run s).1 ≠ .error .maximumExceeded
  expires : ∀ p s, ((expireWait p objects).run s).1 ≠ .error .maximumExceeded

/-- As many objects as a wait may have are never too many. -/
theorem neverTooMany_of_le (h : objects.length ≤ maxWaitObjects) : NeverTooMany objects where
  begins p cancelled timeout s := by
    rw [beginWait_run, if_neg (Nat.not_lt.2 h)]
    split
    · nofun
    · split
      · nofun
      · split
        · nofun
        · exact recheck_ne_maximumExceeded _ _ _ _
  resumes p cancelled s := by
    rw [resumeWait_run]
    exact recheck_ne_maximumExceeded _ _ _ _
  expires p s := by
    rw [expireWait_run]
    split <;> nofun

/-- A wait without an end, by somebody who was not asked to exit, blocks or finds something. -/
theorem beginWait_never_ok (h : objects.length ≤ maxWaitObjects) (p : ParkerId) (s : Machine) :
    ∃ found t, (beginWait p false objects .never).run s = (.ok found, t) := by
  rw [beginWait_run, if_neg (Nat.not_lt.2 h), if_neg Bool.false_ne_true]
  split
  · exact ⟨_, _, rfl⟩
  · rw [if_neg nofun, recheck, if_neg Bool.false_ne_true]
    split <;> exact ⟨_, _, rfl⟩

/-! ## What serving leaves alone -/

/-- Every server's next window begins where it did. -/
def SameStarts (s t : Machine) : Prop := ∀ id, (t.server id).windowStart = (s.server id).windowStart

/-- Where servers stay as they are, their windows begin where they did. -/
theorem SameStarts.of_servers (h : t.servers = s.servers) : SameStarts s t := fun id => by rw [Machine.server, h, ← Machine.server]

instance : Serving SameStarts where
  refl _ _ := rfl
  trans _ _ _ h h' id := (h' id).trans (h id)
  aside _ _ _ _ hservers _ := .of_servers hservers
  kernel _ _ _ _ := .of_servers rfl
  sessions s id sessions other := by
    rw [server_setServer]
    split
    · next h => rw [h]
    · rfl

/-- What leaves owners alone moves no window. -/
theorem starts_of_owners {α : Type} {p : Update α} (h : Keeps SameOwners p) : Keeps SameStarts p :=
  h.mono fun _ _ h => .of_servers h.servers

/-- What changes handle tables alone moves no window. -/
theorem starts_of_handles {α : Type} {p : Update α} (h : Keeps SameButHandles p) : Keeps SameStarts p :=
  h.mono fun _ _ h => .of_servers h.servers

/-- What leaves guests alone moves no window. -/
theorem starts_of_guests {α : Type} {p : Update α} (h : Keeps SameGuests p) : Keeps SameStarts p :=
  h.mono fun _ _ h => .of_servers h.servers

/-- Writing to guest memory moves no window. -/
theorem writeMemory_starts (process : RecordId) (address : Nat) (bytes : Wire.Bytes) :
    Keeps SameStarts (writeMemory process address bytes).run := by
  intro s
  rw [writeMemory_run]
  split <;> exact .of_servers rfl

end Machine

/-- The writes of a call move no window. -/
theorem Call.applyWrites_starts (client : RecordId) (writes : List (Nat × Wire.Bytes)) :
    Keeps Machine.SameStarts (applyWrites client writes).run := by
  induction writes with
  | nil => exact .run_pure _
  | cons write rest ih => exact .run_bind (Machine.writeMemory_starts _ _ _) fun _ => ih

namespace Dispatcher

open Machine

variable (d : Dispatcher)

/-- Completing a call moves no window. -/
theorem complete_starts (c : Call) : Keeps SameStarts (d.complete c) := by
  intro s
  by_cases hroom : c.HasRoom s
  · obtain ⟨copies, moves, t, s₁, -, -, hbound, hcases⟩ := complete_of_room d hroom
    have hwritten : SameStarts s ((Call.applyWrites c.client c.writes).run s₁).2 :=
      IsTrans.trans _ _ _ (.of_servers hbound.frame.servers) (Call.applyWrites_starts _ _ s₁)
    rcases hcases with ⟨-, -, image, -, hrun⟩ | ⟨released, code, s', -, -, -, hrun, hunbound⟩
    · rw [hrun]
      exact hwritten
    · rw [hrun]
      exact IsTrans.trans _ _ _ hwritten (.of_servers hunbound.frame.servers)
  · obtain ⟨handles, some, released, t, code, s', -, -, hunbound, -, hrun⟩ := complete_of_full d hroom
    rw [hrun]
    exact .of_servers hunbound.frame.servers

/-- Concluding a call moves no window. -/
theorem conclude_starts (c : Call) (label : String) (outcome : Except HandlerFailure Unit) :
    Keeps SameStarts (d.conclude c label outcome) := by
  intro s
  cases outcome with
  | error failure =>
    obtain ⟨code, close, s', hrun, hs⟩ := d.conclude_of_error c label failure
    rw [hrun]
    exact .of_servers hs.servers
  | ok => exact d.complete_starts c s

/-- Carrying out a command moves no window. -/
theorem carryOut_starts (self : RecordId) (id : UInt32) (label : String) (call : Call) :
    Keeps SameStarts (d.carryOut (Service.invoke self id) label call) := by
  refine (starts_of_handles call.importAll_keeps).bind fun imported => ?_
  split
  · exact (starts_of_handles (Call.release_keeps _)).bind fun _ => (log_placid _ _).bind fun _ => .pure _
  · refine Keeps.bind (fun s => .of_servers (Service.invoke_keeps self id _ s).guests.servers) fun handled => ?_
    exact (d.conclude_starts _ _ _).bind fun _ => (starts_of_handles (Call.release_keeps _)).bind fun _ => .pure _

/-- A request moves no window. -/
theorem dispatchRequest_starts (entry : SessionEntry) (client : RecordId) (request : Wire.Request) :
    Keeps SameStarts (d.dispatchRequest Service.invoke entry client request) := by
  refine Keeps.get.bind fun s => ?_
  dsimp only
  split
  · exact (log_placid _ _).bind fun _ => .pure _
  · split
    · exact (log_placid _ _).bind fun _ => .pure _
    · exact d.carryOut_starts _ _ _ _

/-- A dispatch moves no window. -/
theorem dispatch_starts (entry : SessionEntry) (client : RecordId) (image : Wire.Bytes) :
    Keeps SameStarts (d.dispatch entry client image) := by
  intro s
  rw [dispatch]
  cases hcommand : Wire.Request.commandRequest? image with
  | none => exact .of_servers (dispatchWith_of_no_command hcommand).servers
  | some request =>
    rw [dispatchWith_of_command hcommand]
    exact d.dispatchRequest_starts entry client request s

/-- Handling a request moves no window. -/
theorem handle_starts (entry : SessionEntry) (request : RecordId) : Keeps SameStarts (d.handle entry request) := by
  refine Keeps.get.bind fun s => Keeps.get.bind fun s' => (starts_of_owners (readMemory_keeps _ _ _)).bind fun image => ?_
  have hreply (result : Except KernelError Unit) : Keeps SameStarts (Action.forget (reply entry.session result)) :=
    .forget (starts_of_owners (reply_keeps _ _))
  split
  · exact (log_placid _ _).bind fun _ => (hreply _).bind fun _ => .pure _
  · refine (d.dispatch_starts _ _ _).bind fun outcome => ?_
    dsimp only
    split
    · exact (hreply _).bind fun _ => .pure _
    · refine (writeMemory_starts _ _ _).bind fun written => ?_
      split
      · exact (log_placid _ _).bind fun _ => (hreply _).bind fun _ => .pure _
      · exact (hreply _).bind fun _ => .pure _

end Dispatcher

namespace Machine

variable {s : Machine} {thread server : RecordId}

/-- New sessions behind the others move no window. -/
theorem addSessions_starts (server : RecordId) (entries : List SessionEntry) : Keeps SameStarts (addSessions server entries) :=
  Keeps.look fun s => Serving.sessions s server _

/-- A session that is removed moves no window. -/
theorem removeSession_starts (server : RecordId) (entry : SessionEntry) : Keeps SameStarts (removeSession server entry) :=
  Keeps.look fun s => IsTrans.trans _ _ _ (Serving.sessions s server _) (starts_of_owners (closeServerSession_keeps _) _)

/-- Serving a session moves no window. -/
theorem serveSession_starts (server : RecordId) (entry : SessionEntry) : Keeps SameStarts (serveSession server entry) := by
  refine Keeps.get.bind fun s => (starts_of_owners (receiveRequest_keeps _)).bind fun request => ?_
  split
  · refine (Dispatcher.handle_starts _ _ _).bind fun outcome => (addSessions_starts _ _).bind fun _ => ?_
    split
    · exact removeSession_starts _ _
    · exact .pure _
  · refine Keeps.get.bind fun t => ?_
    split
    · exact removeSession_starts _ _
    · exact log_placid _ _

/-- Accepting sessions moves no window. -/
theorem acceptAll_starts (server : RecordId) : Keeps SameStarts (acceptAll server) := by
  refine Keeps.get.bind fun s => Keeps.get.bind fun s' => Keeps.get.bind fun s'' => Keeps.bind (.forIn fun _ _ => ?_) fun _ => .pure _
  refine (starts_of_owners (acceptSession_keeps _)).bind fun session => ?_
  split
  · exact (starts_of_guests (Service.build_keeps _)).bind fun _ => (addSessions_starts _ _).bind fun _ => .pure _
  · exact .pure _

/-- Serving what was found moves no window. -/
theorem serveIndex_starts (server : RecordId) (window : List SessionEntry) (index : Nat) :
    Keeps SameStarts (serveIndex server window index) := by
  cases index with
  | zero => exact acceptAll_starts _
  | succ index =>
    rw [serveIndex]
    split
    · exact serveSession_starts _ _
    · exact .pure _

/-! ## Passes -/

/-- The pass of a server's thread gets to its wait: nobody asked the thread to exit, and its process is not paused. -/
structure GoesOn (s : Machine) (thread : RecordId) : Prop where
  unasked : (s.thread thread).terminationRequested = false
  unpaused : (s.process (s.thread thread).process).paused = false

/-- The machine when the pass begins to wait: the server remembers where its next window begins. -/
def entersWait (s : Machine) (thread server : RecordId) : Machine :=
  let x := s.server server
  (moveThread thread .beginWait (setServer server { x with windowStart := (Server.window x.sessions x.windowStart).2.2 } s).2).2

/-- A pass waits for the port and its window, and its wait does not fail: it blocks, or the pass serves what it found. -/
def WaitsOrServes (s : Machine) (thread server : RecordId) : Prop :=
  let x := s.server server
  let window := Server.window x.sessions x.windowStart
  ∃ found t, (beginWait thread false x.objects .never).run (s.entersWait thread server) = (.ok found, t) ∧
    servePass thread server s = match found with
      | none => setActivity thread (.waiting { objects := x.objects, isTimed := window.2.1, purpose := .serve window.1 }) t
      | some index => (do
        moveThread thread .endWait
        serveIndex server window.1 index : Update Unit) t

/-- A pass that goes on waits or serves. -/
theorem servePass_cases (h : s.GoesOn thread) (server : RecordId) : s.WaitsOrServes thread server := by
  obtain ⟨found, t, hwait⟩ := beginWait_never_ok (Server.length_objects (s.server server)) thread (s.entersWait thread server)
  refine ⟨found, t, hwait, ?_⟩
  rw [Server.objects, entersWait] at hwait
  rw [servePass, Update.run_look]
  dsimp only at hwait ⊢
  rw [if_neg (by rw [h.unasked]; nofun), if_pos (by rw [h.unpaused]; rfl), Update.run_bind, Update.run_bind, Update.run_bind, hwait]
  cases found <;> rfl

/-- The next pass begins where the window of this one says, whatever the pass serves. -/
theorem servePass_start (h : s.GoesOn thread) (server : RecordId) : ((servePass thread server s).2.server server).windowStart =
    (Server.window (s.server server).sessions (s.server server).windowStart).2.2 := by
  obtain ⟨found, t, hwait, hrun⟩ := servePass_cases h server
  have henters : ((s.entersWait thread server).server server).windowStart =
      (Server.window (s.server server).sessions (s.server server).windowStart).2.2 := by
    refine (moveThread_placid (R := SameStarts) thread .beginWait _ server).trans ?_
    rw [server_setServer, if_pos rfl]
  have hwaits := beginWait_placid (R := SameStarts) thread false (s.server server).objects .never (s.entersWait thread server) server
  rw [hwait, henters] at hwaits
  rw [hrun, ← hwaits]
  cases found with
  | none => exact setActivity_placid (R := SameStarts) _ _ t server
  | some index => exact ((moveThread_placid (R := SameStarts) thread .endWait).bind fun _ => serveIndex_starts _ _ _) t server

/-- Consecutive passes of a server's loop that all get to their wait and see one list of sessions. Between two of them much may
happen, but nobody else moves the window on. -/
structure Passes (thread server : RecordId) (sessions : List SessionEntry) (count : Nat) (pass : Nat → Machine) : Prop where
  goesOn : ∀ i < count, (pass i).GoesOn thread
  list : ∀ i < count, ((pass i).server server).sessions = sessions
  start : ∀ i, i + 1 < count →
    ((pass (i + 1)).server server).windowStart = ((servePass thread server (pass i)).2.server server).windowStart

variable {sessions : List SessionEntry} {count : Nat} {pass : Nat → Machine}

/-- After so many passes the window begins where the passes before it moved it to. -/
theorem Passes.windowStart (h : Passes thread server sessions count pass) {i : Nat} (hi : i < count) :
    ((pass i).server server).windowStart = Server.startAfter sessions ((pass 0).server server).windowStart i := by
  induction i with
  | zero => rfl
  | succ i ih =>
    have hlt : i < count := by omega
    rw [h.start i hi, servePass_start (h.goesOn i hlt), h.list i hlt, ih hlt, Server.startAfter]

/-- Enough passes wait for every session. -/
theorem Passes.reach (h : Passes thread server sessions ((sessions.length + 62) / 63) pass) {entry : SessionEntry}
    (hentry : entry ∈ sessions) :
    ∃ i < (sessions.length + 62) / 63, .serverSession entry.session ∈ ((pass i).server server).objects := by
  obtain ⟨i, hi, hwindow⟩ := Server.mem_window_startAfter hentry ((pass 0).server server).windowStart
  refine ⟨i, hi, ?_⟩
  rw [Server.objects, h.list i hi, h.windowStart hi]
  exact List.mem_cons_of_mem _ (List.mem_map.2 ⟨entry, hwindow, rfl⟩)

end Machine

namespace Server

open Machine

/-- Up to 63 sessions are all waited for, without a bound in time, and the next window begins at the front of the list. Of more, 63 are
waited for, one behind the other around the list, and with a bound. As many consecutive passes as the list has windows wait for every
session. So a pass waits for no more than 64 objects, which is never too many, and goes on whatever the number of sessions. -/
theorem window_reaches_all (sessions : List SessionEntry) (start : Nat) :
    (sessions.length ≤ 63 → window sessions start = (sessions, false, 0)) ∧
    (63 < sessions.length → ∃ w, window sessions start = (w, true, start % sessions.length + 63) ∧ w.length = 63 ∧
      Arc sessions start w) ∧
    (∀ entry ∈ sessions, ∃ i < (sessions.length + 62) / 63, entry ∈ (window sessions (startAfter sessions start i)).1) ∧
    (∀ x : Server, x.sessions = sessions → x.objects.length ≤ 64 ∧ NeverTooMany x.objects) ∧
    ∀ thread server,
      (∀ s : Machine, (s.server server).sessions = sessions → s.GoesOn thread → s.WaitsOrServes thread server) ∧
      ∀ pass, Passes thread server sessions ((sessions.length + 62) / 63) pass →
        ∀ entry ∈ sessions, ∃ i < (sessions.length + 62) / 63, .serverSession entry.session ∈ ((pass i).server server).objects := by
  refine ⟨fun h => window_of_le h start, fun h => ?_, fun entry h => mem_window_startAfter h start,
    fun x _ => ⟨x.length_objects, neverTooMany_of_le x.length_objects⟩,
    fun thread server => ⟨fun s _ h => servePass_cases h server, fun pass h entry => h.reach⟩⟩
  have harc := arc_window h start
  rw [window_eq h] at harc
  exact ⟨_, window_eq h start, harc.length, harc⟩

/-- Seventy sessions. -/
def seventy : List SessionEntry := (List.range 70).map fun session => { session, service := 0 }

/-- A machine whose only server has seventy sessions. -/
def seventyServed (start : Nat) : Machine := (setServer 0 { (default : Server) with sessions := seventy, windowStart := start } default).2

theorem seventyServed_server (start : Nat) :
    (seventyServed start).server 0 = { (default : Server) with sessions := seventy, windowStart := start } :=
  (server_setServer 0 0 _ default).trans (if_pos rfl)

/-- From the hundredth place on, seventy sessions are reached by two passes. -/
theorem window_reaches_all_seventy :
    (∃ w, window seventy 100 = (w, true, 93) ∧ w.length = 63 ∧ Arc seventy 100 w) ∧
    (seventyServed 100).WaitsOrServes 0 0 ∧
    ∃ i < 2, .serverSession 5 ∈ ((seventyServed (startAfter seventy 100 i)).server 0).objects := by
  obtain ⟨-, hlong, -, -, hloop⟩ := window_reaches_all seventy 100
  have hgoesOn (start : Nat) : (seventyServed start).GoesOn 0 := ⟨rfl, rfl⟩
  have hlist (start : Nat) : ((seventyServed start).server 0).sessions = seventy := by rw [seventyServed_server]
  have hpasses : Passes 0 0 seventy 2 fun i => seventyServed (startAfter seventy 100 i) := by
    refine ⟨fun i _ => hgoesOn _, fun i _ => hlist _, fun i _ => ?_⟩
    rw [servePass_start (hgoesOn _), seventyServed_server, seventyServed_server]
    rfl
  exact ⟨hlong (by decide), (hloop 0 0).1 _ (hlist 100) (hgoesOn 100),
    (hloop 0 0).2 _ hpasses { session := 5, service := 0 } (by decide)⟩

end Server

end Microkernel
