import Microkernel.Proofs.Machine.Gates
import Microkernel.Proofs.Stopping.Invariant
import Microkernel.Proofs.Supervising.Placid
import Microkernel.Proofs.Teardown.Alone

/-!
# Serving and stopping undisturbed

The steps of one party, taken in a row, do to a machine what the program does that they are steps of. What is left to do one thing at
a time is `closeServerSession`, `closePort` and `closeSessions`; the thread of a server goes through `acceptAll`
(`acceptAll_of_steps`) and, but for what the handler of a request does, through `serveSession` (`serveSession_of_steps`), and it
closes the sessions before it exits (`ending_of_steps`); and a call that stops a server goes through `stopServer`
(`stopServer_of_steps`), which ends the threads that the call waits for in their place.
-/

namespace Microkernel.Machine

variable {α : Type} {id : RecordId} {s t : Machine}

/-! ## Chores -/

/-- In these stages one thing after the other is done, and what comes of it is done before the rest. -/
def DoesChores (step : Machine → α → α × Machine) (stage : List Chore → α) : Prop :=
  ∀ s chore rest, step s (stage (chore :: rest)) = (stage ((chore.run s).1 ++ rest), (chore.run s).2)

/-- While the port is closed, a call does one thing after the other. -/
theorem StopStage.emptying_does (id : RecordId) : DoesChores (StopStage.advance id) .emptying := fun _ _ _ => rfl

/-- While the sessions are closed, a call does one thing after the other. -/
theorem StopStage.closing_does (id : RecordId) : DoesChores (StopStage.advance id) .closing := fun _ _ _ => rfl

/-- While a session is dropped, the thread of a server does one thing after the other. -/
theorem LoopStage.dropping_does (id thread : RecordId) : DoesChores (LoopStage.advance id · thread) .dropping := fun _ _ _ => rfl

/-- While it closes its sessions at its end, it does one thing after the other. -/
theorem LoopStage.closing_does (id thread : RecordId) : DoesChores (LoopStage.advance id · thread) .closing := fun _ _ _ => rfl

section

variable {step : Machine → α → α × Machine} {stage : List Chore → α} (h : DoesChores step stage)
include h

/-- The first chore is done. -/
theorem DoesChores.cons {chore : Chore} {rest : List Chore} {x : α × Machine}
    (hrest : InRow step (stage ((chore.run s).1 ++ rest), (chore.run s).2) x) : InRow step (stage (chore :: rest), s) x := by
  refine .cons ?_
  rwa [h]

/-- Steps in a row fail requests, one after the other. -/
theorem failAll_of_steps (failed : List RecordId) (rest : List Chore) (s : Machine) :
    InRow step (stage (failed.map .fail ++ rest), s) (stage rest, failAll failed s) := by
  induction failed generalizing s with
  | nil => exact .none _
  | cons request failed ih => exact h.cons (ih _)

/-- Steps in a row close a server end as `closeServerSession` does. -/
theorem closeServerSession_of_steps (server : RecordId) (rest : List Chore) (s : Machine) :
    InRow step (stage (.shut server :: rest), s) (stage rest, (closeServerSession server s).2) := by
  refine h.cons ?_
  rw [closeServerSession_run, Chore.run, Update.run_look, Update.run_look]
  cases hopen : (s.session (s.serverSession server)).serverOpen with
  | false =>
    rw [Session.closeServer_of_closed hopen]
    exact .none _
  | true =>
    rw [Session.closeServer_of_open hopen, if_pos rfl, Session.failing, if_pos hopen]
    generalize hsession : s.session (s.serverSession server) = session
    change InRow step (stage (session.pending.map .fail ++ session.port.toList.map .free ++ [.rouse session.waiters] ++ rest),
      (setSession (s.serverSession server) session.shut s).2) _
    rw [List.append_assoc, List.append_assoc]
    refine (failAll_of_steps h _ _ _).trans ?_
    cases session.port with
    | none => exact h.cons (.none _)
    | some port => exact h.cons (h.cons (.none _))

/-- Steps in a row close server ends, one after the other. -/
theorem closeAll_of_steps (servers : List RecordId) (rest : List Chore) (s : Machine) :
    InRow step (stage (servers.map .shut ++ rest), s) (stage rest, closeAll servers s) := by
  induction servers generalizing s with
  | nil => exact .none _
  | cons server servers ih => exact (closeServerSession_of_steps h server _ s).trans (ih _)

/-- Steps in a row close a port as `closePort` does, with what waits at it. -/
theorem closePort_of_steps (serverPort : RecordId) (rest : List Chore) (s : Machine) :
    InRow step (stage ((shutPort serverPort s).1 ++ rest), (shutPort serverPort s).2) (stage rest, (closePort serverPort s).2) := by
  rw [closePort_run, shutPort, Update.run_look, Update.run_look]
  cases (s.port (s.serverPort serverPort)).close with
  | none => exact .none _
  | some closed =>
    change InRow step (stage (closed.1.map .shut ++ [.rousePort _] ++ rest), _) _
    rw [List.append_assoc]
    exact (closeAll_of_steps h _ _ _).trans (h.cons (.none _))

/-- Steps in a row close the sessions of a server as `closeSessions` does. -/
theorem closeSessions_of_steps (id : RecordId) (rest : List Chore) (s : Machine) :
    InRow step (stage ((takeSessions id s).1 ++ rest), (takeSessions id s).2) (stage rest, (closeSessions id s).2) := by
  have hclose : (closeSessions id s).2 =
      closeAll ((s.server id).sessions.map SessionEntry.session) (setServer id { s.server id with sessions := [] } s).2 := by
    rw [closeSessions, Update.run_look, Update.run_bind, Update.run_bind, Update.run_forIn, closeAll, List.foldl_map]
    rfl
  have htake : (takeSessions id s).1 = ((s.server id).sessions.map SessionEntry.session).map .shut := (List.map_map ..).symm
  rw [hclose, htake]
  exact closeAll_of_steps h _ rest _

end

/-! ## The loop -/

/-- One round of accepting: a session that waits is accepted, gets a service instance and is listed. -/
def acceptOne (id port : RecordId) (blueprint : Blueprint) : Update Unit := do
  if let some session ← acceptSession port then
    let service ← Service.build blueprint
    addSessions id [{ session, service }]

/-- Accepting all sessions is one round after the other, as many as there are sessions that wait at first. -/
theorem acceptAll_run (id : RecordId) (s : Machine) : (acceptAll id s).2 =
    (s.port (s.serverPort (s.server id).port)).incoming.foldl
      (fun t _ => (acceptOne id (s.server id).port (s.server id).blueprint t).2) s := by
  have hround (port : RecordId) (blueprint : Blueprint) : (do
      match ← acceptSession port with
      | some session =>
        let service ← Service.build blueprint
        addSessions id [{ session, service }]
        pure (ForInStep.yield PUnit.unit)
      | _ => pure (ForInStep.yield PUnit.unit) : Update (ForInStep PUnit)) = (do
      acceptOne id port blueprint
      pure (ForInStep.yield PUnit.unit) : Update (ForInStep PUnit)) := by
    funext t
    rw [Update.run_bind, Update.run_bind, acceptOne, Update.run_bind]
    cases (acceptSession port t).1 <;> rfl
  have hrun := Update.run_forIn (fun _ => acceptOne id (s.server id).port (s.server id).blueprint)
    (s.port (s.serverPort (s.server id).port)).incoming s
  rw [← hround] at hrun
  exact congrArg Prod.snd hrun

/-- Steps in a row accept as many sessions as wait at the port, as `acceptAll` does. -/
theorem acceptAll_of_steps (id thread : RecordId) (s : Machine) :
    InRow (LoopStage.advance id · thread) (.accepting, s) (.looping, (acceptAll id s).2) := by
  rw [acceptAll_run]
  generalize hport : (s.server id).port = port
  generalize hblueprint : (s.server id).blueprint = blueprint
  generalize hincoming : (s.port (s.serverPort port)).incoming = incoming
  induction incoming generalizing s with
  | nil =>
    have haccept : acceptSession port s = (none, s) := by
      rw [acceptSession_run, Port.accept, hincoming]
    refine .cons ?_
    rw [LoopStage.advance, hport, haccept]
    exact .none _
  | cons session rest ih =>
    let accepted := (setPort (s.serverPort port) { s.port (s.serverPort port) with incoming := rest } s).2
    have haccept : acceptSession port s = (some session, accepted) := by
      rw [acceptSession_run, Port.accept, hincoming]
    obtain ⟨service, built, hbuild⟩ : ∃ service built, Service.build blueprint accepted = (service, built) := ⟨_, _, rfl⟩
    have hone : (acceptOne id port blueprint s).2 = (addSessions id [{ session, service }] built).2 := by
      rw [acceptOne, Update.run_bind, haccept]
      dsimp only
      rw [Update.run_bind, hbuild]
    have hdesk : SameDesk accepted built := by
      have h := build_desk blueprint accepted
      rwa [hbuild] at h
    have haccepting : LoopStage.advance id s thread .accepting = (.building session, accepted) := by
      rw [LoopStage.advance, hport, haccept]
    have hbuilding : LoopStage.advance id accepted thread (.building session) = (.listing { session, service }, built) := by
      rw [LoopStage.advance, show (accepted.server id).blueprint = blueprint from hblueprint, hbuild]
    refine .cons ?_
    rw [haccepting]
    refine .cons ?_
    rw [hbuilding]
    refine .cons ?_
    rw [List.foldl_cons, hone]
    have hserver : (addSessions id [{ session, service }] built).2.server id =
        { s.server id with sessions := (s.server id).sessions ++ [{ session, service }] } := by
      rw [addSessions, Update.run_look, server_setServer, if_pos rfl, Machine.server, hdesk.servers]
      rfl
    refine ih _ ?_ ?_ ?_
    · rw [hserver, ← hport]
    · rw [hserver, ← hblueprint]
    · change (built.port (built.serverPort port)).incoming = rest
      rw [Machine.serverPort, hdesk.serverPorts, Machine.port, hdesk.ports]
      change (accepted.port (s.serverPort port)).incoming = rest
      rw [port_setPort, if_pos rfl]

/-! ## A session -/

/-- A session whose client is gone, or that is to end, is taken from the list and closed. -/
theorem removing_of_steps (id thread : RecordId) (entry : SessionEntry) (s : Machine) :
    InRow (LoopStage.advance id · thread) (.removing entry, s) (.looping, (removeSession id entry s).2) := by
  refine .cons ((closeServerSession_of_steps (LoopStage.dropping_does id thread) entry.session [] _).trans (.cons ?_))
  exact .none _

/-- Who answers the requests of a server. -/
def dispatcherOf (x : Server) : Dispatcher :=
  { kernel := x.kernel, server := x.process, pointerBufferSize := x.options.pointerBufferSize }

/-- Whoever handles a request replies last, at the session that it came to. -/
theorem handle_replies (d : Dispatcher) (entry : SessionEntry) (request : RecordId) (s : Machine) : ∃ outcome written before,
    d.handle entry request s = (outcome, ((reply entry.session written).run before).2) := by
  rw [Dispatcher.handle, Update.run_look, Update.run_look]
  dsimp only
  rw [Update.run_bind]
  cases ((readMemory (s.request request).client (s.request request).messageAddress Wire.messageBufferSize).run s).1 with
  | error e => exact ⟨{}, .error e, _, rfl⟩
  | ok image =>
    dsimp only
    rw [Update.run_bind]
    generalize d.dispatch entry (s.request request).client image _ = dispatched
    split
    · exact ⟨dispatched.1, .ok (), _, rfl⟩
    · rw [Update.run_bind]
      cases ((writeMemory (s.request request).client (s.request request).messageAddress dispatched.1.response).run dispatched.2).1 with
      | error e => exact ⟨dispatched.1, .error e, _, rfl⟩
      | ok => exact ⟨dispatched.1, .ok (), _, rfl⟩

/-- A session that is served: its request is received, and, when the handler is over, answered. -/
theorem serveSession_of_steps (id thread : RecordId) (entry : SessionEntry) (s : Machine) :
    match receiveRequest entry.session s with
    | (none, _) => InRow (LoopStage.advance id · thread) (.serving entry, s) (.looping, (serveSession id entry s).2)
    | (some request, received) => ∃ outcome written before,
      InRow (LoopStage.advance id · thread) (.serving entry, s) (.handling entry request, received) ∧
      (dispatcherOf (s.server id)).handle entry request received = (outcome, ((reply entry.session written).run before).2) ∧
      InRow (LoopStage.advance id · thread) (.replying entry request outcome written, before)
        (.looping, (serveSession id entry s).2) := by
  rw [serveSession, Update.run_look]
  dsimp only
  rw [Update.run_bind]
  rcases hreceive : receiveRequest entry.session s with ⟨request, received⟩
  cases request with
  | none =>
    have hsame : received = s := by
      rw [receiveRequest_run] at hreceive
      split at hreceive <;> cases hreceive
      rfl
    subst hsame
    refine .cons ?_
    rw [LoopStage.advance, hreceive]
    refine .cons ?_
    rw [LoopStage.advance]
    dsimp only
    rw [Update.run_look]
    cases (received.session (received.serverSession entry.session)).clientOpen with
    | true => exact .none _
    | false => exact removing_of_steps id thread entry received
  | some request =>
    obtain ⟨outcome, written, before, hhandle⟩ := handle_replies (dispatcherOf (s.server id)) entry request received
    refine ⟨outcome, written, before, .cons ?_, hhandle, .cons (.cons ?_)⟩
    · rw [LoopStage.advance, hreceive]
      exact .none _
    · dsimp only
      rw [Update.run_bind, ← dispatcherOf, hhandle, LoopStage.advance, LoopStage.advance]
      dsimp only
      rw [Update.run_bind]
      cases outcome.close with
      | true => exact removing_of_steps id thread entry _
      | false => exact .none _

/-! ## The end of a server -/

section

variable {R : Machine → Machine → Prop}

/-- What a process releases belongs to no kernel, server or registry. -/
theorem release_placid [Placid R] (id : RecordId) : Keeps R (release id) := by
  refine Keeps.get.bind fun s => ?_
  dsimp only
  split
  · refine (setProcess_placid _ _).bind fun _ => .bind (.forIn fun _ _ => (handleClosed_placid _).bind fun _ => .pure _) fun _ => ?_
    exact Keeps.get.bind fun _ => (setProcess_placid _ _).bind fun _ => .pure _
  · exact .pure _

/-- Telling that a process has terminated adds to the audit of its kernel only. -/
theorem tellTerminated_placid [Placid R] (id : RecordId) : Keeps R (tellTerminated id) :=
  Keeps.get.bind fun _ => (wake_placid _).bind fun _ => (log_placid _ _).bind fun _ => (audit_placid _ _).bind fun _ => .pure _

/-- The beginning of a termination is told to the process and the log. -/
theorem beginEnding_placid [Placid R] (id : RecordId) : Keeps R (beginEnding id) := by
  refine (moveProcess_placid id _).bind fun moved => ?_
  split
  · exact Keeps.get.bind fun _ => (log_placid _ _).bind fun _ => .pure _
  · exact .pure _

/-- No step that finishes a termination changes a server, a registry or the standing of a kernel. -/
theorem FinishStage.advance_placid [Placid R] (id : RecordId) (stage : FinishStage) (s : Machine) : R s (stage.advance id s).2 := by
  cases stage with
  | releasing => exact release_placid id s
  | telling => exact tellTerminated_placid id s
  | finished => exact refl s

/-- No step of a call that terminates a process changes a server, a registry or the standing of a kernel. -/
theorem CallStage.advance_placid [Placid R] (id : RecordId) (caller : Option RecordId) (stage : CallStage) (s : Machine) :
    R s (stage.advance id s caller).2 := by
  cases stage with
  | called => exact beginEnding_placid id s
  | requesting rest =>
    cases rest with
    | nil => exact setPaused_placid id false s
    | cons th rest => exact requestTermination_placid th s
  | joining rest => cases rest <;> exact refl s
  | checking => exact refl s
  | finishing stage => exact stage.advance_placid id s

/-- No step of a thread that ends changes a server, a registry or the standing of a kernel. -/
theorem ThreadStage.advance_placid [Placid R] (id thread : RecordId) (stage : ThreadStage) (s : Machine) :
    R s (stage.advance id s thread).2 := by
  cases stage with
  | entered | deciding => exact refl s
  | calling stage =>
    by_cases hfinished : stage = .finishing .finished
    · subst hfinished
      exact refl s
    · rw [ThreadStage.advance_calling hfinished]
      exact stage.advance_placid id _ s
  | ended => exact moveThread_placid _ _ s
  | exiting => exact moveThread_placid _ _ s
  | looking rest => cases rest <;> exact refl s
  | beginning => exact moveProcess_placid _ _ s
  | finishing stage => exact stage.advance_placid id s

/-- Threads that are ended may take the sessions of servers with them, and nothing else of a server. -/
theorem stopOthers_serving [Serving R] (threads : List RecordId) (caller : Option RecordId) : Keeps R (stopOthers threads caller) := by
  refine .forIn fun th _ => ?_
  split
  · exact (stopThread_serving th).bind fun _ => .pure _
  · exact .pure _

/-- Whatever each step keeps is kept by steps in a row. -/
theorem InRow.keeps [IsPreorder Machine R] {step : Machine → α → α × Machine} (hstep : ∀ s a, R s (step s a).2) {x y : α × Machine}
    (h : InRow step x y) : R x.2 y.2 := by
  induction h with
  | none => exact refl _
  | cons _ ih => exact IsTrans.trans _ _ _ (hstep _ _) ih

end

/-- The server has the name and the host process that it had. -/
structure SameIdentity (id : RecordId) (s t : Machine) : Prop where
  name : (t.server id).name = (s.server id).name
  process : (t.server id).process = (s.server id).process

/-- Machines with the same servers agree on the identity of each. -/
theorem SameIdentity.of_servers (h : t.servers = s.servers) : SameIdentity id s t := by
  constructor <;> rw [Machine.server, h, ← Machine.server]

instance (id : RecordId) : Serving (SameIdentity id) where
  refl _ := ⟨rfl, rfl⟩
  trans _ _ _ h h' := ⟨h'.name.trans h.name, h'.process.trans h.process⟩
  aside _ _ _ _ hservers _ := .of_servers hservers
  kernel _ _ _ _ := .of_servers rfl
  sessions s other sessions := by
    constructor <;>
    · rw [server_setServer]
      split
      · next heq => rw [heq]
      · rfl

/-- Stages that others have for the host process of a server are gone through there, as long as something happens in them. -/
theorem InRow.hosted {β : Type} {process : RecordId} {step : Machine → α → α × Machine}
    {step' : Machine → β → β × Machine} (f : α → β)
    (hkept : ∀ s a, SameIdentity id s (step s a).2)
    (hstep : ∀ s a, (s.server id).process = process → step s a = (a, s) ∨ step' s (f a) = (f (step s a).1, (step s a).2))
    {x y : α × Machine} (h : InRow step x y) (hhost : (x.2.server id).process = process) : InRow step' (f x.1, x.2) (f y.1, y.2) := by
  induction h with
  | none => exact .none _
  | @cons x y _ ih =>
    have hrest := ih ((hkept x.2 x.1).process.trans hhost)
    rcases hstep x.2 x.1 hhost with hsame | hstep
    · rwa [hsame] at hrest
    · refine .cons ?_
      rwa [hstep]

/-- A call goes through the termination of the host process. -/
theorem terminating_of_steps {x y : CallStage × Machine} {process : RecordId} (h : InRow (CallStage.advance process · none) x y)
    (hhost : (x.2.server id).process = process) : InRow (StopStage.advance id) (.terminating x.1, x.2) (.terminating y.1, y.2) := by
  refine h.hosted StopStage.terminating (fun s stage => stage.advance_placid process none s) (fun s stage hhost => ?_) hhost
  by_cases hfinished : stage = .finishing .finished
  · subst hfinished
    exact .inl rfl
  · rw [StopStage.advance_terminating hfinished, hhost]
    exact .inr rfl

/-- The thread of a server goes through its exit. -/
theorem leaving_of_steps {x y : ThreadStage × Machine} {process thread : RecordId}
    (h : InRow (ThreadStage.advance process · thread) x y) (hhost : (x.2.server id).process = process) :
    InRow (LoopStage.advance id · thread) (.leaving x.1, x.2) (.leaving y.1, y.2) := by
  refine h.hosted LoopStage.leaving (fun s stage => stage.advance_placid process thread s) (fun s stage hhost => .inr ?_) hhost
  rw [LoopStage.advance, hhost]

/-- The thread of a server that leaves its loop closes the sessions and exits. -/
theorem ending_of_steps {thread : RecordId} (hhost : (s.thread thread).process = (s.server id).process) :
    InRow (LoopStage.advance id · thread) (.ending, s)
      (.leaving (.finishing .finished), (exitThread thread .returned (closeSessions id s).2).2) := by
  have hsessions := closeSessions_of_steps (LoopStage.closing_does id thread) id [] s
  rw [List.append_nil] at hsessions
  refine .cons (hsessions.trans (.cons ?_))
  obtain ⟨closed, hclosed⟩ : ∃ closed, (closeSessions id s).2 = closed := ⟨_, rfl⟩
  have hidentity : SameIdentity id s closed := hclosed ▸ closeSessions_serving id s
  have hbody : SameIdentity id closed (endBody thread .returned closed).2 :=
    (Keeps.get.bind fun _ => Keeps.get.bind fun _ => setActivity_placid thread .none) closed
  have hthread : (closed.thread thread).process = (s.server id).process :=
    hclosed ▸ ((closeSessions_gates id s).owner thread).trans hhost
  rw [hclosed]
  exact leaving_of_steps (exitThread_of_steps hthread .returned) (hbody.process.trans hidentity.process)

/-- A call closes the port and the sessions of its server before it turns to the host process. -/
theorem closing_of_steps (id : RecordId) (s : Machine) : InRow (StopStage.advance id) (.called, s)
    (.terminating .called, (closeSessions id (closePort (s.server id).port s).2).2) := by
  have hport := closePort_of_steps (StopStage.emptying_does id) (s.server id).port [] s
  have hsessions := closeSessions_of_steps (StopStage.closing_does id) id [] (closePort (s.server id).port s).2
  rw [List.append_nil] at hport hsessions
  exact .cons (hport.trans (.cons (hsessions.trans (.cons (.none _)))))

/-- A call that stops a server and that nobody disturbs asks the threads of the host process to exit; once they have been ended, it
goes on to where `stopServer` ends. -/
theorem stopServer_of_steps (hrunning : (s.server id).stopped = false)
    (hstate : (s.process (s.server id).process).state.isTerminating = false) :
    ∃ asked, InRow (StopStage.advance id) (.called, (setServer id { s.server id with stopped := true } s).2)
        (.terminating (.joining (s.process (s.server id).process).threads), asked) ∧
      ((∀ th ∈ (s.process (s.server id).process).threads,
          ((stopOthers (s.process (s.server id).process).threads none asked).2.thread th).state = .exited) →
        InRow (StopStage.advance id) (.terminating (.joining (s.process (s.server id).process).threads),
            (stopOthers (s.process (s.server id).process).threads none asked).2)
          (.returned, (stopServer id s).2)) := by
  let claimed := (setServer id { s.server id with stopped := true } s).2
  have hserver : claimed.server id = { s.server id with stopped := true } := (server_setServer id id _ s).trans (if_pos rfl)
  obtain ⟨closed, hclosed⟩ : ∃ closed, (closeSessions id (closePort (s.server id).port claimed).2).2 = closed := ⟨_, rfl⟩
  have hrun : (stopServer id s).2 = (log .info s!"{(s.server id).name} successfully stopped."
      (terminateProcess (s.server id).process none closed).2).2 := by
    rw [stopServer, Update.run_look, hrunning, ← hclosed]
    rfl
  have hclosing : InRow (StopStage.advance id) (.called, claimed) (.terminating .called, closed) := by
    have h := closing_of_steps id claimed
    rwa [hserver, hclosed] at h
  have hframe : Frame Unchanged claimed closed := by
    rw [← hclosed]
    exact IsTrans.trans _ _ _ (closePort_frame _ _) (closeSessions_frame id _)
  have hidentity : SameIdentity id claimed closed := by
    rw [← hclosed]
    exact IsTrans.trans _ _ _ (closePort_placid _ _) (closeSessions_serving id _)
  have hprocess : closed.process (s.server id).process = s.process (s.server id).process := hframe.process _
  have hhost : (closed.server id).process = (s.server id).process := hidentity.process.trans (by rw [hserver])
  have hname : (closed.server id).name = (s.server id).name := hidentity.name.trans (by rw [hserver])
  rw [← hprocess] at hstate ⊢
  generalize (s.server id).process = host at hrun hstate hhost ⊢
  obtain ⟨asked, hasked, hjoined⟩ := terminateProcess_of_steps host none closed hstate
  have hall : (closed.process host).threads.filter (some · ≠ none) = (closed.process host).threads :=
    List.filter_eq_self.2 fun _ _ => decide_eq_true (Option.some_ne_none _)
  rw [hall] at hasked hjoined
  refine ⟨asked, hclosing.trans (terminating_of_steps hasked hhost), fun hexited => ?_⟩
  have hothers : SameIdentity id closed (stopOthers (closed.process host).threads none asked).2 :=
    IsTrans.trans _ _ _ (hasked.keeps fun s stage => CallStage.advance_placid host none stage s) (stopOthers_serving _ _ asked)
  have hjoining := hjoined fun th hth _ => hexited th hth
  have hended : SameIdentity id closed (terminateProcess host none closed).2 := terminateProcess_serving host none closed
  refine (terminating_of_steps hjoining (hothers.process.trans hhost)).trans (.cons ?_)
  rw [StopStage.advance, hended.name, hname, hrun]
  exact .none _

end Microkernel.Machine
