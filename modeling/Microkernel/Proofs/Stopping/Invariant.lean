import Microkernel.Proofs.Stopping.Ledger
import Microkernel.Proofs.Stopping.Phases

/-!
# What is true while a server is stopped

How far the thread of a server and the call that stops it are says what the ledger of the server is (`Stopping.ledger`). At every moment
the machine agrees with it, and each of the two knows what it has to know (`Stopping.Inv`); every step keeps this (`Stopping.Inv.step`).
-/

namespace Microkernel

/-- The window of a server shows sessions of its list. -/
theorem Server.window_subset (sessions : List SessionEntry) (start : Nat) : ∀ entry ∈ (window sessions start).1, entry ∈ sessions := by
  intro entry hentry
  rw [window] at hentry
  split at hentry
  · exact hentry
  · exact (List.mem_append.1 (List.mem_of_mem_take hentry)).elim List.mem_of_mem_drop fun h => h

namespace Machine

variable {id process thread p : RecordId} {s t : Machine}

/-! ## Chores -/

/-- The server end that is to be closed. -/
def Chore.end? : Chore → Option RecordId
  | shut server => some server
  | _ => none

/-- The request that is to fail. -/
def Chore.request? : Chore → Option RecordId
  | fail request => some request
  | _ => none

/-- The server ends that are to be closed. -/
def endsOf (chores : List Chore) : List RecordId := chores.filterMap Chore.end?

/-- The requests that are to fail. -/
def requestsOf (chores : List Chore) : List RecordId := chores.filterMap Chore.request?

theorem mem_append_or {a b : List RecordId} {e : RecordId} : e ∈ a ++ b ↔ e ∈ a ++ [] ∨ e ∈ b := by
  rw [List.append_nil, List.mem_append]

section

variable {e r : RecordId} {chore : Chore} {more rest : List Chore}

/-- The ends of chores are that of the first and those of the others. -/
theorem mem_endsOf_cons : e ∈ endsOf (chore :: rest) ↔ chore.end? = some e ∨ e ∈ endsOf rest := by simp [endsOf]

/-- The requests of chores are that of the first and those of the others. -/
theorem mem_requestsOf_cons : r ∈ requestsOf (chore :: rest) ↔ chore.request? = some r ∨ r ∈ requestsOf rest := by simp [requestsOf]

/-- Chores that are put in front bring their ends. -/
theorem endsOf_append (more rest : List Chore) : endsOf (more ++ rest) = endsOf more ++ endsOf rest := List.filterMap_append

/-- Chores that are put in front bring their requests. -/
theorem requestsOf_append (more rest : List Chore) : requestsOf (more ++ rest) = requestsOf more ++ requestsOf rest :=
  List.filterMap_append

/-- Shutting server ends has these for its ends. -/
theorem endsOf_shut (servers : List RecordId) : endsOf (servers.map .shut) = servers := by
  rw [endsOf, List.filterMap_map]
  exact List.filterMap_some

/-- Shutting server ends fails no request by itself. -/
theorem requestsOf_shut (servers : List RecordId) : requestsOf (servers.map .shut) = [] := by simp [requestsOf, Chore.request?]

end

/-- To close a server end leads to requests that have to fail, but to no server end that has to be closed. -/
theorem Chore.run_shut (server : RecordId) (s : Machine) : (Chore.shut server).run s =
    if (s.session (s.serverSession server)).serverOpen then
      ((s.session (s.serverSession server)).failing.map fail ++ (s.session (s.serverSession server)).port.toList.map free ++
        [rouse (s.session (s.serverSession server)).waiters],
        (setSession (s.serverSession server) (s.session (s.serverSession server)).shut s).2)
    else ([], s) := by
  rw [Chore.run, Update.run_look, Update.run_look]
  cases hopen : (s.session (s.serverSession server)).serverOpen with
  | false =>
    rw [Session.closeServer_of_closed hopen]
    rfl
  | true =>
    rw [Session.closeServer_of_open hopen]
    rfl

/-- A chore leaves no end to be closed. -/
theorem Chore.endsOf_run (chore : Chore) (s : Machine) : endsOf (chore.run s).1 = [] := by
  cases chore with
  | shut server =>
    rw [run_shut]
    split
    · simp [endsOf, Chore.end?]
    · rfl
  | _ => rfl

/-- Shutting a server end leaves the requests that wait there to fail. -/
theorem Chore.requestsOf_run (server : RecordId) (s : Machine) :
    requestsOf ((Chore.shut server).run s).1 = (s.session (s.serverSession server)).failing := by
  rw [run_shut]
  split
  · simp [requestsOf, Function.comp_def, Chore.request?]
  · next hclosed =>
    rw [Session.failing, if_neg hclosed]
    rfl

/-- A chore leaves owners alone. -/
theorem Chore.run_keeps (chore : Chore) : Keeps SameOwners chore.run := by
  cases chore with
  | shut server =>
    intro s
    rw [run_shut]
    split
    · exact setSession_keeps _ _ s
    · exact refl s
  | fail request => exact (completeRequest_keeps _ _).bind fun _ => .pure _
  | free port => exact Keeps.get.bind fun _ => (setPort_keeps _ _).bind fun _ => .pure _
  | rouse waiters => exact (wake_keeps _).bind fun _ => .pure _
  | rousePort port => exact Keeps.get.bind fun _ => (wake_keeps _).bind fun _ => .pure _

/-- Accepting a session leaves owners alone. -/
theorem acceptSession_keeps (server : RecordId) : Keeps SameOwners (acceptSession server) := by
  intro s
  rw [acceptSession_run]
  split
  · exact setPort_keeps _ _ s
  · exact refl s

/-- Where no session is accepted nothing changes. -/
theorem acceptSession_none {server : RecordId} (h : acceptSession server s = (none, t)) : t = s := by
  rw [acceptSession_run] at h
  split at h
  · cases h
  · exact (Prod.mk.inj h).2.symm

/-- Sending a request leaves owners alone. -/
theorem sendRequest_keeps (client request : RecordId) : Keeps SameOwners (sendRequest client request).run := by
  intro s
  rw [sendRequest_run]
  split
  · exact IsTrans.trans _ _ _ (setSession_keeps _ _ s) (wake_keeps _ _)
  · exact refl s

/-- Receiving a request leaves owners alone. -/
theorem receiveRequest_keeps (server : RecordId) : Keeps SameOwners (receiveRequest server) := by
  intro s
  rw [receiveRequest_run]
  split
  · exact setSession_keeps _ _ s
  · exact refl s

/-- Where no request is received nothing changes. -/
theorem receiveRequest_none {server : RecordId} (h : receiveRequest server s = (none, t)) : t = s := by
  rw [receiveRequest_run] at h
  split at h
  · cases h
  · exact (Prod.mk.inj h).2.symm

/-- Answering a request leaves owners alone. -/
theorem reply_keeps (server : RecordId) (result : Except KernelError Unit) : Keeps SameOwners (reply server result).run := by
  intro s
  rw [reply_run]
  split
  · exact IsTrans.trans _ _ _ (setSession_keeps _ _ s) (completeRequest_keeps _ _ _)
  · exact refl s

/-- Closing a port leaves owners alone. -/
theorem shutPort_keeps (serverPort : RecordId) : Keeps SameOwners (shutPort serverPort) := by
  refine Keeps.get.bind fun s => Keeps.get.bind fun s' => ?_
  split
  · exact (setPort_keeps _ _).bind fun _ => .pure _
  · exact .pure _

/-- One of the things is done that somebody still has to do; others have other things to do. -/
theorem Ordered.works {l : Ledger} {hands failing ends requests : List RecordId} (h : Ordered id process p s l) {chore : Chore}
    {rest : List Chore} (hbefore : ∀ e, e ∈ l.hands ↔ e ∈ endsOf (chore :: rest) ∨ e ∈ ends)
    (hbehind : ∀ e, e ∈ hands ↔ e ∈ endsOf ((chore.run s).1 ++ rest) ∨ e ∈ ends)
    (howed : ∀ r, r ∈ l.failing ↔ r ∈ requestsOf (chore :: rest) ∨ r ∈ requests)
    (howed' : ∀ r, r ∈ failing ↔ r ∈ requestsOf ((chore.run s).1 ++ rest) ∨ r ∈ requests) :
    Ordered id process p (chore.run s).2 { l with hands, failing } := by
  have hhands (e : RecordId) : e ∈ l.hands ↔ chore.end? = some e ∨ e ∈ hands := by
    rw [hbefore, hbehind, mem_endsOf_cons, endsOf_append, chore.endsOf_run, List.nil_append, or_assoc]
  have hsub (e : RecordId) (he : e ∈ hands) : e ∈ l.hands := (hhands e).2 (.inr he)
  have hrequest (r : RecordId) (hr : chore.request? = some r) : r ∈ l.failing := (howed r).2 (.inl (mem_requestsOf_cons.2 (.inl hr)))
  have hfailing (r : RecordId) (hr : r ∈ failing) : r ∈ requestsOf (chore.run s).1 ∨ r ∈ l.failing := by
    rw [howed', requestsOf_append, List.mem_append, or_assoc] at hr
    exact hr.imp_right fun hr => (howed r).2 (hr.imp_left fun hr => mem_requestsOf_cons.2 (.inr hr))
  -- what closes no end lets none go
  have hrest {t : Machine} (h : Ordered id process p t l) (hend : chore.end? = none) (hmore : requestsOf (chore.run s).1 = []) :
      Ordered id process p t { l with hands, failing } :=
    h.letGo (fun e he => .inl (((hhands e).1 he).resolve_left fun hsome => nomatch hend.symm.trans hsome)) hsub fun r hr =>
      (hfailing r hr).resolve_left fun hr => nomatch hmore ▸ hr
  cases chore with
  | shut server =>
    have hopen := Chore.requestsOf_run server s
    have hrun := Chore.run_shut server s
    generalize hsession : s.serverSession server = session at hopen hrun
    have hclosing (e : RecordId) (he : e ∈ l.hands) : e = server ∨ e ∈ hands :=
      ((hhands e).1 he).imp_left fun hsome => (Option.some.inj hsome).symm
    rw [hrun]
    split
    · have hfront : SameFront id p s (setSession session (s.session session).shut s).2 :=
        .of_ends (.setSession rfl fun _ => rfl) (setSession_keeps _ _ s) (setSession_ends _ _ s) rfl
      refine h.front hfront (fun e he => ?_) (fun e he => .inl (he.imp_left (hsub e))) h.served ?_
      · refine (hclosing e he).symm.imp_right fun heq => ?_
        subst heq
        change ((setSession session (s.session session).shut s).2.session (s.serverSession e)).serverOpen = false
        rw [hsession, session_setSession, if_pos rfl]
        rfl
      · refine h.answered.shuts (Nat.le_refl _) session (fun other => ?_) (fun _ _ => rfl) (fun r hr => ?_) fun _ _ _ => rfl
        · rw [session_setSession]
          split
          · next heq => rw [heq]
          · rfl
        · exact hopen ▸ (hfailing r hr).symm
    · next hclosed =>
      have hclosed : (s.session session).serverOpen = false := Bool.eq_false_iff.2 hclosed
      refine h.letGo (fun e he => ?_) hsub fun r hr => (hfailing r hr).resolve_left fun hr => ?_
      · refine (hclosing e he).symm.imp_right fun heq => ?_
        rw [heq, hsession]
        exact hclosed
      · rw [hopen, Session.failing, hclosed] at hr
        cases hr
  | fail request => exact hrest (h.fails (hrequest request rfl) _) rfl rfl
  | free port => exact hrest (h.elsewhere fun heq => heq ▸ ⟨rfl, rfl⟩) rfl rfl
  | rouse waiters => exact hrest (h.quiet (wake_desk _ s)) rfl rfl
  | rousePort port => exact hrest (h.quiet (wake_desk _ s)) rfl rfl

/-- Whoever closes an open port has to close what waits there. -/
theorem shutPort_run (serverPort : RecordId) (s : Machine) : shutPort serverPort s =
    if (s.port (s.serverPort serverPort)).isOpen then
      ((s.port (s.serverPort serverPort)).incoming.map .shut ++ [.rousePort (s.serverPort serverPort)],
        (setPort (s.serverPort serverPort) { s.port (s.serverPort serverPort) with isOpen := false, incoming := [] } s).2)
    else ([], s) := by
  rw [shutPort, Update.run_look, Update.run_look, Port.close]
  cases (s.port (s.serverPort serverPort)).isOpen <;> rfl

/-- Whoever closes the port has to close what waits there, and nobody else. -/
theorem Ordered.bars {l : Ledger} {hands failing : List RecordId} (h : Ordered id process p s l)
    (hhands : ∀ e, e ∈ hands ↔ e ∈ l.hands ∨ e ∈ endsOf (shutPort (s.server id).port s).1)
    (hfailing : ∀ r, r ∈ failing ↔ r ∈ l.failing ∨ r ∈ requestsOf (shutPort (s.server id).port s).1) :
    Ordered id process p (shutPort (s.server id).port s).2 { l with down := true, hands, failing } := by
  rw [shutPort_run, h.door] at hhands hfailing ⊢
  split at hhands
  · next hopen =>
    rw [if_pos hopen] at hfailing ⊢
    have hends (e : RecordId) : e ∈ endsOf ((s.port p).incoming.map .shut ++ [.rousePort p]) ↔ e ∈ (s.port p).incoming := by
      rw [endsOf_append, endsOf_shut]
      exact iff_of_eq (congrArg (e ∈ ·) (List.append_nil _))
    have hbolted : Ordered id process p (setPort p { s.port p with isOpen := false, incoming := [] } s).2
        { l with down := true, hands } := by
      refine h.queues _ _ (fun _ => rfl) (fun _ => rfl) fun e => ?_
      rw [hhands, hends]
      exact ⟨fun he => (he.resolve_left List.not_mem_nil).symm, fun he => .inr he.symm⟩
    refine hbolted.letGo (fun _ => .inl) (fun _ he => he) fun r hr => ?_
    refine ((hfailing r).1 hr).resolve_right fun hr => ?_
    rw [requestsOf_append, requestsOf_shut] at hr
    cases hr
  · next hclosed =>
    rw [if_neg hclosed] at hfailing ⊢
    have hsame : Ordered id process p s { l with hands, failing } :=
      h.letGo (fun e he => .inl ((hhands e).2 (.inl he))) (fun e he => ((hhands e).1 he).resolve_right List.not_mem_nil)
        fun r hr => ((hfailing r).1 hr).resolve_right List.not_mem_nil
    exact { hsame with down := fun _ => Bool.eq_false_iff.2 hclosed }

/-- The ends of the sessions that are taken are those that were listed. -/
theorem endsOf_takeSessions (id : RecordId) (s : Machine) : endsOf (takeSessions id s).1 = (s.server id).sessions.map (·.session) := by
  have hshut : (takeSessions id s).1 = ((s.server id).sessions.map (·.session)).map .shut := (List.map_map ..).symm
  rw [hshut, endsOf_shut]

/-- The sessions that are taken bring no request that is to fail. -/
theorem requestsOf_takeSessions (id : RecordId) (s : Machine) : requestsOf (takeSessions id s).1 = [] := by
  have hshut : (takeSessions id s).1 = ((s.server id).sessions.map (·.session)).map .shut := (List.map_map ..).symm
  rw [hshut, requestsOf_shut]

/-- Whoever takes the list has to close what was on it. -/
theorem Ordered.takes {l : Ledger} {hands failing : List RecordId} (h : Ordered id process p s l) (emptied : Bool)
    (hhands : ∀ e, e ∈ hands ↔ e ∈ l.hands ∨ e ∈ endsOf (takeSessions id s).1)
    (hfailing : ∀ r, r ∈ failing ↔ r ∈ l.failing ∨ r ∈ requestsOf (takeSessions id s).1) :
    Ordered id process p (takeSessions id s).2 { l with emptied, hands, failing } := by
  have hends (e : RecordId) : e ∈ hands ↔ e ∈ (s.server id).sessions.map (·.session) ∨ e ∈ l.hands := by
    rw [hhands, endsOf_takeSessions, or_comm]
  have htaken : Ordered id process p (takeSessions id s).2 { l with emptied, hands } :=
    h.lists rfl rfl h.claimed (fun _ => rfl) (fun e he => .inr ((hends e).2 he)) (fun _ he => .inl he)
      (fun e he => (he.resolve_left List.not_mem_nil).elim (fun he => ((hends e).1 he).imp_right .inl) fun he => .inr (.inr he)) h.served
  refine htaken.letGo (fun _ => .inl) (fun _ he => he) fun r hr => ((hfailing r).1 hr).resolve_right fun hr => ?_
  rw [requestsOf_takeSessions] at hr
  cases hr

/-! ## Ending the host process -/

namespace Ordered

variable {l : Ledger}

/-- A machine agrees with its ledger when a process takes a step to its end. -/
theorem finishes (h : Ordered id process p s l) (ended : RecordId) (stage : FinishStage) :
    Ordered id process p (stage.advance ended s).2 l := by
  cases stage with
  | releasing => exact h.releases ended
  | telling => exact h.quiet (tellTerminated_desk ended s)
  | finished => exact h

/-- A machine agrees with its ledger when a call that ends a process takes a step. -/
theorem calls (h : Ordered id process p s l) (ended : RecordId) (caller : Option RecordId) (stage : CallStage) :
    Ordered id process p (stage.advance ended s caller).2 l := by
  cases stage with
  | called => exact h.quiet (beginEnding_desk ended s)
  | requesting rest =>
    cases rest with
    | nil => exact h.quiet (setProcess_desk _ _ s)
    | cons th rest => exact h.quiet (requestTermination_desk th s)
  | joining rest => cases rest <;> exact h
  | checking => exact h
  | finishing stage => exact h.finishes ended stage

/-- A machine agrees with its ledger when a thread takes a step to its exit. -/
theorem exits (h : Ordered id process p s l) (ended th : RecordId) (stage : ThreadStage) :
    Ordered id process p (stage.advance ended s th).2 l := by
  cases stage with
  | entered => exact h
  | calling stage =>
    by_cases hfinished : stage = .finishing .finished
    · subst hfinished
      exact h
    · rw [ThreadStage.advance_calling hfinished]
      exact h.calls ended _ stage
  | ended => exact h.quiet (moveThread_desk _ _ s)
  | exiting => exact h.quiet (moveThread_desk _ _ s)
  | looking rest => cases rest <;> exact h
  | deciding => exact h
  | beginning => exact h.quiet (moveProcess_desk _ _ s)
  | finishing stage => exact h.finishes ended stage

end Ordered

/-! ## What the stages tell -/

namespace LoopStage

/-- What is still to be closed. -/
def chores : LoopStage → List Chore
  | dropping chores | closing chores => chores
  | _ => []

/-- The server ends that the thread will list or close. -/
def ends : LoopStage → List RecordId
  | building session => [session]
  | listing entry => [entry.session]
  | loop => endsOf loop.chores

/-- The server ends that the thread has to do with. -/
def seen : LoopStage → List RecordId
  | waiting window => window.map (·.session)
  | serving entry | peeking entry | removing entry | handling entry _ => [entry.session]
  | replying entry _ outcome _ | adding entry outcome => entry.session :: outcome.newSessions.map (·.session)
  | _ => []

/-- The thread has taken the sessions at its end. -/
def isEmptied : LoopStage → Bool
  | closing _ | leaving _ => true
  | _ => false

end LoopStage

namespace StopStage

def isClaimed : StopStage → Bool
  | idle => false
  | _ => true

/-- The call has closed the port. -/
def isDown : StopStage → Bool
  | idle | called => false
  | _ => true

/-- What is still to be closed. -/
def chores : StopStage → List Chore
  | emptying chores | closing chores => chores
  | _ => []

/-- Until the host process has terminated, the call goes on with terminating it. -/
theorem advance_terminating {stage : CallStage} (h : stage ≠ .finishing .finished) :
    (StopStage.terminating stage).advance id s =
      (.terminating (stage.advance (s.server id).process s none).1, (stage.advance (s.server id).process s none).2) := by
  cases stage with
  | finishing stage =>
    cases stage with
    | finished => exact absurd rfl h
    | _ => rfl
  | _ => rfl

end StopStage

/-- Whatever clients and others do, the host process and its threads are left alone. -/
theorem Act.run_host (a : Act process) (s : Machine) : SameHost process s (a.run s) := by
  cases a with
  | connect clientPort => exact .of_owners (connectPort_keeps clientPort s)
  | openSession => exact .of_owners (newSession_keeps none s)
  | send client sender address =>
    have hmade : SameOwners s (newRequest sender address s).2 :=
      freshId_keeps.bind (fun _ => (setRequest_keeps _ _).bind fun _ => .pure _) s
    exact .of_owners (IsTrans.trans _ _ _ hmade (sendRequest_keeps client s.nextId _))
  | closeClient client => exact .of_owners (closeClientSession_keeps client s)
  | closeServer server => exact .of_owners (closeServerSession_keeps server s)
  | closePort serverPort => exact .of_owners (closePort_keeps serverPort s)
  | giveUp request => exact .of_owners (completeRequest_keeps request _ s)
  | errand e => exact e.host s

namespace Stopping

variable {c : Stopping id process thread}

/-- What is known of the server now. -/
def ledger (c : Stopping id process thread) : Ledger where
  claimed := c.stop.isClaimed
  down := c.stop.isDown
  emptied := c.loop.isEmptied
  hands := c.loop.ends ++ endsOf c.stop.chores
  failing := requestsOf c.loop.chores ++ requestsOf c.stop.chores
  added := c.added
  seen := c.loop.seen
  taken := c.answers.map (·.1) ++ c.request?.toList
  givenUp := c.givenUp
  answers := c.answers
  serving := c.loop.serving?

/-- What is true at every moment. -/
structure Inv (p : RecordId) (c : Stopping id process thread) : Prop where
  ordered : Ordered id process p c.machine c.ledger
  phases : Phases process thread c.machine c.loop c.stop

namespace Inv

/-! ## The call that stops the server -/

/-- Somebody calls to stop the server. -/
theorem call (h : Inv p c) : Inv p (c.step .stop) := by
  unfold Stopping.step
  dsimp only
  split
  · exact h
  · next hstopped =>
    obtain ⟨s, loop, stop, added, answers, givenUp⟩ := c
    -- the server is not stopped, so that nobody has called before
    cases stop
    case idle =>
      refine ⟨?_, Phases.before (h.phases.sameHost ?_) rfl rfl⟩
      · exact h.ordered.lists rfl rfl (fun _ => rfl) h.ordered.emptied (fun _ he => he) (fun _ he => .inl he) (fun e he => he)
          h.ordered.served
      · exact .of_eq rfl rfl
    all_goals exact absurd (h.ordered.claimed rfl) hstopped

/-- The call takes a step. -/
theorem advance (h : Inv p c) : Inv p (c.step .advance) := by
  obtain ⟨s, loop, stop, added, answers, givenUp⟩ := c
  have hordered := h.ordered
  have hphases := h.phases
  cases stop with
  | idle => exact h
  | called =>
    refine ⟨hordered.bars (fun e => mem_append_or) fun r => mem_append_or, Phases.before (hphases.sameHost ?_) rfl rfl⟩
    exact .of_owners (shutPort_keeps _ s)
  | emptying chores =>
    cases chores with
    | nil =>
      refine ⟨hordered.takes _ (fun e => mem_append_or) fun r => mem_append_or, Phases.before (hphases.sameHost ?_) rfl rfl⟩
      exact .of_eq rfl rfl
    | cons chore rest =>
      refine ⟨hordered.works (fun e => List.mem_append.trans or_comm) (fun e => List.mem_append.trans or_comm)
        (fun e => List.mem_append.trans or_comm) (fun e => List.mem_append.trans or_comm), Phases.before (hphases.sameHost ?_) rfl rfl⟩
      exact .of_owners (chore.run_keeps s)
  | closing chores =>
    cases chores with
    | nil => exact ⟨hordered, hphases.before rfl rfl⟩
    | cons chore rest =>
      refine ⟨hordered.works (fun e => List.mem_append.trans or_comm) (fun e => List.mem_append.trans or_comm)
        (fun e => List.mem_append.trans or_comm) (fun e => List.mem_append.trans or_comm), Phases.before (hphases.sameHost ?_) rfl rfl⟩
      exact .of_owners (chore.run_keeps s)
  | terminating stage =>
    by_cases hfinished : stage = .finishing .finished
    · subst hfinished
      refine ⟨hordered.quiet (log_desk _ _ s), Phases.returns (hphases.sameHost ?_)⟩
      exact .of_eq rfl rfl
    · have hstep : (⟨s, loop, .terminating stage, added, answers, givenUp⟩ : Stopping id process thread).step .advance =
          ⟨(stage.advance process s none).2, loop, .terminating (stage.advance process s none).1, added, answers, givenUp⟩ := by
        rw [← hordered.home]
        unfold Stopping.step
        dsimp only
        rw [StopStage.advance_terminating hfinished]
      rw [hstep]
      exact ⟨hordered.calls process none stage, hphases.terminates⟩
  | returned => exact h

/-! ## The thread -/

/-- The thread takes a step. -/
theorem turn (h : Inv p c) : Inv p c.turn := by
  obtain ⟨s, loop, stop, added, answers, givenUp⟩ := c
  have hordered := h.ordered
  have hphases := h.phases
  cases loop with
  | entering =>
    have hstarted : (s.thread thread).state = .started := hphases.loopFits
    exact ⟨hordered.quiet (moveThread_desk _ _ s), hphases.moves .run (by rw [hstarted]; rfl) (fun _ hx => hx) nofun⟩
  | looping =>
    have hrunning : (s.thread thread).state = .running := hphases.loopFits
    unfold Stopping.turn LoopStage.advance
    dsimp only
    split
    · next hasked => exact ⟨hordered, hphases.leaves (hphases.asked hasked) hrunning⟩
    · split
      · exact h
      · have hwindow := Server.window_subset (s.server id).sessions (s.server id).windowStart
        exact ⟨(hordered.windows rfl _ hwindow).quiet (moveThread_desk _ _ _), Phases.moves (hphases.sameHost (setServer_host _ _ _))
          .beginWait (congrArg (ThreadState.next? · .beginWait) hrunning) (fun _ hx => hx) nofun⟩
  | waiting window =>
    have hwaiting : (s.thread thread).state = .waiting := hphases.loopFits
    unfold Stopping.turn LoopStage.advance
    dsimp only
    split
    · next hasked =>
      exact ⟨(hordered.looks [] nofun nofun).quiet (moveThread_desk _ _ s),
        hphases.moves .endWait (by rw [hwaiting]; rfl) (fun _ hx => hx) fun _ => hphases.asked hasked⟩
    · exact h
  | accepting =>
    have hkeeps := acceptSession_keeps (s.server id).port s
    unfold Stopping.turn LoopStage.advance
    dsimp only
    rcases hrun : acceptSession (s.server id).port s with ⟨_ | session, t⟩ <;> rw [hrun] at hkeeps
    · obtain rfl := acceptSession_none hrun
      exact ⟨hordered, hphases.inside rfl rfl⟩
    · exact ⟨hordered.accepts hordered.door hrun, (hphases.sameHost (.of_owners hkeeps)).inside rfl rfl⟩
  | building session =>
    have hguests := Service.build_keeps (s.server id).blueprint s
    exact ⟨hordered.quiet (build_desk _ s), (hphases.sameHost (.of_eq hguests.processes hguests.threads)).inside rfl rfl⟩
  | listing entry =>
    refine ⟨hordered.adds [entry] rfl (fun e he => ?_) (fun e he => ?_) (fun e he => ?_) (fun _ => .inl) nofun nofun,
      Phases.inside (hphases.sameHost ?_) rfl rfl⟩
    · exact List.mem_append.1 he
    · exact List.mem_append_right _ he
    · exact .inl (List.mem_append_left _ he)
    · exact .of_eq rfl rfl
  | serving entry =>
    unfold Stopping.turn LoopStage.advance
    dsimp only
    rcases hrun : receiveRequest entry.session s with ⟨_ | request, t⟩
    · obtain rfl := receiveRequest_none hrun
      exact ⟨hordered, hphases.inside rfl rfl⟩
    · have hhost : SameOwners s t := by simpa [hrun] using receiveRequest_keeps entry.session s
      refine ⟨hordered.receives rfl (List.mem_singleton_self _) hrun ?_, (hphases.sameHost (.of_owners hhost)).inside rfl rfl⟩
      exact congrArg (· ++ [request]) (List.append_nil _).symm
  | peeking entry =>
    have hless : Ordered id process p s { ledger ⟨s, .peeking entry, stop, added, answers, givenUp⟩ with seen := [] } :=
      hordered.looks [] nofun nofun
    unfold Stopping.turn LoopStage.advance
    dsimp only
    split
    · exact ⟨hless.quiet (log_desk _ _ s), Phases.inside (hphases.sameHost (log_host _ _ s)) rfl rfl⟩
    · exact ⟨hordered, hphases.inside rfl rfl⟩
  | handling entry request => exact h
  | replying entry request outcome written =>
    refine ⟨hordered.replies rfl written ?_, (hphases.sameHost (.of_owners (reply_keeps _ _ s))).inside rfl rfl⟩
    change (answers ++ [(request, written)]).map (·.1) ++ [] = answers.map (·.1) ++ [request]
    rw [List.map_append, List.append_nil]
    rfl
  | adding entry outcome =>
    have hhost := hphases.sameHost (setServer_host id { s.server id with sessions := (s.server id).sessions ++ outcome.newSessions } s)
    have hadds {seen : List RecordId} (hseen : ∀ e ∈ seen, e = entry.session) :
        Ordered id process p (addSessions id outcome.newSessions s).2
          { (⟨s, .adding entry outcome, stop, added, answers, givenUp⟩ : Stopping id process thread).ledger with
            added := added ++ outcome.newSessions.map (·.session), seen } := by
      refine hordered.adds outcome.newSessions rfl (fun _ => .inr) (fun _ he => he) (fun e he => .inr (List.mem_cons_of_mem _ he))
        (fun e he => List.mem_append.1 he) (fun e he => hseen e he ▸ List.mem_cons_self) nofun
    unfold Stopping.turn LoopStage.advance
    dsimp only
    split
    · exact ⟨hadds fun e he => List.mem_singleton.1 he, hhost.inside rfl rfl⟩
    · exact ⟨hadds nofun, hhost.inside rfl rfl⟩
  | removing entry =>
    refine ⟨hordered.removes rfl (List.mem_singleton_self _) (fun e => ?_), Phases.inside (hphases.sameHost ?_) rfl rfl⟩
    · exact List.mem_cons
    · exact .of_eq rfl rfl
  | dropping chores =>
    cases chores with
    | nil => exact ⟨hordered, hphases.inside rfl rfl⟩
    | cons chore rest =>
      have hhost := hphases.sameHost (.of_owners (chore.run_keeps s))
      exact ⟨hordered.works (fun e => List.mem_append) (fun e => List.mem_append) (fun e => List.mem_append) (fun e => List.mem_append),
        hhost.inside rfl rfl⟩
  | ending =>
    have hhost : Phases process thread (takeSessions id s).2 .ending stop := hphases.sameHost (.of_eq rfl rfl)
    refine ⟨hordered.takes true (fun e => ?_) fun r => ?_, hhost.leaves (hhost.left rfl) hhost.loopFits⟩
    · exact List.mem_append.trans or_comm
    · exact List.mem_append.trans or_comm
  | closing chores =>
    cases chores with
    | nil =>
      have hhost := hphases.sameHost (endBody_host thread s)
      exact ⟨hordered.quiet ⟨Nat.le_refl _, rfl, rfl, rfl, rfl, rfl, rfl, rfl, rfl⟩, hhost.leaves (hhost.left rfl) hhost.loopFits⟩
    | cons chore rest =>
      have hhost := hphases.sameHost (.of_owners (chore.run_keeps s))
      exact ⟨hordered.works (fun e => List.mem_append) (fun e => List.mem_append) (fun e => List.mem_append) (fun e => List.mem_append),
        hhost.leaves (hhost.left rfl) hhost.loopFits⟩
  | leaving stage =>
    have hturn : turn (⟨s, .leaving stage, stop, added, answers, givenUp⟩ : Stopping id process thread) =
        ⟨(stage.advance process s thread).2, .leaving (stage.advance process s thread).1, stop, added, answers, givenUp⟩ := by
      rw [← hordered.home]
      rfl
    rw [hturn]
    exact ⟨hordered.exits process thread stage, hphases.exits⟩

/-- The wait of the thread ends with something to do. -/
theorem wake (h : Inv p c) (index : Nat) : Inv p (c.step (.wake index)) := by
  obtain ⟨s, loop, stop, added, answers, givenUp⟩ := c
  have hordered := h.ordered
  have hphases := h.phases
  cases loop
  case waiting window =>
    cases index with
    | zero => exact ⟨(hordered.looks [] nofun nofun).quiet (moveThread_desk _ _ s), hphases.wakes rfl⟩
    | succ index =>
      unfold Stopping.step
      dsimp only
      split
      · next entry hentry =>
        have hseen : ∀ e ∈ [entry.session], e ∈ window.map (·.session) := fun e he =>
          List.mem_singleton.1 he ▸ List.mem_map_of_mem (List.mem_of_getElem? hentry)
        exact ⟨(hordered.looks _ (fun e he => .inr (.inl (hseen e he))) nofun).quiet (moveThread_desk _ _ s), hphases.wakes rfl⟩
      · exact h
  all_goals exact h

/-- The wait of the thread ends with its time over. -/
theorem expire (h : Inv p c) : Inv p (c.step .expire) := by
  obtain ⟨s, loop, stop, added, answers, givenUp⟩ := c
  cases loop
  case waiting window => exact ⟨(h.ordered.looks [] nofun nofun).quiet (moveThread_desk _ _ s), h.phases.wakes rfl⟩
  all_goals exact h

/-- The handler of the request is over. -/
theorem dispatched (h : Inv p c) (outcome : Dispatched) (written : Except KernelError Unit) :
    Inv p (c.step (.dispatched outcome written)) := by
  obtain ⟨s, loop, stop, added, answers, givenUp⟩ := c
  have hordered := h.ordered
  cases loop
  case handling entry request =>
    unfold Stopping.step
    dsimp only
    split
    · next hknown =>
      refine ⟨hordered.looks _ (fun e he => ?_) fun e r hr => ?_, h.phases.inside rfl rfl⟩
      · rcases List.mem_cons.1 he with rfl | he
        · exact .inr (.inl (List.mem_singleton_self _))
        · obtain ⟨other, hother, rfl⟩ := List.mem_map.1 he
          exact .inr (.inr (List.all_eq_true.1 hknown other hother))
      · obtain ⟨rfl, -⟩ := Prod.mk.inj (Option.some.inj hr)
        exact List.mem_cons_self
    · exact h
  all_goals exact h

/-! ## Others -/

/-- An act of a client keeps the invariant. -/
theorem act (h : Inv p c) (a : Act process) : Inv p (c.step (.act a)) := by
  have hphases : Phases process thread (a.run c.machine) c.loop c.stop := h.phases.sameHost (a.run_host c.machine)
  have hordered := h.ordered
  refine ⟨?_, hphases⟩
  have hnone (hgiven : a.given? = none) (hrun : Ordered id process p (a.run c.machine) c.ledger) :
      Ordered id process p (c.step (.act a)).machine (c.step (.act a)).ledger := by
    have hsame : c.step (.act a) = { c with machine := a.run c.machine } := by
      rw [Stopping.step, hgiven]
      exact congrArg (Stopping.mk _ _ _ _ _) (List.append_nil _)
    rw [hsame]
    exact hrun
  cases a with
  | connect clientPort => exact hnone rfl (hordered.connects clientPort)
  | openSession => exact hnone rfl (hordered.opens (fun _ he => he) nofun fun _ => .inl)
  | send client sender address => exact hnone rfl (hordered.sends client sender address)
  | closeClient client => exact hnone rfl (hordered.closesClient client)
  | closeServer server => exact hnone rfl (hordered.closes server)
  | closePort serverPort => exact hnone rfl (hordered.closesPort serverPort)
  | giveUp request => exact hordered.givesUp request
  | errand e => exact hnone rfl (hordered.quiet (e.desk _))

/-- Every step keeps what is true. -/
theorem step (h : Inv p c) (a : Step process) : Inv p (c.step a) := by
  cases a with
  | stop => exact h.call
  | advance => exact h.advance
  | turn => exact h.turn
  | wake index => exact h.wake index
  | expire => exact h.expire
  | dispatched outcome written => exact h.dispatched outcome written
  | act a => exact h.act a

end Inv

end Stopping

end Machine

end Microkernel
