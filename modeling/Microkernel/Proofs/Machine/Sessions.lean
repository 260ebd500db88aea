import Microkernel.Proofs.Machine.Keeps
import Microkernel.Proofs.Machine.Tables
import Microkernel.Proofs.Object.Talk

/-!
# What session operations change

Every operation on a session told by what becomes of the sessions, of the outcomes of requests and of the places of ports.
Whatever an operation wakes is left out: nobody else's session, request or port depends on it.
-/

namespace Microkernel

variable {s t : Machine} {id other server client request : RecordId}

/-! ## Links -/

/-- The machines have the same sessions and the same ports. -/
structure SameLinks (s t : Machine) : Prop where
  nextId : t.nextId = s.nextId
  sessions : t.sessions = s.sessions
  serverSessions : t.serverSessions = s.serverSessions
  clientSessions : t.clientSessions = s.clientSessions
  ports : t.ports = s.ports
  serverPorts : t.serverPorts = s.serverPorts
  clientPorts : t.clientPorts = s.clientPorts

instance : IsPreorder Machine SameLinks where
  refl _ := by constructor <;> rfl
  trans _ _ _ h h' := ⟨h'.1.trans h.1, h'.2.trans h.2, h'.3.trans h.3, h'.4.trans h.4, h'.5.trans h.5, h'.6.trans h.6,
    h'.7.trans h.7⟩

/-- The machines have the same ends: no session and no port is new. -/
structure SameEnds (s t : Machine) : Prop where
  nextId : t.nextId = s.nextId
  serverSessions : t.serverSessions = s.serverSessions
  clientSessions : t.clientSessions = s.clientSessions
  serverPorts : t.serverPorts = s.serverPorts
  clientPorts : t.clientPorts = s.clientPorts

namespace SameEnds

instance : IsPreorder Machine SameEnds where
  refl _ := by constructor <;> rfl
  trans _ _ _ h h' := ⟨h'.1.trans h.1, h'.2.trans h.2, h'.3.trans h.3, h'.4.trans h.4, h'.5.trans h.5⟩

/-- Machines with the same links have the same ends. -/
theorem of_links (h : SameLinks s t) : SameEnds s t :=
  ⟨h.nextId, h.serverSessions, h.clientSessions, h.serverPorts, h.clientPorts⟩

/-- With the same ends, a server end belongs to the session it did. -/
theorem serverSession (h : SameEnds s t) (id : RecordId) : t.serverSession id = s.serverSession id := by
  rw [Machine.serverSession, h.serverSessions, ← Machine.serverSession]

/-- With the same ends, a client end belongs to the session it did. -/
theorem clientSession (h : SameEnds s t) (id : RecordId) : t.clientSession id = s.clientSession id := by
  rw [Machine.clientSession, h.clientSessions, ← Machine.clientSession]

/-- With the same ends, a server end of a port belongs to the port it did. -/
theorem serverPort (h : SameEnds s t) (id : RecordId) : t.serverPort id = s.serverPort id := by
  rw [Machine.serverPort, h.serverPorts, ← Machine.serverPort]

/-- With the same ends, a client end of a port belongs to the port it did. -/
theorem clientPort (h : SameEnds s t) (id : RecordId) : t.clientPort id = s.clientPort id := by
  rw [Machine.clientPort, h.clientPorts, ← Machine.clientPort]

end SameEnds

namespace SameLinks

/-- With the same links, every session is the same. -/
theorem session (h : SameLinks s t) (id : RecordId) : t.session id = s.session id := by
  rw [Machine.session, h.sessions, ← Machine.session]

/-- With the same links, every port is the same. -/
theorem port (h : SameLinks s t) (id : RecordId) : t.port id = s.port id := by
  rw [Machine.port, h.ports, ← Machine.port]

end SameLinks

namespace Machine

/-- What became of a request, if something did. -/
def outcome (s : Machine) (request : RecordId) : Option (Except KernelError Unit) := (s.request request).result

/-- Setting one session leaves the others. -/
theorem session_setSession (id other : RecordId) (x : Session) (s : Machine) :
    (setSession id x s).2.session other = if other = id then x else s.session other :=
  Records.getD_insert _ _ _ _ _

/-- Setting one port leaves the others. -/
theorem port_setPort (id other : RecordId) (p : Port) (s : Machine) :
    (setPort id p s).2.port other = if other = id then p else s.port other :=
  Records.getD_insert _ _ _ _ _

/-- Setting one server leaves the others. -/
theorem server_setServer (id other : RecordId) (x : Server) (s : Machine) :
    (setServer id x s).2.server other = if other = id then x else s.server other :=
  Records.getD_insert _ _ _ _ _

/-- Waking is a matter of parkers, and of no session or port. -/
theorem wake_links (l : WaitList) : Keeps SameLinks (wake l) := fun _ => by constructor <;> rfl

/-- A session that becomes another has the ends that it had. -/
theorem setSession_ends (id : RecordId) (x : Session) : Keeps SameEnds (setSession id x) := fun _ => by constructor <;> rfl

/-- A port that becomes another has the ends that it had. -/
theorem setPort_ends (id : RecordId) (p : Port) : Keeps SameEnds (setPort id p) := fun _ => by constructor <;> rfl

/-! ## Opening -/

/-- A new session has three new numbers: its own, that of its server end and that of its client end. -/
theorem newSession_run (port : Option RecordId) (s : Machine) : newSession port s = ((s.nextId + 1, s.nextId + 2), { s with
    nextId := s.nextId + 3
    sessions := s.sessions.insert s.nextId { port }
    serverSessions := s.serverSessions.insert (s.nextId + 1) ⟨s.nextId⟩
    clientSessions := s.clientSessions.insert (s.nextId + 2) ⟨s.nextId⟩ }) := rfl

section

variable (port : Option RecordId) (s : Machine) (id : RecordId)

/-- A new session is open on both sides, and other sessions are as they were. -/
theorem session_newSession : (newSession port s).2.session id = if id = s.nextId then { port } else s.session id :=
  Records.getD_insert _ _ _ _ _

/-- The server end of a new session is the number after its own. -/
theorem serverSession_newSession : (newSession port s).2.serverSession id =
    if id = s.nextId + 1 then s.nextId else s.serverSession id := by
  rw [newSession_run, serverSession, Records.getD_insert]
  split <;> rfl

/-- The client end of a new session is the number after that of its server end. -/
theorem clientSession_newSession : (newSession port s).2.clientSession id =
    if id = s.nextId + 2 then s.nextId else s.clientSession id := by
  rw [newSession_run, clientSession, Records.getD_insert]
  split <;> rfl

end

/-! ## Outcomes -/

/-- A completed request changes no session and no port. -/
theorem completeRequest_links (id : RecordId) (result : Except KernelError Unit) :
    Keeps SameLinks (completeRequest id result) := by
  refine Keeps.get.bind fun s => ?_
  dsimp only
  split
  · exact Keeps.bind (fun _ => by constructor <;> rfl) fun _ => wake_links _
  · exact .pure _

/-- What became of a request stands in its record. -/
theorem outcome_setRequest (id other : RecordId) (r : SessionRequest) (s : Machine) :
    (setRequest id r s).2.outcome other = if other = id then r.result else s.outcome other := by
  change (Std.TreeMap.getD (s.requests.insert id r) other default).result = _
  rw [Records.getD_insert]
  split <;> rfl

/-- A request gets an outcome unless it has one, and no other request does. -/
theorem outcome_completeRequest (id : RecordId) (result : Except KernelError Unit) (s : Machine) (other : RecordId) :
    (completeRequest id result s).2.outcome other =
      if other = id then some ((s.outcome id).getD result) else s.outcome other := by
  unfold completeRequest
  rw [Update.run_look]
  split
  · next hnone =>
    change (setRequest id ((s.request id).complete result) s).2.outcome other = _
    have hcomplete : ((s.request id).complete result).result = some result := by
      rw [SessionRequest.complete, if_neg (by simpa using hnone)]
    have houtcome : s.outcome id = none := Option.isNone_iff_eq_none.1 hnone
    rw [outcome_setRequest, hcomplete, houtcome, Option.getD_none]
  · next hsome =>
    obtain ⟨result', hresult⟩ := Option.ne_none_iff_exists'.1 fun hnone => hsome (Option.isNone_iff_eq_none.2 hnone)
    have houtcome : s.outcome id = some result' := hresult
    rw [houtcome, Option.getD_some, ← houtcome]
    split
    · next heq => rw [heq]; rfl
    · rfl

/-- The machine after requests were failed because their session was closed. -/
def failAll (failed : List RecordId) (s : Machine) : Machine :=
  failed.foldl (fun s request => (completeRequest request (.error .sessionClosed) s).2) s

/-- Requests that fail change no session and no port. -/
theorem failAll_links (failed : List RecordId) (s : Machine) : SameLinks s (failAll failed s) := by
  induction failed generalizing s with
  | nil => exact refl s
  | cons request rest ih => exact IsTrans.trans _ _ _ (completeRequest_links request _ s) (ih _)

/-- Of requests that fail, those without an outcome have this one. -/
theorem outcome_failAll (failed : List RecordId) (s : Machine) (other : RecordId) : (failAll failed s).outcome other =
    if other ∈ failed then some ((s.outcome other).getD (.error .sessionClosed)) else s.outcome other := by
  induction failed generalizing s with
  | nil => rfl
  | cons request rest ih =>
    rw [failAll, List.foldl_cons, ← failAll, ih, outcome_completeRequest]
    by_cases hhead : other = request
    · subst hhead
      by_cases hrest : other ∈ rest <;> simp [hrest]
    · simp [hhead]

/-! ## Operations of the client -/

/-- A request is queued on its session and wakes whoever waits there; or it fails. -/
theorem sendRequest_run (client request : RecordId) (s : Machine) : (sendRequest client request).run s =
    match (s.session (s.clientSession client)).send request with
    | .ok x => (.ok (), (wake x.waiters (setSession (s.clientSession client) x s).2).2)
    | .error e => (.error e, s) := by
  rw [sendRequest, Action.run_look, Action.run_look, Action.run_except_bind]
  cases (s.session (s.clientSession client)).send request <;> rfl

/-- Sending leaves all ends with their sessions. -/
theorem sendRequest_ends (client request : RecordId) : Keeps SameEnds (sendRequest client request).run := by
  intro s
  rw [sendRequest_run]
  split
  · exact IsTrans.trans _ _ _ (setSession_ends _ _ s) (.of_links (wake_links _ _))
  · exact refl s

/-- Closing the client side closes it and wakes whoever waits, unless it is closed. -/
theorem closeClientSession_run (client : RecordId) (s : Machine) : (closeClientSession client s).2 =
    match (s.session (s.clientSession client)).closeClient with
    | some x => (wake x.waiters (setSession (s.clientSession client) x s).2).2
    | none => s := by
  rw [closeClientSession, Update.run_look, Update.run_look]
  cases (s.session (s.clientSession client)).closeClient <;> rfl

/-- Closing a client side leaves all ends with their sessions. -/
theorem closeClientSession_ends (client : RecordId) : Keeps SameEnds (closeClientSession client) := by
  intro s
  rw [closeClientSession_run]
  split
  · exact IsTrans.trans _ _ _ (setSession_ends _ _ s) (.of_links (wake_links _ _))
  · exact refl s

/-! ## Operations of the server -/

/-- The request in front is taken, if one waits. -/
theorem receiveRequest_run (server : RecordId) (s : Machine) : receiveRequest server s =
    match (s.session (s.serverSession server)).receive with
    | some (request, x) => (some request, (setSession (s.serverSession server) x s).2)
    | none => (none, s) := by
  rw [receiveRequest, Update.run_look, Update.run_look]
  cases (s.session (s.serverSession server)).receive <;> rfl

/-- Receiving leaves all ends with their sessions. -/
theorem receiveRequest_ends (server : RecordId) : Keeps SameEnds (receiveRequest server) := by
  intro s
  rw [receiveRequest_run]
  split
  · exact setSession_ends _ _ s
  · exact refl s

/-- An answer completes the request that is being served, or fails where none is. -/
theorem reply_run (server : RecordId) (result : Except KernelError Unit) (s : Machine) : (reply server result).run s =
    match (s.session (s.serverSession server)).finish with
    | some (request, x) => (.ok (), (completeRequest request result (setSession (s.serverSession server) x s).2).2)
    | none => (.error .invalidState, s) := by
  rw [reply, Action.run_look, Action.run_look]
  cases (s.session (s.serverSession server)).finish <;> rfl

/-- Answering leaves all ends with their sessions. -/
theorem reply_ends (server : RecordId) (result : Except KernelError Unit) : Keeps SameEnds (reply server result).run := by
  intro s
  rw [reply_run]
  split
  · exact IsTrans.trans _ _ _ (setSession_ends _ _ s) (.of_links (completeRequest_links _ _ _))
  · exact refl s

/-- After an answer no request of the session is being served. -/
theorem session_reply (server : RecordId) (result : Except KernelError Unit) (s : Machine) (other : RecordId) :
    ((reply server result).run s).2.session other =
      if other = s.serverSession server then { s.session other with current := none } else s.session other := by
  rw [reply_run]
  cases hfinish : (s.session (s.serverSession server)).finish with
  | some taken =>
    obtain ⟨-, hsession⟩ := Session.finish_eq_some hfinish
    rw [(completeRequest_links _ _ _).session, session_setSession, hsession]
    split
    · next heq => rw [heq]
    · rfl
  | none =>
    have hnone : (s.session (s.serverSession server)).current = none := Option.map_eq_none_iff.1 hfinish
    change s.session other = _
    split
    · next heq => rw [heq, ← hnone]
    · rfl

/-- Answering changes no port. -/
theorem port_reply (server : RecordId) (result : Except KernelError Unit) (s : Machine) (port : RecordId) :
    ((reply server result).run s).2.port port = s.port port := by
  rw [reply_run]
  split
  · exact (completeRequest_links _ _ _).port _
  · rfl

/-- The machine after a port got a place back. -/
def givePlace : Option RecordId → Machine → Machine
  | some port, s => (setPort port (s.port port).release s).2
  | none, s => s

/-- Closing the server side fails what waits, gives its place back and wakes whoever waits, unless it is closed. -/
theorem closeServerSession_run (server : RecordId) (s : Machine) : (closeServerSession server s).2 =
    if (s.session (s.serverSession server)).serverOpen then
      (wake (s.session (s.serverSession server)).waiters (givePlace (s.session (s.serverSession server)).port
        (failAll (s.session (s.serverSession server)).pending
          (setSession (s.serverSession server) (s.session (s.serverSession server)).shut s).2))).2
    else s := by
  rw [closeServerSession, Update.run_look, Update.run_look]
  cases hopen : (s.session (s.serverSession server)).serverOpen with
  | false =>
    rw [Session.closeServer_of_closed hopen]
    rfl
  | true =>
    rw [Session.closeServer_of_open hopen, if_pos rfl]
    dsimp only
    rw [Update.run_bind, Update.run_bind, Update.run_forIn]
    simp only [Session.failing, hopen, if_true, Session.shut]
    cases (s.session (s.serverSession server)).port <;> rfl

/-- A place that is given back leaves all ends with their ports. -/
theorem givePlace_ends (port : Option RecordId) (s : Machine) : SameEnds s (givePlace port s) := by
  cases port with
  | none => exact refl s
  | some port => exact setPort_ends port _ s

/-- Closing a server side leaves all ends with their sessions. -/
theorem closeServerSession_ends (server : RecordId) : Keeps SameEnds (closeServerSession server) := by
  intro s
  rw [closeServerSession_run]
  split
  · refine IsTrans.trans _ _ _ ?_ (.of_links (wake_links _ _))
    refine IsTrans.trans _ _ _ ?_ (givePlace_ends _ _)
    exact IsTrans.trans _ _ _ (setSession_ends _ _ s) (.of_links (failAll_links _ _))
  · exact refl s

/-- Closing a server end shuts its session and no other. -/
theorem session_closeServerSession (server : RecordId) (s : Machine) (other : RecordId) :
    (closeServerSession server s).2.session other =
      if other = s.serverSession server then (s.session other).shut else s.session other := by
  rw [closeServerSession_run]
  have hgive (port : Option RecordId) (s : Machine) : (givePlace port s).session other = s.session other := by cases port <;> rfl
  split
  · rw [(wake_links _ _).session, hgive, (failAll_links _ _).session, session_setSession]
    split
    · next heq => rw [heq]
    · rfl
  · next hclosed =>
    split
    · next heq => rw [heq, Session.shut_of_closed (Bool.eq_false_iff.2 hclosed)]
    · rfl

/-- Closing a server end fails what is queued, and nothing else. -/
theorem outcome_closeServerSession (server : RecordId) (s : Machine) (request : RecordId) :
    (closeServerSession server s).2.outcome request =
      if request ∈ (s.session (s.serverSession server)).failing then some ((s.outcome request).getD (.error .sessionClosed))
      else s.outcome request := by
  rw [closeServerSession_run, Session.failing]
  have hgive (port : Option RecordId) (s : Machine) : (givePlace port s).outcome request = s.outcome request := by
    cases port <;> rfl
  split
  · exact (hgive _ _).trans (outcome_failAll _ _ _)
  · rfl

/-- Closing an open server end gives its port one place back. -/
theorem port_closeServerSession (server : RecordId) (s : Machine) (port : RecordId) : (closeServerSession server s).2.port port =
    if (s.session (s.serverSession server)).releasing = some port then (s.port port).release else s.port port := by
  rw [closeServerSession_run, Session.releasing]
  split
  · rw [(wake_links _ _).port]
    have hfail : (failAll (s.session (s.serverSession server)).pending
        (setSession (s.serverSession server) (s.session (s.serverSession server)).shut s).2).port = s.port :=
      funext (failAll_links _ _).port
    cases (s.session (s.serverSession server)).port with
    | none => rw [givePlace, hfail, if_neg (by simp)]
    | some id =>
      rw [givePlace, port_setPort, hfail]
      by_cases heq : port = id
      · rw [if_pos heq, if_pos (by rw [heq]), heq]
      · rw [if_neg heq, if_neg (by simpa using Ne.symm heq)]
  · rw [if_neg (by simp)]

/-- Letting a server end go is closing it, with the same answer for the request being served. -/
theorem dropServerSession_run (server : RecordId) (s : Machine) : (dropServerSession server s).2 =
    ((reply server (.error .sessionClosed)).run (closeServerSession server s).2).2 := by
  rw [dropServerSession, Update.run_bind, Update.run_look, Update.run_look, reply_run]
  cases ((closeServerSession server s).2.session ((closeServerSession server s).2.serverSession server)).finish <;> rfl

/-- Letting a server end go leaves all ends with their sessions. -/
theorem dropServerSession_ends (server : RecordId) : Keeps SameEnds (dropServerSession server) := by
  intro s
  rw [dropServerSession_run]
  exact IsTrans.trans _ _ _ (closeServerSession_ends server s) (reply_ends server _ _)

end Machine

end Microkernel
