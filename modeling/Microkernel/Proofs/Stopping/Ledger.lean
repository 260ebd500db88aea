import Microkernel.Proofs.Service.Handlers
import Microkernel.Proofs.Stopping.Desk
import Microkernel.Proofs.Teardown.Scenes

/-!
# What belongs to a server

A ledger says who holds server ends, which requests are still to fail and which were answered while a server runs and is stopped. A
machine agrees with its ledger (`Ordered`), and every operation on sessions, ports and the list of the server leads to a machine that
agrees with the ledger as the operation leaves it.
-/

namespace Microkernel.Machine

variable {id process p : RecordId} {s t : Machine}

/-! ## What leaves sessions and ports alone -/

namespace SameDesk

instance : IsPreorder Machine SameDesk where
  refl _ := ⟨Nat.le_refl _, rfl, rfl, rfl, rfl, rfl, rfl, rfl, rfl⟩
  trans _ _ _ h h' := ⟨Nat.le_trans h.nextId h'.nextId, h'.sessions.trans h.sessions, h'.serverSessions.trans h.serverSessions,
    h'.clientSessions.trans h.clientSessions, h'.ports.trans h.ports, h'.serverPorts.trans h.serverPorts,
    h'.clientPorts.trans h.clientPorts, h'.requests.trans h.requests, h'.servers.trans h.servers⟩

end SameDesk

theorem setThread_desk (id : RecordId) (x : Thread) : Keeps SameDesk (setThread id x) :=
  fun _ => ⟨Nat.le_refl _, rfl, rfl, rfl, rfl, rfl, rfl, rfl, rfl⟩

theorem setProcess_desk (id : RecordId) (x : Process) : Keeps SameDesk (setProcess id x) :=
  fun _ => ⟨Nat.le_refl _, rfl, rfl, rfl, rfl, rfl, rfl, rfl, rfl⟩

theorem wake_desk (l : WaitList) : Keeps SameDesk (wake l) :=
  fun _ => ⟨Nat.le_refl _, rfl, rfl, rfl, rfl, rfl, rfl, rfl, rfl⟩

theorem log_desk (level : Level) (text : String) : Keeps SameDesk (log level text) :=
  fun _ => ⟨Nat.le_refl _, rfl, rfl, rfl, rfl, rfl, rfl, rfl, rfl⟩

theorem moveThread_desk (id : RecordId) (event : ThreadEvent) : Keeps SameDesk (moveThread id event) := by
  refine Keeps.get.bind fun s => ?_
  dsimp only
  split
  · refine (setThread_desk _ _).bind fun _ => ?_
    split
    · exact wake_desk _
    · exact .pure _
  · exact log_desk _ _

theorem moveProcess_desk (id : RecordId) (event : ProcessEvent) : Keeps SameDesk (moveProcess id event) := by
  refine Keeps.get.bind fun s => ?_
  dsimp only
  split
  · exact (setProcess_desk _ _).bind fun _ => .pure _
  · exact .pure _

/-- Asking a thread to exit leaves the desk. -/
theorem requestTermination_desk (id : RecordId) : Keeps SameDesk (requestTermination id) :=
  fun _ => ⟨Nat.le_refl _, rfl, rfl, rfl, rfl, rfl, rfl, rfl, rfl⟩

/-- A process that begins to end leaves the desk: its handles are closed later. -/
theorem beginEnding_desk (id : RecordId) : Keeps SameDesk (beginEnding id) := by
  refine (moveProcess_desk _ _).bind fun begun => ?_
  split
  · exact Keeps.get.bind fun _ => (log_desk _ _).bind fun _ => .pure _
  · exact .pure _

/-- Telling that a process has terminated leaves the desk. -/
theorem tellTerminated_desk (id : RecordId) : Keeps SameDesk (tellTerminated id) := by
  refine Keeps.get.bind fun s => (wake_desk _).bind fun _ => (log_desk _ _).bind fun _ => Keeps.bind (fun _ => ?_) fun _ => .pure _
  exact ⟨Nat.le_refl _, rfl, rfl, rfl, rfl, rfl, rfl, rfl, rfl⟩

/-- Building an object leaves the desk. -/
theorem build_desk (blueprint : Blueprint) : Keeps SameDesk (Service.build blueprint) := by
  have hfresh : Keeps SameDesk freshId := fun _ => ⟨Nat.le_succ _, rfl, rfl, rfl, rfl, rfl, rfl, rfl, rfl⟩
  have hstore (service : Service) : Keeps SameDesk (do
      let id ← freshId
      setService id service
      return id) := hfresh.bind fun _ => Keeps.bind (fun _ => ⟨Nat.le_refl _, rfl, rfl, rfl, rfl, rfl, rfl, rfl, rfl⟩) fun _ => .pure _
  have hevent : Keeps SameDesk (newEvent .manual) :=
    hfresh.bind fun _ => Keeps.bind (fun _ => ⟨Nat.le_refl _, rfl, rfl, rfl, rfl, rfl, rfl, rfl, rfl⟩) fun _ => .pure _
  cases blueprint with
  | applicationManager =>
    refine hevent.bind fun _ => hevent.bind fun _ => hevent.bind fun _ => hevent.bind fun _ => hevent.bind fun _ => ?_
    exact hstore _
  | _ => exact hstore _

/-! ## The front of a server -/

/-- Nothing is opened, and the server, its port and what waits there are the same. -/
structure SameFront (id p : RecordId) (s t : Machine) : Prop where
  stays : Stays s t
  server : t.server id = s.server id
  serverPort : ∀ q, t.serverPort q = s.serverPort q
  isOpen : (t.port p).isOpen = (s.port p).isOpen
  incoming : (t.port p).incoming = (s.port p).incoming

namespace SameFront

instance : IsPreorder Machine (SameFront id p) where
  refl s := ⟨refl s, rfl, fun _ => rfl, rfl, rfl⟩
  trans _ _ _ h h' := ⟨h.stays.trans h'.stays, h'.server.trans h.server, fun q => (h'.serverPort q).trans (h.serverPort q),
    h'.isOpen.trans h.isOpen, h'.incoming.trans h.incoming⟩

/-- Where the desk is the same the front of a server is. -/
theorem of_desk (h : SameDesk s t) : SameFront id p s t where
  stays := .of_desk h
  server := by rw [Machine.server, h.servers, ← Machine.server]
  serverPort q := by rw [Machine.serverPort, h.serverPorts, ← Machine.serverPort]
  isOpen := by rw [port, h.ports, ← port]
  incoming := by rw [port, h.ports, ← port]

/-- What changes sessions, but no port, and opens nothing. -/
theorem of_ends (hstays : Stays s t) (howners : SameOwners s t) (hends : SameEnds s t) (hport : t.port p = s.port p) :
    SameFront id p s t where
  stays := hstays
  server := by rw [Machine.server, howners.servers, ← Machine.server]
  serverPort := hends.serverPort
  isOpen := by rw [hport]
  incoming := by rw [hport]

/-- What happens at other ports, or does not matter at this one. -/
theorem setPort {q : RecordId} {x : Port}
    (hp : q = p → x.isOpen = (s.port p).isOpen ∧ x.incoming = (s.port p).incoming) : SameFront id p s (Machine.setPort q x s).2 where
  stays := .setPort q x s
  server := rfl
  serverPort _ := rfl
  isOpen := by
    rw [port_setPort]
    split
    · next heq => exact (hp heq.symm).1
    · rfl
  incoming := by
    rw [port_setPort]
    split
    · next heq => exact (hp heq.symm).2
    · rfl

end SameFront

/-- Completing a request leaves the front of a server. -/
theorem completeRequest_front (request : RecordId) (result : Except KernelError Unit) :
    Keeps (SameFront id p) (completeRequest request result) := fun s =>
  .of_ends (completeRequest_stays _ _ s) (completeRequest_keeps _ _ s) (.of_links (completeRequest_links _ _ s))
    ((completeRequest_links _ _ s).port p)

/-- Closing a server end leaves the front of a server. -/
theorem closeServerSession_front (server : RecordId) : Keeps (SameFront id p) (closeServerSession server) := by
  intro s
  have hwanes : Wanes p s (closeServerSession server s).2 := .of_closes (closeServerSession_closes server s)
  obtain ⟨n, -, hport⟩ := hwanes.port
  refine ⟨closeServerSession_stays server s, ?_, hwanes.ends.serverPort, ?_, ?_⟩
  · rw [Machine.server, (closeServerSession_keeps server s).servers, ← Machine.server]
  · rw [hport]
  · rw [hport]

/-! ## Ledgers -/

/-- What is known of a server from how far its thread and the call that stops it are. -/
structure Ledger where
  /-- Somebody has called to stop the server. -/
  claimed : Bool
  /-- The port was closed. -/
  down : Bool
  /-- The sessions were taken, and none will be listed any more. -/
  emptied : Bool
  /-- The server ends that somebody will list or close. -/
  hands : List RecordId
  /-- The requests that somebody will fail. -/
  failing : List RecordId
  /-- The server ends of sessions that were added after a request. -/
  added : List RecordId
  /-- The server ends that the thread has to do with. -/
  seen : List RecordId
  /-- The requests that the server took. -/
  taken : List RecordId
  /-- The requests that clients gave up on. -/
  givenUp : List RecordId
  answers : List (RecordId × Except KernelError Unit)
  /-- The request being served, and the server end that it came to. -/
  serving : Option (RecordId × RecordId)

/-- The server ends that are listed or wait at the port. -/
def entrusted (s : Machine) (id p : RecordId) : List RecordId := (s.server id).sessions.map (·.session) ++ (s.port p).incoming

/-- A machine agrees with the ledger of a server: its host process and its port are these, a closed port has nothing waiting, every
open session is listed, waits at the port or is in somebody's hands, and requests that were taken are answered by the server. -/
structure Ordered (id process p : RecordId) (s : Machine) (l : Ledger) : Prop where
  home : (s.server id).process = process
  door : s.serverPort (s.server id).port = p
  claimed : l.claimed = true → (s.server id).stopped = true
  tight : (s.port p).isOpen = false → (s.port p).incoming = []
  down : l.down = true → (s.port p).isOpen = false
  emptied : l.emptied = true → (s.server id).sessions = []
  served : ∀ e r, l.serving = some (e, r) → e ∈ l.seen
  placed : Placed p s (s.entrusted id p ++ l.hands) l.added l.seen
  answered : Answered s l.failing l.taken l.givenUp l.answers l.serving

namespace Ordered

variable {l : Ledger} {hands failing added seen taken givenUp : List RecordId} {answers : List (RecordId × Except KernelError Unit)}
  {serving : Option (RecordId × RecordId)} {claimed down emptied : Bool}

/-- The end of the request that is being served keeps its session while none is opened. -/
theorem link (h : Ordered id process p s l) (ht : Stays s t) (e r : RecordId) (hr : l.serving = some (e, r)) :
    t.serverSession e = s.serverSession e := h.placed.link ht (.inr (.inr (h.served e r hr)))

/-! ### Operations that do not change the server and its port -/

/-- A machine with the same front agrees with a ledger if only ends of closed sessions have left the hands that held them and
requests are answered as it says. -/
theorem front (h : Ordered id process p s l) (ht : SameFront id p s t)
    (hhands : ∀ e ∈ l.hands, e ∈ hands ∨ (t.session (t.serverSession e)).serverOpen = false)
    (hknown : ∀ e, e ∈ hands ∨ e ∈ seen → (e ∈ l.hands ∨ e ∈ l.seen) ∨ t.knows e = true)
    (hserved : ∀ e r, serving = some (e, r) → e ∈ seen) (hanswered : Answered t failing taken givenUp answers serving) :
    Ordered id process p t { l with hands, failing, seen, taken, givenUp, answers, serving } := by
  have hends : t.entrusted id p = s.entrusted id p := by rw [entrusted, ht.server, ht.incoming, entrusted]
  constructor
  case home =>
    rw [ht.server]
    exact h.home
  case door =>
    rw [ht.server, ht.serverPort]
    exact h.door
  case claimed => exact fun hl => ht.server ▸ h.claimed hl
  case tight =>
    rw [ht.isOpen, ht.incoming]
    exact h.tight
  case down => exact fun hl => ht.isOpen.trans (h.down hl)
  case emptied => exact fun hl => ht.server ▸ h.emptied hl
  case served => exact hserved
  case placed =>
    rw [hends]
    refine h.placed.stays ht.stays (fun e he => ?_) (fun e he => .inl he) fun e he => ?_
    · rcases List.mem_append.1 he with he | he
      · exact .inl (List.mem_append_left _ he)
      · exact (hhands e he).imp_left (List.mem_append_right _)
    · have hmine (he : e ∈ l.hands ∨ e ∈ l.seen) : e ∈ s.entrusted id p ++ l.hands ∨ e ∈ l.added ∨ e ∈ l.seen :=
        he.imp (List.mem_append_right _) .inr
      rcases he with he | he
      · rcases List.mem_append.1 he with he | he
        · exact .inl (.inl (List.mem_append_left _ he))
        · exact (hknown e (.inl he)).imp_left hmine
      · exact (hknown e (.inr he)).imp_left hmine
  case answered => exact hanswered

/-- A machine with the same front agrees with its ledger as long as requests are hushed. -/
theorem hushed (h : Ordered id process p s l) (ht : SameFront id p s t) (hhush : Hushed s t) : Ordered id process p t l :=
  h.front ht (fun _ => .inl) (fun _ => .inl) h.served
    (h.answered.hushed hhush ht.stays.nextId (fun _ hr => hr) (h.link ht.stays))

/-- What leaves sessions and ports alone. -/
theorem quiet (h : Ordered id process p s l) (ht : SameDesk s t) : Ordered id process p t l :=
  h.hushed (.of_desk ht) {
    pending := fun id => by rw [session, ht.sessions, ← session]
    current := fun id => by rw [session, ht.sessions, ← session]
    outcome := fun r => by rw [outcome, request, ht.requests, ← request, ← outcome] }

/-- An end whose session is closed may be let go, and a request need not fail. -/
theorem letGo (h : Ordered id process p s l)
    (hhands : ∀ e ∈ l.hands, e ∈ hands ∨ (s.session (s.serverSession e)).serverOpen = false) (hsub : ∀ e ∈ hands, e ∈ l.hands)
    (hfailing : ∀ r ∈ failing, r ∈ l.failing) : Ordered id process p s { l with hands, failing } :=
  h.front (refl s) hhands (fun e he => .inl (he.imp_left (hsub e))) h.served
    (h.answered.hushed ⟨fun _ => rfl, fun _ => rfl, fun _ => rfl⟩ (Nat.le_refl _) hfailing fun _ _ _ => rfl)

/-- The thread has to do with other ends. -/
theorem looks (h : Ordered id process p s l) (seen : List RecordId) (hseen : ∀ e ∈ seen, e ∈ l.hands ∨ e ∈ l.seen ∨ s.knows e = true)
    (hserved : ∀ e r, l.serving = some (e, r) → e ∈ seen) : Ordered id process p s { l with seen } :=
  h.front (refl s) (fun _ => .inl) (fun e he => he.elim (fun he => .inl (.inl he)) fun he => or_assoc.2 (hseen e he)) hserved h.answered

/-- A request that is to fail may get any outcome. -/
theorem fails (h : Ordered id process p s l) {request : RecordId} (hrequest : request ∈ l.failing) (result : Except KernelError Unit) :
    Ordered id process p (completeRequest request result s).2 l :=
  h.front (completeRequest_front request result s) (fun _ => .inl) (fun _ => .inl) h.served
    (h.answered.fails hrequest result fun _ hr => hr)

/-- A client may give up on a request. -/
theorem givesUp (h : Ordered id process p s l) (request : RecordId) :
    Ordered id process p (completeRequest request (.error .terminationRequested) s).2 { l with givenUp := l.givenUp ++ [request] } :=
  h.front (completeRequest_front request _ s) (fun _ => .inl) (fun _ => .inl) h.served (h.answered.givesUp request)

/-- The thread may take a request of an end that it has seen, if it serves none. -/
theorem receives (h : Ordered id process p s l) {server request : RecordId} (hserving : l.serving = none) (hserver : server ∈ l.seen)
    (hrun : receiveRequest server s = (some request, t)) (htaken : taken = l.taken ++ [request]) :
    Ordered id process p t { l with taken, serving := some (server, request) } := by
  subst htaken
  have ht : SameFront id p s t := by
    have hstays := receiveRequest_stays server s
    have hends := receiveRequest_ends server s
    rw [hrun] at hstays hends
    rw [receiveRequest_run] at hrun
    split at hrun
    · obtain ⟨-, rfl⟩ := Prod.mk.inj hrun
      exact .of_ends hstays (setSession_keeps _ _ s) hends rfl
    · cases hrun
  refine h.front ht (fun _ => .inl) (fun _ => .inl) (fun e r hr => ?_) (Answered.receives (hserving ▸ h.answered) hrun)
  obtain ⟨rfl, -⟩ := Prod.mk.inj (Option.some.inj hr)
  exact hserver

/-- The thread may answer the request that it serves. -/
theorem replies (h : Ordered id process p s l) {server request : RecordId} (hserving : l.serving = some (server, request))
    (result : Except KernelError Unit) (htaken : taken = l.taken) : Ordered id process p ((reply server result).run s).2
      { l with taken, answers := l.answers ++ [(request, result)], serving := none } := by
  subst htaken
  have ht : SameFront id p s ((reply server result).run s).2 := by
    refine .of_ends (reply_stays server result s) ?_ (reply_ends server result s) (port_reply server result s p)
    rw [reply_run]
    split
    · exact IsTrans.trans _ _ _ (setSession_keeps _ _ s) (completeRequest_keeps _ _ _)
    · exact refl s
  exact h.front ht (fun _ => .inl) (fun _ => .inl) nofun (Answered.replies (hserving ▸ h.answered) result)

/-! ### What clients do -/

/-- A client may send a request. -/
theorem sends (h : Ordered id process p s l) (client sender : RecordId) (address : Nat) :
    Ordered id process p ((Act.send client sender address : Act process).run s) l := by
  have hmade : SameFront id p s (newRequest sender address s).2 := ⟨.of_eq (Nat.le_succ _) rfl rfl, rfl, fun _ => rfl, rfl, rfl⟩
  have hsent (r : RecordId) : Keeps (SameFront id p) (sendRequest client r).run := by
    intro s
    have hkeeps : SameOwners s ((sendRequest client r).run s).2 ∧ ((sendRequest client r).run s).2.port p = s.port p := by
      rw [sendRequest_run]
      split
      · exact ⟨IsTrans.trans _ _ _ (setSession_keeps _ _ s) (wake_keeps _ _), (wake_links _ _).port p⟩
      · exact ⟨refl s, rfl⟩
    exact .of_ends (sendRequest_stays client r s) hkeeps.1 (sendRequest_ends client r s) hkeeps.2
  exact h.front (IsTrans.trans _ _ _ hmade (hsent s.nextId _)) (fun _ => .inl) (fun _ => .inl) h.served
    (h.answered.sends client sender address)

/-- A client may close its end. -/
theorem closesClient (h : Ordered id process p s l) (client : RecordId) :
    Ordered id process p (closeClientSession client s).2 l := by
  have hrun := closeClientSession_run client s
  have hfront : SameFront id p s (closeClientSession client s).2 := by
    refine .of_ends (closeClientSession_stays client s) (closeClientSession_keeps client s) (closeClientSession_ends client s) ?_
    rw [hrun]
    split
    · exact (wake_links _ _).port p
    · rfl
  refine h.hushed hfront ?_
  rw [hrun, Session.closeClient]
  cases (s.session (s.clientSession client)).clientOpen with
  | false => exact ⟨fun _ => rfl, fun _ => rfl, fun _ => rfl⟩
  | true =>
    have hsession (other : RecordId) := session_setSession (s.clientSession client) other
      { s.session (s.clientSession client) with clientOpen := false } s
    refine ⟨fun other => ?_, fun other => ?_, fun _ => rfl⟩ <;> rw [if_pos rfl] <;> dsimp only <;>
      rw [(wake_links _ _).session, hsession] <;> split
    · next heq => rw [heq]
    · rfl
    · next heq => rw [heq]
    · rfl

/-- A new session is in somebody's hands if it was opened through the port. -/
theorem opens (h : Ordered id process p s l) {port : Option RecordId} (hold : ∀ e ∈ l.hands, e ∈ hands)
    (hnew : port = some p → s.nextId + 1 ∈ hands) (hhands : ∀ e ∈ hands, e ∈ l.hands ∨ e = s.nextId + 1) :
    Ordered id process p (newSession port s).2 { l with hands } := by
  have hlink := serverSession_newSession port s
  constructor
  case home => exact h.home
  case door => exact h.door
  case claimed => exact h.claimed
  case tight => exact h.tight
  case down => exact h.down
  case emptied => exact h.emptied
  case served => exact h.served
  case placed =>
    refine h.placed.opens rfl hlink (session_newSession port s) (fun e he => ?_) (fun hp => List.mem_append_right _ (hnew hp))
      fun e he => ?_
    · exact List.mem_append.2 ((List.mem_append.1 he).imp_right (hold e))
    · rcases List.mem_append.1 he with he | he
      · exact .inl (List.mem_append_left _ he)
      · exact (hhands e he).imp_left (List.mem_append_right _)
  case answered =>
    refine h.answered.opens (Nat.le_add_right _ 3) (session_newSession port s) (fun _ => rfl) fun e r hr => ?_
    obtain ⟨hend, hsession⟩ := Bool.and_eq_true_iff.1 (h.placed.known e (.inr (.inr (h.served e r hr))))
    rw [hlink, if_neg (Nat.ne_of_lt (Nat.lt_succ_of_lt (of_decide_eq_true hend)))]
    exact ⟨rfl, Nat.ne_of_lt (of_decide_eq_true hsession)⟩

/-! ### The port -/

/-- What waits at the port changes hands. -/
theorem queues (h : Ordered id process p s l) (down : Bool) (hands : List RecordId) {x : Port}
    (htight : x.isOpen = false → x.incoming = []) (hdown : down = true → x.isOpen = false)
    (hhands : ∀ e, e ∈ x.incoming ∨ e ∈ hands ↔ e ∈ (s.port p).incoming ∨ e ∈ l.hands) :
    Ordered id process p (setPort p x s).2 { l with down, hands } := by
  have hport : (setPort p x s).2.port p = x := (port_setPort p p x s).trans (if_pos rfl)
  have hends (e : RecordId) : e ∈ (setPort p x s).2.entrusted id p ++ hands ↔ e ∈ s.entrusted id p ++ l.hands := by
    change e ∈ (s.server id).sessions.map (·.session) ++ ((setPort p x s).2.port p).incoming ++ hands ↔ _
    rw [hport, entrusted, List.append_assoc, List.append_assoc,
      List.mem_append, List.mem_append, List.mem_append, List.mem_append, hhands]
  constructor
  case home => exact h.home
  case door => exact h.door
  case claimed => exact h.claimed
  case tight =>
    rw [hport]
    exact htight
  case down =>
    rw [hport]
    exact hdown
  case emptied => exact h.emptied
  case served => exact h.served
  case placed =>
    refine h.placed.stays (.setPort p x s) (fun e he => .inl ((hends e).2 he)) (fun e he => .inl he) fun e he => .inl ?_
    exact he.imp (hends e).1 .inr
  case answered => exact h.answered.hushed ⟨fun _ => rfl, fun _ => rfl, fun _ => rfl⟩ (Nat.le_refl _) (fun _ hr => hr) fun _ _ _ => rfl

/-- The places of a port, and what happens at others, do not matter. -/
theorem elsewhere (h : Ordered id process p s l) {q : RecordId} {x : Port}
    (hp : q = p → x.isOpen = (s.port p).isOpen ∧ x.incoming = (s.port p).incoming) : Ordered id process p (setPort q x s).2 l :=
  h.hushed (.setPort hp) ⟨fun _ => rfl, fun _ => rfl, fun _ => rfl⟩

/-- A port is closed; what waited there is in the hands of whoever closed it. -/
theorem bolts (h : Ordered id process p s l) (down : Bool) {waiting : List RecordId} {x : Port}
    (hclose : (s.port p).close = some (waiting, x))
    (hhands : ∀ e, e ∈ hands ↔ e ∈ waiting ∨ e ∈ l.hands) :
    Ordered id process p (setPort p x s).2 { l with down, hands } := by
  rw [Port.close] at hclose
  split at hclose
  · obtain ⟨rfl, rfl⟩ := Prod.mk.inj (Option.some.inj hclose)
    refine h.queues down hands (fun _ => rfl) (fun _ => rfl) fun e => ?_
    rw [hhands]
    exact ⟨fun he => he.resolve_left List.not_mem_nil, .inr⟩
  · cases hclose

/-- A client may open a session through any port. -/
theorem connects (h : Ordered id process p s l) (client : RecordId) : Ordered id process p ((connectPort client).run s).2 l := by
  rw [connectPort_run]
  generalize s.clientPort client = q
  split
  · next x heq =>
    have hopen : (s.port q).isOpen = true := by
      rw [Port.takePlace] at heq
      cases hq : (s.port q).isOpen with
      | true => rfl
      | false => simp [hq] at heq
    have hx : x.isOpen = true ∧ x.incoming = (s.port q).incoming := by
      rw [Port.takePlace, hopen] at heq
      simp only [Bool.not_true, Bool.false_eq_true, if_false] at heq
      split at heq
      · cases heq
      · obtain rfl := Except.ok.inj heq
        exact ⟨rfl, rfl⟩
    refine quiet (s := (setPort q (x.enqueue (s.nextId + 1)) (newSession (some q) s).2).2) ?_ (wake_desk _ _)
    by_cases hq : q = p
    · subst hq
      have hmade : Ordered id process q (newSession (some q) s).2 { l with hands := (s.nextId + 1) :: l.hands } :=
        h.opens (fun _ => List.mem_cons_of_mem _) (fun _ => List.mem_cons_self) fun e he => (List.mem_cons.1 he).symm
      refine (hmade.queues l.down l.hands (fun hclosed => ?_) (fun hdown => ?_) fun e => ?_)
      · cases hx.1.symm.trans hclosed
      · cases hopen.symm.trans (h.down hdown)
      · change e ∈ x.incoming ++ [s.nextId + 1] ∨ e ∈ l.hands ↔ e ∈ (s.port q).incoming ∨ e ∈ (s.nextId + 1) :: l.hands
        rw [hx.2, List.mem_append, List.mem_singleton, List.mem_cons, or_assoc]
    · have hmade : Ordered id process p (newSession (some q) s).2 { l with hands := l.hands } :=
        h.opens (fun _ he => he) (fun heq => absurd (Option.some.inj heq) hq) fun e he => .inl he
      exact hmade.elsewhere fun heq => absurd heq hq
  · exact h

/-- The thread may accept a session, whose end it has in its hands then. -/
theorem accepts (h : Ordered id process p s l) {server session : RecordId} (hp : s.serverPort server = p)
    (hrun : acceptSession server s = (some session, t)) :
    Ordered id process p t { l with hands := session :: l.hands } := by
  rw [acceptSession_run, hp, Port.accept] at hrun
  cases hincoming : (s.port p).incoming with
  | nil =>
    rw [hincoming] at hrun
    cases hrun
  | cons e rest =>
    rw [hincoming] at hrun
    obtain ⟨hsession, rfl⟩ := Prod.mk.inj hrun
    obtain rfl := Option.some.inj hsession
    have hopen : (s.port p).isOpen = true := by
      cases hp : (s.port p).isOpen with
      | true => rfl
      | false => cases hincoming.symm.trans (h.tight hp)
    refine h.queues l.down _ (fun hclosed => ?_) h.down fun other => ?_
    · cases hopen.symm.trans hclosed
    · rw [hincoming, List.mem_cons, List.mem_cons, or_left_comm, or_assoc]

/-! ### Closing -/

/-- A server end is closed, and may be let go. -/
theorem closes (h : Ordered id process p s l) (server : RecordId) : Ordered id process p (closeServerSession server s).2 l :=
  h.front (closeServerSession_front server s) (fun _ => .inl) (fun _ => .inl) h.served (h.answered.closeServer server)

/-- Server ends may be closed one after the other. -/
theorem closesAll (servers : List RecordId) (h : Ordered id process p s l) : Ordered id process p (closeAll servers s) l := by
  induction servers generalizing s with
  | nil => exact h
  | cons server rest ih => exact ih (h.closes server)

/-- A port may be closed with all that waits at it. -/
theorem closesPort (h : Ordered id process p s l) (serverPort : RecordId) : Ordered id process p (closePort serverPort s).2 l := by
  rw [closePort_run]
  generalize s.serverPort serverPort = q
  split
  · next waiting x heq =>
    refine quiet ?_ (wake_desk _ _)
    by_cases hq : q = p
    · subst hq
      have hbolted : Ordered id process q (setPort q x s).2 { l with hands := waiting ++ l.hands } :=
        h.bolts l.down heq fun e => List.mem_append
      refine (hbolted.closesAll waiting).letGo (fun e he => ?_) (fun e he => List.mem_append_right _ he) fun _ hr => hr
      refine (List.mem_append.1 he).symm.imp_right fun he => ?_
      rw [(closeAll_wanes waiting _ : Wanes q _ _).ends.serverSession]
      exact closeAll_shut waiting _ he
    · exact closesAll waiting (h.elsewhere fun heq => absurd heq hq)
  · exact h

/-- A handle may be closed, whatever it names. -/
theorem closesHandle (h : Ordered id process p s l) (object : KernelObject) : Ordered id process p (handleClosed object s).2 l := by
  have hcounted : Ordered id process p { s with handleCounts := s.handleCounts.insert object.id (s.handleCount object.id - 1) } l :=
    h.quiet ⟨Nat.le_refl _, rfl, rfl, rfl, rfl, rfl, rfl, rfl, rfl⟩
  unfold handleClosed
  rw [Update.run_look, Update.run_bind]
  split
  · split
    · exact hcounted.closesClient _
    · exact hcounted.closes _
    · exact hcounted.closesPort _
    · exact hcounted
  · exact hcounted

/-- Handles may be closed one after the other. -/
theorem closesBindings (bindings : List (Handle × KernelObject)) (h : Ordered id process p s l) :
    Ordered id process p (closeBindings bindings s).2 l := by
  induction bindings generalizing s with
  | nil => exact h
  | cons b rest ih =>
    rw [closeBindings, List.forIn_cons]
    exact ih (h.closesHandle b.2)

/-- Releasing the host process of a server, or another one, closes what that has handles of. -/
theorem releases (h : Ordered id process p s l) (released : RecordId) : Ordered id process p (release released s).2 l := by
  rcases release_cases released s with ⟨-, hrun⟩ | ⟨-, hrun⟩ <;> rw [hrun]
  · exact ((h.quiet (setProcess_desk _ _ s)).closesBindings _).quiet (setProcess_desk _ _ _)
  · exact h

/-! ### The list -/

/-- The server changes its list, or what else it remembers. -/
theorem lists (h : Ordered id process p s l) {x : Server} (hprocess : x.process = (s.server id).process)
    (hport : x.port = (s.server id).port) (hclaimed : claimed = true → x.stopped = true) (hemptied : emptied = true → x.sessions = [])
    (hhands : ∀ e, e ∈ (s.server id).sessions.map (·.session) ∨ e ∈ l.hands → e ∈ x.sessions.map (·.session) ∨ e ∈ hands)
    (hadded : ∀ e ∈ added, e ∈ l.added ∨ e ∈ x.sessions.map (·.session))
    (hknown : ∀ e, e ∈ x.sessions.map (·.session) ∨ e ∈ hands ∨ e ∈ seen →
      e ∈ (s.server id).sessions.map (·.session) ∨ e ∈ l.hands ∨ e ∈ l.seen)
    (hserved : ∀ e r, l.serving = some (e, r) → e ∈ seen) :
    Ordered id process p (setServer id x s).2 { l with claimed, emptied, hands, added, seen } := by
  have hserver : (setServer id x s).2.server id = x := (server_setServer id id x s).trans (if_pos rfl)
  have hends (e : RecordId) : e ∈ (setServer id x s).2.entrusted id p ++ hands ↔
      e ∈ x.sessions.map (·.session) ∨ e ∈ (s.port p).incoming ∨ e ∈ hands := by
    rw [entrusted, hserver, List.mem_append, List.mem_append, or_assoc]
    rfl
  constructor
  case home =>
    rw [hserver, hprocess]
    exact h.home
  case door =>
    rw [hserver, hport]
    exact h.door
  case claimed =>
    rw [hserver]
    exact hclaimed
  case tight => exact h.tight
  case down => exact h.down
  case emptied =>
    rw [hserver]
    exact hemptied
  case served => exact hserved
  case placed =>
    refine h.placed.stays (.setServer id x s) (fun e he => .inl ((hends e).2 ?_)) (fun e he => ?_) fun e he => ?_
    · rw [entrusted, List.mem_append, List.mem_append] at he
      rcases he with (he | he) | he
      · exact (hhands e (.inl he)).imp_right .inr
      · exact .inr (.inl he)
      · exact (hhands e (.inr he)).imp_right .inr
    · exact (hadded e he).imp_right fun he => (hends e).2 (.inl he)
    · have hold (he : e ∈ x.sessions.map (·.session) ∨ e ∈ hands ∨ e ∈ seen) :
          e ∈ s.entrusted id p ++ l.hands ∨ e ∈ l.added ∨ e ∈ l.seen := by
        rcases hknown e he with he | he | he
        · exact .inl (List.mem_append_left _ (List.mem_append_left _ he))
        · exact .inl (List.mem_append_right _ he)
        · exact .inr (.inr he)
      refine .inl ?_
      rcases he with he | he
      · rcases (hends e).1 he with he | he | he
        · exact hold (.inl he)
        · exact .inl (List.mem_append_left _ (List.mem_append_right _ he))
        · exact hold (.inr (.inl he))
      · exact hold (.inr (.inr he))
  case answered => exact h.answered.hushed ⟨fun _ => rfl, fun _ => rfl, fun _ => rfl⟩ (Nat.le_refl _) (fun _ hr => hr) fun _ _ _ => rfl

/-- The thread waits for some of the sessions. -/
theorem windows (h : Ordered id process p s l) (hserving : l.serving = none) {window : List SessionEntry} (windowStart : Nat)
    (hwindow : ∀ entry ∈ window, entry ∈ (s.server id).sessions) :
    Ordered id process p (setServer id { s.server id with windowStart } s).2 { l with seen := window.map (·.session) } := by
  refine h.lists rfl rfl h.claimed h.emptied (fun _ he => he) (fun _ he => .inl he) (fun e he => ?_)
    fun e r hr => nomatch hserving.symm.trans hr
  rcases he with he | he | he
  · exact .inl he
  · exact .inr (.inl he)
  · obtain ⟨entry, hentry, rfl⟩ := List.mem_map.1 he
    exact .inl (List.mem_map.2 ⟨entry, hwindow entry hentry, rfl⟩)

/-- A session is taken from the list, by somebody who will close it. -/
theorem removes (h : Ordered id process p s l) (hserving : l.serving = none) {entry : SessionEntry} (hentry : entry.session ∈ l.seen)
    (hhands : ∀ e, e ∈ hands ↔ e = entry.session ∨ e ∈ l.hands) :
    Ordered id process p
      (setServer id { s.server id with sessions := (s.server id).sessions.filter (·.session ≠ entry.session) } s).2
      { l with hands, seen := [] } := by
  refine h.lists rfl rfl h.claimed (fun hl => ?_) (fun e he => ?_) (fun _ he => .inl he) (fun e he => ?_)
    fun e r hr => nomatch hserving.symm.trans hr
  · rw [h.emptied hl]
    rfl
  · rw [hhands]
    by_cases heq : e = entry.session
    · exact .inr (.inl heq)
    · refine he.imp (fun he => ?_) .inr
      obtain ⟨other, hother, rfl⟩ := List.mem_map.1 he
      exact List.mem_map.2 ⟨other, List.mem_filter.2 ⟨hother, decide_eq_true heq⟩, rfl⟩
  · rcases he with he | he | he
    · obtain ⟨other, hother, rfl⟩ := List.mem_map.1 he
      exact .inl (List.mem_map.2 ⟨other, (List.mem_filter.1 hother).1, rfl⟩)
    · rcases (hhands e).1 he with rfl | he
      · exact .inr (.inr hentry)
      · exact .inr (.inl he)
    · cases he

/-- Sessions that are in hand, or that the thread has to do with, are listed. -/
theorem adds (h : Ordered id process p s l) (entries : List SessionEntry) (hemptied : l.emptied = false)
    (hhands : ∀ e ∈ l.hands, e ∈ entries.map (·.session) ∨ e ∈ hands) (hsub : ∀ e ∈ hands, e ∈ l.hands)
    (hentries : ∀ e ∈ entries.map (·.session), e ∈ l.hands ∨ e ∈ l.seen)
    (hadded : ∀ e ∈ added, e ∈ l.added ∨ e ∈ entries.map (·.session)) (hseen : ∀ e ∈ seen, e ∈ l.seen)
    (hserved : ∀ e r, l.serving = some (e, r) → e ∈ seen) :
    Ordered id process p (addSessions id entries s).2 { l with hands, added, seen } := by
  have hlist (e : RecordId) : e ∈ ((s.server id).sessions ++ entries).map (·.session) ↔
      e ∈ (s.server id).sessions.map (·.session) ∨ e ∈ entries.map (·.session) := by
    rw [List.map_append, List.mem_append]
  refine h.lists rfl rfl h.claimed (fun hl => nomatch hemptied.symm.trans hl) (fun e he => ?_) (fun e he => ?_) (fun e he => ?_) hserved
  · rcases he with he | he
    · exact .inl ((hlist e).2 (.inl he))
    · exact (hhands e he).imp_left fun he => (hlist e).2 (.inr he)
  · exact (hadded e he).imp_right fun he => (hlist e).2 (.inr he)
  · rcases he with he | he | he
    · exact ((hlist e).1 he).imp_right (hentries e)
    · exact .inr (.inl (hsub e he))
    · exact .inr (.inr (hseen e he))

end Ordered

end Microkernel.Machine
