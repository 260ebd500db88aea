import Microkernel.Proofs.Machine.Sessions

/-!
# What port operations change

Every operation on a port, and every way of closing a session that was opened through one, told by what becomes of the port and of
the sessions. A port counts its sessions whose server side is open (`Tallies`): opening one counts it, and closing its server end
gives the place back once.
-/

namespace Microkernel

namespace Port

variable {x : Port}

/-- A place is given while the port is open and has fewer sessions than it may have. -/
theorem takePlace_of_free (hopen : x.isOpen = true) (hfree : x.sessions < x.maxSessions) :
    x.takePlace = .ok { x with sessions := x.sessions + 1 } := by
  simp [takePlace, hopen, Nat.not_le.2 hfree]

/-- A port without a place gives none. -/
theorem takePlace_of_not_free (h : ¬(x.isOpen = true ∧ x.sessions < x.maxSessions)) : ∃ e, x.takePlace = .error e := by
  unfold takePlace
  cases hopen : x.isOpen with
  | false => exact ⟨_, rfl⟩
  | true =>
    have hfull : x.maxSessions ≤ x.sessions := Nat.not_lt.1 fun hfree => h ⟨hopen, hfree⟩
    simp [hfull]

end Port

namespace Machine

variable {s t : Machine} {p : RecordId} {opened : List RecordId}

/-! ## Operations on ports -/

/-- A new port has three new numbers: its own, that of its server end and that of its client end. -/
theorem newPort_run (name : String) (maxSessions : Nat) (s : Machine) :
    newPort name maxSessions s = ((s.nextId + 1, s.nextId + 2), { s with
      nextId := s.nextId + 3
      ports := s.ports.insert s.nextId { name, maxSessions }
      serverPorts := s.serverPorts.insert (s.nextId + 1) ⟨s.nextId⟩
      clientPorts := s.clientPorts.insert (s.nextId + 2) ⟨s.nextId⟩ }) := rfl

section

variable (name : String) (maxSessions : Nat) (s : Machine) (id : RecordId)

/-- A new port has its name, its limit and no sessions. -/
theorem port_newPort : (newPort name maxSessions s).2.port id = if id = s.nextId then { name, maxSessions } else s.port id :=
  Records.getD_insert _ _ _ _ _

/-- The server end of a new port is an end of it. -/
theorem serverPort_newPort : (newPort name maxSessions s).2.serverPort id =
    if id = s.nextId + 1 then s.nextId else s.serverPort id := by
  rw [newPort_run, serverPort, Records.getD_insert]
  split <;> rfl

/-- The client end of a new port is an end of it. -/
theorem clientPort_newPort : (newPort name maxSessions s).2.clientPort id =
    if id = s.nextId + 2 then s.nextId else s.clientPort id := by
  rw [newPort_run, clientPort, Records.getD_insert]
  split <;> rfl

end

/-- A connection takes a place, opens a session, queues it and wakes whoever waits; or it fails. -/
theorem connectPort_run (client : RecordId) (s : Machine) : (connectPort client).run s =
    match (s.port (s.clientPort client)).takePlace with
    | .ok port => (.ok (s.nextId + 2), (wake port.waiters (setPort (s.clientPort client) (port.enqueue (s.nextId + 1))
        (newSession (some (s.clientPort client)) s).2).2).2)
    | .error e => (.error e, s) := by
  rw [connectPort, Action.run_look, Action.run_look, Action.run_except_bind]
  cases (s.port (s.clientPort client)).takePlace <;> rfl

/-- What opening a session through a port changes: there is a new session, and its server end queues on the port. -/
structure Connects (p : RecordId) (s t : Machine) : Prop where
  nextId : t.nextId = s.nextId + 3
  serverPort : ∀ id, t.serverPort id = s.serverPort id
  clientPort : ∀ id, t.clientPort id = s.clientPort id
  serverSession : ∀ id, t.serverSession id = if id = s.nextId + 1 then s.nextId else s.serverSession id
  clientSession : ∀ id, t.clientSession id = if id = s.nextId + 2 then s.nextId else s.clientSession id
  session : ∀ id, t.session id = if id = s.nextId then { port := some p } else s.session id
  port : t.port p = { s.port p with sessions := (s.port p).sessions + 1, incoming := (s.port p).incoming ++ [s.nextId + 1] }

/-- A port with a place opens one more session. -/
theorem connectPort_of_free {client : RecordId} {s : Machine} (hopen : (s.port (s.clientPort client)).isOpen = true)
    (hfree : (s.port (s.clientPort client)).sessions < (s.port (s.clientPort client)).maxSessions) :
    ∃ t, (connectPort client).run s = (.ok (s.nextId + 2), t) ∧ Connects (s.clientPort client) s t := by
  rw [connectPort_run, Port.takePlace_of_free hopen hfree]
  refine ⟨_, rfl, ?_⟩
  constructor
  case port =>
    rw [(wake_links _ _).port, port_setPort, if_pos rfl]
    rfl
  case session => exact session_newSession _ s
  case serverSession => exact serverSession_newSession _ s
  case clientSession => exact clientSession_newSession _ s
  all_goals intros; rfl

/-- A port without a place leaves the machine as it is. -/
theorem connectPort_of_not_free {client : RecordId} {s : Machine}
    (h : ¬((s.port (s.clientPort client)).isOpen = true ∧
      (s.port (s.clientPort client)).sessions < (s.port (s.clientPort client)).maxSessions)) :
    ∃ e, (connectPort client).run s = (.error e, s) := by
  obtain ⟨e, he⟩ := Port.takePlace_of_not_free h
  rw [connectPort_run, he]
  exact ⟨e, rfl⟩

/-- Accepting takes what waits in front, if something waits. -/
theorem acceptSession_run (server : RecordId) (s : Machine) : acceptSession server s =
    match (s.port (s.serverPort server)).accept with
    | some (accepted, port) => (some accepted, (setPort (s.serverPort server) port s).2)
    | none => (none, s) := by
  rw [acceptSession, Update.run_look, Update.run_look]
  cases (s.port (s.serverPort server)).accept <;> rfl

/-- The machine after server ends were closed one after the other. -/
def closeAll (servers : List RecordId) (s : Machine) : Machine :=
  servers.foldl (fun s server => (closeServerSession server s).2) s

theorem closePort_run (server : RecordId) (s : Machine) : (closePort server s).2 =
    match (s.port (s.serverPort server)).close with
    | some (waiting, port) =>
      (wake ((closeAll waiting (setPort (s.serverPort server) port s).2).port (s.serverPort server)).waiters
        (closeAll waiting (setPort (s.serverPort server) port s).2)).2
    | none => s := by
  rw [closePort, Update.run_look, Update.run_look]
  cases (s.port (s.serverPort server)).close with
  | some closed =>
    dsimp only
    rw [Update.run_bind, Update.run_bind, Update.run_forIn]
    rfl
  | none => rfl

/-! ## Closing one session -/

/-- The server side of the session behind a server end is closed, and its port has the place back if it was open. -/
structure Closes (server : RecordId) (s t : Machine) : Prop where
  ends : SameEnds s t
  shut : (t.session (s.serverSession server)).serverOpen = false
  others : ∀ id, id ≠ s.serverSession server → (t.session id).serverOpen = (s.session id).serverOpen
  through : ∀ id, (t.session id).port = (s.session id).port
  port : ∀ p, t.port p = if (s.session (s.serverSession server)).releasing = some p then (s.port p).release else s.port p

theorem closeServerSession_closes (server : RecordId) (s : Machine) : Closes server s (closeServerSession server s).2 where
  ends := closeServerSession_ends server s
  shut := by rw [session_closeServerSession, if_pos rfl, Session.shut]
  others id hid := by rw [session_closeServerSession, if_neg hid]
  through id := by
    rw [session_closeServerSession]
    split <;> rfl
  port p := port_closeServerSession server s p

theorem dropServerSession_closes (server : RecordId) (s : Machine) : Closes server s (dropServerSession server s).2 := by
  have hcloses := closeServerSession_closes server s
  have hsession (id : RecordId) :
      ((dropServerSession server s).2.session id).serverOpen = ((closeServerSession server s).2.session id).serverOpen ∧
      ((dropServerSession server s).2.session id).port = ((closeServerSession server s).2.session id).port := by
    rw [dropServerSession_run, session_reply]
    split <;> exact ⟨rfl, rfl⟩
  constructor
  case ends => exact dropServerSession_ends server s
  case shut => exact (hsession _).1.trans hcloses.shut
  case others => exact fun id hid => (hsession id).1.trans (hcloses.others id hid)
  case through => exact fun id => (hsession id).2.trans (hcloses.through id)
  case port =>
    intro p
    rw [dropServerSession_run, port_reply]
    exact hcloses.port p

/-! ## Tallies -/

/-- Closing one of the things that are counted makes the count one less. -/
theorem countP_eq_succ {l : List RecordId} (hl : l.Nodup) {open₁ open₂ : RecordId → Bool} {id : RecordId} (hid : id ∈ l)
    (h₁ : open₁ id = true) (h₂ : open₂ id = false) (hothers : ∀ other, other ≠ id → open₂ other = open₁ other) :
    l.countP open₁ = l.countP open₂ + 1 := by
  have hrest : (l.erase id).countP open₁ = (l.erase id).countP open₂ :=
    List.countP_congr fun other hother => by rw [hothers other (hl.mem_erase_iff.1 hother).1]
  rw [(List.perm_cons_erase hid).countP_eq open₁, (List.perm_cons_erase hid).countP_eq open₂, List.countP_cons_of_pos h₁,
    List.countP_cons_of_neg (by simp [h₂]), hrest]

/-- The sessions opened through a port are known and the port counts those whose server side is open. -/
structure Tallies (p : RecordId) (opened : List RecordId) (s : Machine) : Prop where
  distinct : opened.Nodup
  numbered : ∀ id ∈ opened, id < s.nextId
  through : ∀ id ∈ opened, (s.session id).port = some p
  counted : (s.port p).sessions = opened.countP fun id => (s.session id).serverOpen

namespace Tallies

/-- The tallies depend on the sessions and on the count only. -/
theorem of_same (h : Tallies p opened s) (hnext : t.nextId = s.nextId) (hsession : ∀ id, t.session id = s.session id)
    (hsessions : (t.port p).sessions = (s.port p).sessions) : Tallies p opened t where
  distinct := h.distinct
  numbered id hid := by
    rw [hnext]
    exact h.numbered id hid
  through id hid := by
    rw [hsession]
    exact h.through id hid
  counted := by
    rw [hsessions, h.counted]
    simp only [hsession]

/-- Whatever else becomes of the port, only its count matters. -/
theorem setPort (h : Tallies p opened s) {q : Port} (hq : q.sessions = (s.port p).sessions) :
    Tallies p opened (Machine.setPort p q s).2 := by
  refine h.of_same rfl (fun _ => rfl) ?_
  rw [port_setPort, if_pos rfl, hq]

/-- A new session is counted. -/
theorem connects (h : Tallies p opened s) (hc : Connects p s t) : Tallies p (opened ++ [s.nextId]) t := by
  have hold (id : RecordId) (hid : id ∈ opened) : t.session id = s.session id := by
    rw [hc.session, if_neg (Nat.ne_of_lt (h.numbered id hid))]
  have hnew : t.session s.nextId = { port := some p } := by rw [hc.session, if_pos rfl]
  constructor
  case distinct =>
    refine List.nodup_append.2 ⟨h.distinct, List.pairwise_singleton _ _, fun id hid other hother heq => ?_⟩
    rw [heq, List.mem_singleton.1 hother] at hid
    exact Nat.lt_irrefl _ (h.numbered _ hid)
  case numbered =>
    intro id hid
    rw [hc.nextId]
    rcases List.mem_append.1 hid with hid | hid
    · exact Nat.lt_add_right 3 (h.numbered id hid)
    · rw [List.mem_singleton.1 hid]
      exact Nat.lt_add_of_pos_right (by decide)
  case through =>
    intro id hid
    rcases List.mem_append.1 hid with hid | hid
    · rw [hold id hid]
      exact h.through id hid
    · rw [List.mem_singleton.1 hid, hnew]
  case counted =>
    rw [hc.port, List.countP_append, List.countP_singleton, hnew, if_pos rfl]
    change (s.port p).sessions + 1 = _
    rw [h.counted]
    exact congrArg (· + 1) (List.countP_congr fun id hid => by rw [hold id hid])

/-- Closing a server end that was counted gives its place back, and the port still counts what is open. -/
theorem closes {server : RecordId} (h : Tallies p opened s) (hserver : s.serverSession server ∈ opened)
    (hc : Closes server s t) : Tallies p opened t where
  distinct := h.distinct
  numbered id hid := by
    rw [hc.ends.nextId]
    exact h.numbered id hid
  through id hid := (hc.through id).trans (h.through id hid)
  counted := by
    rw [hc.port]
    cases hopen : (s.session (s.serverSession server)).serverOpen with
    | true =>
      have hcount := countP_eq_succ h.distinct hserver hopen hc.shut hc.others
      have hreleasing : (s.session (s.serverSession server)).releasing = some p := by
        rw [Session.releasing, if_pos hopen, h.through _ hserver]
      rw [if_pos hreleasing, Port.release, h.counted, hcount, Nat.add_sub_cancel]
    | false =>
      have hreleasing : (s.session (s.serverSession server)).releasing ≠ some p := by
        rw [Session.releasing, if_neg (by simp [hopen])]
        simp
      rw [if_neg hreleasing, h.counted]
      refine List.countP_congr fun id _ => ?_
      by_cases hid : id = s.serverSession server
      · rw [hid, hopen, hc.shut]
      · rw [hc.others id hid]

end Tallies

/-! ## Closing several sessions -/

/-- No session is opened, no end is new, and the port has no more sessions than before; nothing else about it has changed. -/
structure Wanes (p : RecordId) (s t : Machine) : Prop where
  ends : SameEnds s t
  closed : ∀ id, (s.session id).serverOpen = false → (t.session id).serverOpen = false
  port : ∃ n ≤ (s.port p).sessions, t.port p = { s.port p with sessions := n }

namespace Wanes

instance : IsPreorder Machine (Wanes p) where
  refl s := ⟨refl s, fun _ hid => hid, _, Nat.le_refl _, rfl⟩
  trans _ _ _ h h' := by
    obtain ⟨n, hn, hport⟩ := h.port
    obtain ⟨m, hm, hport'⟩ := h'.port
    refine ⟨IsTrans.trans _ _ _ h.ends h'.ends, fun id hid => h'.closed id (h.closed id hid), m, ?_, ?_⟩
    · rw [hport] at hm
      exact Nat.le_trans hm hn
    · rw [hport', hport]

/-- Closing a server end opens nothing. -/
theorem of_closes {server : RecordId} (h : Closes server s t) : Wanes p s t where
  ends := h.ends
  closed id hid := by
    by_cases heq : id = s.serverSession server
    · rw [heq]
      exact h.shut
    · rw [h.others id heq]
      exact hid
  port := by
    rw [h.port]
    split
    · exact ⟨_, Nat.sub_le _ 1, rfl⟩
    · exact ⟨_, Nat.le_refl _, rfl⟩

end Wanes

/-- Closing several server ends opens nothing. -/
theorem closeAll_wanes (servers : List RecordId) (s : Machine) : Wanes p s (closeAll servers s) := by
  induction servers generalizing s with
  | nil => exact refl s
  | cons server rest ih => exact IsTrans.trans _ _ _ (.of_closes (closeServerSession_closes server s)) (ih _)

/-- Closing sessions that were opened through a port keeps its count right. -/
theorem closeAll_tallies (h : Tallies p opened s) {servers : List RecordId}
    (hservers : ∀ e ∈ servers, s.serverSession e ∈ opened) : Tallies p opened (closeAll servers s) := by
  induction servers generalizing s with
  | nil => exact h
  | cons server rest ih =>
    have hc := closeServerSession_closes server s
    refine ih (h.closes (hservers server List.mem_cons_self) hc) fun e he => ?_
    rw [hc.ends.serverSession]
    exact hservers e (List.mem_cons_of_mem _ he)

/-- Of server ends that are closed one after the other, all are closed in the end. -/
theorem closeAll_shut (servers : List RecordId) (s : Machine) {e : RecordId} (he : e ∈ servers) :
    ((closeAll servers s).session (s.serverSession e)).serverOpen = false := by
  induction servers generalizing s with
  | nil => nomatch he
  | cons server rest ih =>
    have hc := closeServerSession_closes server s
    rcases List.mem_cons.1 he with rfl | he
    · exact (closeAll_wanes rest _ : Wanes 0 _ _).closed _ hc.shut
    · rw [← hc.ends.serverSession e]
      exact ih _ he

end Machine

end Microkernel
