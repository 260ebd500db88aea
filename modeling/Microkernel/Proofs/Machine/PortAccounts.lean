import Microkernel.Proofs.Machine.Ports

/-!
# Accounts of a port

A run is a list of acts on one new port: connecting, accepting, closing the port, and closing server ends or letting them go, in
any order. Its accounts are exact (`port_exact`): the count is the number of its sessions whose server side is open, sessions are
accepted in the order in which they were opened, and a closed port leaves none waiting.
-/

namespace Microkernel.Machine

/-! ## Runs -/

/-- What is done on one port. -/
inductive PortAct
  | connect
  | accept
  | closePort
  /-- The server end of a session that was opened through the port is closed, accepted or not. -/
  | closeServer (server : RecordId)
  /-- The server end of such a session is let go. -/
  | dropServer (server : RecordId)

/-- A machine with one port, and the sessions that were opened through it and accepted, oldest first. -/
structure PortBooks where
  machine : Machine
  server : RecordId
  client : RecordId
  opened : List RecordId := []
  accepted : List RecordId := []

namespace PortBooks

/-- A new port on a machine. -/
def start (name : String) (maxSessions : Nat) (s : Machine) : PortBooks where
  machine := (newPort name maxSessions s).2
  server := (newPort name maxSessions s).1.1
  client := (newPort name maxSessions s).1.2

def step (x : PortBooks) : PortAct → PortBooks
  | .connect =>
    match (connectPort x.client).run x.machine with
    | (.ok client, machine) => { x with machine, opened := x.opened ++ [machine.clientSession client] }
    | (.error _, machine) => { x with machine }
  | .accept =>
    match acceptSession x.server x.machine with
    | (some server, machine) => { x with machine, accepted := x.accepted ++ [machine.serverSession server] }
    | (none, machine) => { x with machine }
  | .closePort => { x with machine := (Machine.closePort x.server x.machine).2 }
  | .closeServer server =>
    if x.machine.serverSession server ∈ x.opened then { x with machine := (closeServerSession server x.machine).2 } else x
  | .dropServer server =>
    if x.machine.serverSession server ∈ x.opened then { x with machine := (dropServerSession server x.machine).2 } else x

/-- A run on a new port. -/
def after (name : String) (maxSessions : Nat) (s : Machine) (acts : List PortAct) : PortBooks :=
  acts.foldl step (start name maxSessions s)

/-- The port of a run. -/
def port (x : PortBooks) : Port := x.machine.port (x.machine.serverPort x.server)

/-- The sessions that wait to be accepted, oldest first. -/
def queued (x : PortBooks) : List RecordId := x.port.incoming.map x.machine.serverSession

/-- Whether the server side of a session is open. -/
def isServed (x : PortBooks) (session : RecordId) : Bool := (x.machine.session session).serverOpen

/-! ## What an act does -/

/-- The machine after the port was closed and before anybody was woken. -/
def shutDown (x : PortBooks) : Machine :=
  closeAll x.port.incoming (setPort (x.machine.serverPort x.server) { x.port with isOpen := false, incoming := [] } x.machine).2

/-- Whether the port gives a place to one more session. -/
def IsFree (x : PortBooks) : Prop := x.port.isOpen = true ∧ x.port.sessions < x.port.maxSessions

/-- All that an act can do. -/
inductive Moves (x : PortBooks) : PortAct → PortBooks → Prop
  | refused (hfree : ¬x.IsFree) : Moves x .connect x
  | connected {t : Machine} (hfree : x.IsFree) (h : Connects (x.machine.serverPort x.server) x.machine t) :
    Moves x .connect { x with machine := t, opened := x.opened ++ [x.machine.nextId] }
  | unasked (h : x.port.incoming = []) : Moves x .accept x
  | accepted {e : RecordId} {rest : List RecordId} (h : x.port.incoming = e :: rest) : Moves x .accept { x with
      machine := (setPort (x.machine.serverPort x.server) { x.port with incoming := rest } x.machine).2
      accepted := x.accepted ++ [x.machine.serverSession e] }
  | closedBefore (h : x.port.isOpen = false) : Moves x .closePort x
  | closed (h : x.port.isOpen = true) (l : WaitList) : Moves x .closePort { x with machine := (wake l x.shutDown).2 }
  | strange {a : PortAct} (ha : .closePort ≠ a) : Moves x a x
  | closes {a : PortAct} {server : RecordId} {t : Machine} (ha : .closePort ≠ a) (hserver : x.machine.serverSession server ∈ x.opened)
    (h : Closes server x.machine t) : Moves x a { x with machine := t }

variable {x y : PortBooks} {a : PortAct} {maxSessions : Nat}

/-- The port of the books is that behind its server end. -/
theorem port_machine (x : PortBooks) : x.machine.port (x.machine.serverPort x.server) = x.port := rfl

/-- A port with a place connects one more session. -/
theorem connectPort_of_isFree (hlinked : x.machine.clientPort x.client = x.machine.serverPort x.server) (hfree : x.IsFree) :
    ∃ t, (connectPort x.client).run x.machine = (.ok (x.machine.nextId + 2), t) ∧
      Connects (x.machine.serverPort x.server) x.machine t := by
  unfold IsFree port at hfree
  rw [← hlinked] at hfree ⊢
  exact connectPort_of_free hfree.1 hfree.2

/-- A port without a place refuses, and nothing has changed. -/
theorem connectPort_of_not_isFree (hlinked : x.machine.clientPort x.client = x.machine.serverPort x.server) (hfree : ¬x.IsFree) :
    ∃ e, (connectPort x.client).run x.machine = (.error e, x.machine) := by
  unfold IsFree port at hfree
  rw [← hlinked] at hfree
  exact connectPort_of_not_free hfree

/-- Connecting opens a session and puts it at the end of the queue, or does nothing. -/
theorem step_connect (hlinked : x.machine.clientPort x.client = x.machine.serverPort x.server) :
    x.Moves .connect (x.step .connect) := by
  rw [step]
  by_cases hfree : x.IsFree
  · obtain ⟨t, hrun, hc⟩ := connectPort_of_isFree hlinked hfree
    rw [hrun]
    dsimp only
    rw [hc.clientSession, if_pos rfl]
    exact .connected hfree hc
  · obtain ⟨e, hrun⟩ := connectPort_of_not_isFree hlinked hfree
    rw [hrun]
    exact .refused hfree

/-- Accepting takes the session in front, or does nothing. -/
theorem step_accept (x : PortBooks) : x.Moves .accept (x.step .accept) := by
  rw [step, acceptSession_run, port_machine, Port.accept]
  cases hincoming : x.port.incoming with
  | nil => exact .unasked hincoming
  | cons e rest => exact .accepted hincoming

/-- The session in front is the one that is accepted. -/
theorem acceptSession_eq (x : PortBooks) : (acceptSession x.server x.machine).1 = x.port.incoming.head? := by
  rw [acceptSession_run, port_machine, Port.accept]
  cases x.port.incoming <;> rfl

/-- Closing the port closes it and all sessions that wait. -/
theorem step_closePort (x : PortBooks) : x.Moves .closePort (x.step .closePort) := by
  rw [step, closePort_run, port_machine, Port.close]
  cases hopen : x.port.isOpen with
  | false => exact .closedBefore hopen
  | true => exact .closed hopen _

/-- Every act is one of these moves. -/
theorem step_moves (hlinked : x.machine.clientPort x.client = x.machine.serverPort x.server) (a : PortAct) :
    x.Moves a (x.step a) := by
  cases a with
  | connect => exact step_connect hlinked
  | accept => exact step_accept x
  | closePort => exact step_closePort x
  | closeServer server =>
    rw [step]
    split
    · next hserver => exact .closes (nofun) hserver (closeServerSession_closes server x.machine)
    · exact .strange nofun
  | dropServer server =>
    rw [step]
    split
    · next hserver => exact .closes (nofun) hserver (dropServerSession_closes server x.machine)
    · exact .strange nofun

/-- When sessions are closed, the port has its places back and is otherwise the same. -/
theorem port_wanes {t : Machine} (h : Wanes (x.machine.serverPort x.server) x.machine t) :
    ∃ n ≤ x.port.sessions, { x with machine := t : PortBooks }.port = { x.port with sessions := n } := by
  obtain ⟨n, hn, hport⟩ := h.port
  exact ⟨n, hn, by rw [port, h.ends.serverPort, hport, ← port]⟩

/-- When a session was opened, the port counts it and queues it. -/
theorem port_connected {t : Machine} (h : Connects (x.machine.serverPort x.server) x.machine t) (opened : List RecordId) :
    { x with machine := t, opened : PortBooks }.port =
      { x.port with sessions := x.port.sessions + 1, incoming := x.port.incoming ++ [x.machine.nextId + 1] } := by
  rw [port, h.serverPort, h.port, ← port]

/-- Setting the port of the books leaves the logs. -/
theorem port_setPort (q : Port) (accepted : List RecordId) : { x with
    machine := (setPort (x.machine.serverPort x.server) q x.machine).2, accepted : PortBooks }.port = q :=
  (Machine.port_setPort _ _ _ _).trans (if_pos rfl)

/-- When the port is closed, the sessions that wait are closed after it. -/
theorem shutDown_wanes (x : PortBooks) : Wanes (x.machine.serverPort x.server)
    (setPort (x.machine.serverPort x.server) { x.port with isOpen := false, incoming := [] } x.machine).2 x.shutDown :=
  closeAll_wanes _ _

/-- Once a port is closed with all that waited, it is closed, nothing waits, and it has no more sessions than before. -/
theorem port_shutDown (x : PortBooks) (l : WaitList) : ∃ n ≤ x.port.sessions,
    { x with machine := (wake l x.shutDown).2 : PortBooks }.port =
      { x.port with isOpen := false, incoming := [], sessions := n } := by
  have hwanes := shutDown_wanes x
  obtain ⟨n, hn, hport⟩ := hwanes.port
  rw [Machine.port_setPort, if_pos rfl] at hn hport
  refine ⟨n, hn, ?_⟩
  rw [port, (wake_links _ _).port, (SameEnds.of_links (wake_links _ _)).serverPort, hwanes.ends.serverPort]
  exact hport

/-- Only closing the port closes it, and nothing opens it again. -/
theorem Moves.isOpen (h : x.Moves a y) : y.port.isOpen = false ↔ x.port.isOpen = false ∨ .closePort = a := by
  cases h with
  | refused => simp
  | connected hfree hc => rw [port_connected hc]; simp
  | unasked => simp
  | accepted => rw [port_setPort]; simp
  | closedBefore h => simp [h]
  | closed hopen l =>
    obtain ⟨n, -, hport⟩ := port_shutDown x l
    simp [hport]
  | strange ha => simp [ha]
  | closes ha _ hc =>
    obtain ⟨n, -, hport⟩ := port_wanes (x := x) (.of_closes hc)
    rw [hport]
    simp [ha]

/-! ## The invariant -/

/-- The books are right. -/
structure Balanced (maxSessions : Nat) (x : PortBooks) : Prop where
  linked : x.machine.clientPort x.client = x.machine.serverPort x.server
  tallies : Tallies (x.machine.serverPort x.server) x.opened x.machine
  numbered : ∀ e ∈ x.port.incoming, e < x.machine.nextId
  limit : x.port.maxSessions = maxSessions
  bounded : x.port.sessions ≤ maxSessions
  /-- What was opened was accepted, or it is queued behind that, or it was queued when the port was closed. -/
  ordered : ∃ rest, x.opened = x.accepted ++ x.queued ++ rest ∧ (x.port.isOpen = true → rest = [])
  emptied : x.port.isOpen = false → x.port.incoming = []
  shut : x.port.isOpen = false → ∀ id ∈ x.opened, id ∉ x.accepted → x.isServed id = false

/-- A new port is open and empty. -/
theorem port_start (name : String) (maxSessions : Nat) (s : Machine) :
    (start name maxSessions s).port = { name, maxSessions } := by
  change (newPort name maxSessions s).2.port ((newPort name maxSessions s).2.serverPort (s.nextId + 1)) = _
  rw [serverPort_newPort, if_pos rfl, port_newPort, if_pos rfl]

namespace Balanced

/-- The books of a new port are right. -/
theorem start (name : String) (maxSessions : Nat) (s : Machine) : (start name maxSessions s).Balanced maxSessions := by
  have hport := port_start name maxSessions s
  constructor
  case linked =>
    change (newPort name maxSessions s).2.clientPort (s.nextId + 2) = (newPort name maxSessions s).2.serverPort (s.nextId + 1)
    rw [clientPort_newPort, if_pos rfl, serverPort_newPort, if_pos rfl]
  case tallies => exact ⟨List.nodup_nil, fun _ hid => (nomatch hid), fun _ hid => (nomatch hid), congrArg Port.sessions hport⟩
  case ordered => exact ⟨[], by rw [queued, hport]; rfl, fun _ => rfl⟩
  case shut => exact fun _ _ h => nomatch h
  all_goals simp [hport]

/-- The books are right after a session was opened. -/
theorem connected {t : Machine} (h : x.Balanced maxSessions) (hfree : x.IsFree)
    (hc : Connects (x.machine.serverPort x.server) x.machine t) :
    { x with machine := t, opened := x.opened ++ [x.machine.nextId] : PortBooks }.Balanced maxSessions := by
  have hport := port_connected hc (x.opened ++ [x.machine.nextId])
  have hqueued : { x with machine := t, opened := x.opened ++ [x.machine.nextId] : PortBooks }.queued =
      x.queued ++ [x.machine.nextId] := by
    rw [queued, hport, List.map_append, List.map_singleton, hc.serverSession, if_pos rfl]
    refine congrArg (· ++ _) (List.map_congr_left fun e he => ?_)
    rw [hc.serverSession, if_neg (Nat.ne_of_lt (Nat.lt_succ_of_lt (h.numbered e he)))]
  constructor
  case linked => exact (hc.clientPort _).trans (h.linked.trans (hc.serverPort _).symm)
  case tallies => exact (hc.serverPort x.server).symm ▸ h.tallies.connects hc
  case numbered =>
    intro e he
    rw [hc.nextId]
    rw [hport] at he
    rcases List.mem_append.1 he with he | he
    · exact Nat.lt_add_right 3 (h.numbered e he)
    · rw [List.mem_singleton.1 he]
      exact Nat.add_lt_add_left (by decide) _
  case limit => exact hport ▸ h.limit
  case bounded =>
    rw [hport, ← h.limit]
    exact hfree.2
  case ordered =>
    obtain ⟨rest, heq, hrest⟩ := h.ordered
    refine ⟨[], ?_, fun _ => rfl⟩
    rw [hqueued, heq, hrest hfree.1]
    simp
  all_goals
    rw [hport]
    exact fun hclosed => nomatch hfree.1.symm.trans hclosed

/-- The books are right after one was accepted. -/
theorem accepted {e : RecordId} {rest : List RecordId} (h : x.Balanced maxSessions) (hincoming : x.port.incoming = e :: rest) :
    { x with machine := (setPort (x.machine.serverPort x.server) { x.port with incoming := rest } x.machine).2
             accepted := x.accepted ++ [x.machine.serverSession e] : PortBooks }.Balanced maxSessions := by
  have hport := x.port_setPort { x.port with incoming := rest } (x.accepted ++ [x.machine.serverSession e])
  have hqueued : x.queued = x.machine.serverSession e :: rest.map x.machine.serverSession := by
    rw [queued, hincoming, List.map_cons]
  have hopen : x.port.isOpen ≠ false := fun hclosed => nomatch (h.emptied hclosed).symm.trans hincoming
  constructor
  case linked => exact h.linked
  case tallies =>
    exact h.tallies.setPort rfl
  case numbered =>
    intro e he
    rw [hport] at he
    exact h.numbered e (hincoming ▸ List.mem_cons_of_mem _ he)
  case limit =>
    rw [hport]
    exact h.limit
  case bounded =>
    rw [hport]
    exact h.bounded
  case ordered =>
    obtain ⟨rest', heq, hrest⟩ := h.ordered
    refine ⟨rest', ?_, by rw [hport]; exact hrest⟩
    rw [queued, hport]
    change x.opened = x.accepted ++ [x.machine.serverSession e] ++ rest.map x.machine.serverSession ++ rest'
    rw [heq, hqueued]
    simp
  all_goals
    rw [hport]
    exact fun hclosed => absurd hclosed hopen

/-- Closing sessions leaves the books right if it leaves the count right. -/
theorem wanes {t : Machine} (h : x.Balanced maxSessions) (hw : Wanes (x.machine.serverPort x.server) x.machine t)
    (ht : Tallies (x.machine.serverPort x.server) x.opened t) : { x with machine := t : PortBooks }.Balanced maxSessions := by
  obtain ⟨n, hn, hport⟩ := port_wanes hw
  have hserver := hw.ends.serverPort x.server
  have hqueued : { x with machine := t : PortBooks }.queued = x.queued := by
    rw [queued, queued, hport]
    exact List.map_congr_left fun e _ => hw.ends.serverSession e
  constructor
  case linked => exact (hw.ends.clientPort _).trans (h.linked.trans hserver.symm)
  case tallies => exact hserver.symm ▸ ht
  case numbered =>
    rw [hport, hw.ends.nextId]
    exact h.numbered
  case limit => exact hport ▸ h.limit
  case bounded =>
    rw [hport]
    exact Nat.le_trans hn h.bounded
  case ordered =>
    rw [hport, hqueued]
    exact h.ordered
  case emptied => exact hport ▸ h.emptied
  case shut =>
    rw [hport]
    exact fun hclosed id hid hnot => hw.closed id (h.shut hclosed id hid hnot)

/-- Closing the port closes what is queued and leaves what was accepted. -/
theorem closed (h : x.Balanced maxSessions) (hopen : x.port.isOpen = true) (l : WaitList) :
    { x with machine := (wake l x.shutDown).2 : PortBooks }.Balanced maxSessions := by
  obtain ⟨n, hn, hport⟩ := port_shutDown x l
  obtain ⟨rest, heq, hrest⟩ := h.ordered
  rw [hrest hopen, List.append_nil] at heq
  have hwanes := shutDown_wanes x
  have hlinks := wake_links l x.shutDown
  have hends := IsTrans.trans _ _ _ hwanes.ends (.of_links hlinks)
  have hset : Tallies (x.machine.serverPort x.server) x.opened
      (setPort (x.machine.serverPort x.server) { x.port with isOpen := false, incoming := [] } x.machine).2 :=
    h.tallies.setPort rfl
  have htallies : Tallies (x.machine.serverPort x.server) x.opened x.shutDown := closeAll_tallies hset fun e he => by
    rw [heq]
    exact List.mem_append_right _ (List.mem_map_of_mem he)
  constructor
  case linked => exact (hends.clientPort _).trans (h.linked.trans (hends.serverPort _).symm)
  case tallies =>
    have hserver : (wake l x.shutDown).2.serverPort x.server = x.machine.serverPort x.server := hends.serverPort _
    exact hserver.symm ▸ htallies.of_same hlinks.nextId hlinks.session (congrArg Port.sessions (hlinks.port _))
  case numbered => exact fun e he => by rw [hport] at he; nomatch he
  case limit => exact hport ▸ h.limit
  case bounded =>
    rw [hport]
    exact Nat.le_trans hn h.bounded
  case ordered =>
    refine ⟨x.queued, ?_, fun hopen => ?_⟩
    · rw [queued, hport, List.map_nil, List.append_nil]
      exact heq
    · rw [hport] at hopen
      nomatch hopen
  case emptied => exact fun _ => by rw [hport]
  case shut =>
    intro _ id hid hnot
    have hqueued : id ∈ x.queued := (List.mem_append.1 (heq ▸ hid : id ∈ x.accepted ++ x.queued)).resolve_left hnot
    obtain ⟨e, he, rfl⟩ := List.mem_map.1 hqueued
    exact closeAll_shut x.port.incoming _ he

/-- Every act keeps the books right. -/
theorem moves (h : x.Balanced maxSessions) (hm : x.Moves a y) : y.Balanced maxSessions := by
  cases hm with
  | refused => exact h
  | connected hfree hc => exact h.connected hfree hc
  | unasked => exact h
  | accepted hincoming => exact h.accepted hincoming
  | closedBefore => exact h
  | closed hopen l => exact h.closed hopen l
  | strange => exact h
  | closes _ hserver hc => exact h.wanes (.of_closes hc) (h.tallies.closes hserver hc)

/-- The books are right after every run. -/
theorem foldl (h : x.Balanced maxSessions) (acts : List PortAct) : (acts.foldl step x).Balanced maxSessions := by
  induction acts generalizing x with
  | nil => exact h
  | cons a rest ih => exact ih (h.moves (step_moves h.linked a))

/-- A port is closed exactly if it was or some act closes it. -/
theorem isOpen_foldl (h : x.Balanced maxSessions) (acts : List PortAct) :
    (acts.foldl step x).port.isOpen = false ↔ x.port.isOpen = false ∨ .closePort ∈ acts := by
  induction acts generalizing x with
  | nil => simp
  | cons a rest ih =>
    have hm := step_moves h.linked a
    rw [List.foldl_cons, ih (h.moves hm), hm.isOpen, List.mem_cons, or_assoc]

/-- On a closed port nothing is opened and nothing is accepted. -/
theorem logs_of_closed (h : x.Balanced maxSessions) (hclosed : x.port.isOpen = false) (hm : x.Moves a y) :
    y.opened = x.opened ∧ y.accepted = x.accepted := by
  cases hm with
  | connected hfree => nomatch hfree.1.symm.trans hclosed
  | accepted hincoming => nomatch (h.emptied hclosed).symm.trans hincoming
  | _ => exact ⟨rfl, rfl⟩

/-- Once the port is closed, nothing is opened or accepted. -/
theorem logs_foldl (h : x.Balanced maxSessions) (hclosed : x.port.isOpen = false) (acts : List PortAct) :
    (acts.foldl step x).opened = x.opened ∧ (acts.foldl step x).accepted = x.accepted := by
  induction acts generalizing x with
  | nil => exact ⟨rfl, rfl⟩
  | cons a rest ih =>
    have hm := step_moves h.linked a
    have hrest := ih (h.moves hm) (hm.isOpen.2 (.inl hclosed))
    have hlogs := h.logs_of_closed hclosed hm
    exact ⟨hrest.1.trans hlogs.1, hrest.2.trans hlogs.2⟩

/-- A connection succeeds exactly if the port is open and has fewer sessions than it may. -/
theorem connectPort_isOk (h : x.Balanced maxSessions) :
    ((connectPort x.client).run x.machine).1.isOk = true ↔ x.port.isOpen = true ∧ x.port.sessions < maxSessions := by
  have hlinked := h.linked
  rw [← h.limit]
  by_cases hfree : x.IsFree
  · obtain ⟨t, hrun, -⟩ := connectPort_of_isFree hlinked hfree
    rw [hrun]
    exact ⟨fun _ => hfree, fun _ => rfl⟩
  · obtain ⟨e, hrun⟩ := connectPort_of_not_isFree hlinked hfree
    rw [hrun]
    exact ⟨fun hok => (nomatch hok), fun hfree' => absurd hfree' hfree⟩

end Balanced

/-- What a run that led to `x` promises about a port that may have `maxSessions` sessions. -/
structure Exact (maxSessions : Nat) (acts : List PortAct) (x : PortBooks) : Prop where
  /-- The count is the number of sessions opened through the port whose server side is open. -/
  counted : x.port.sessions = x.opened.countP x.isServed
  bounded : x.port.sessions ≤ maxSessions
  /-- There is a place to give back whenever one is given back. -/
  covered : ∀ id ∈ x.opened, x.isServed id = true → 0 < x.port.sessions
  connects : ((connectPort x.client).run x.machine).1.isOk = true ↔ x.port.isOpen = true ∧ x.port.sessions < maxSessions
  accepts : (acceptSession x.server x.machine).1 = x.port.incoming.head?
  /-- No session is opened twice. -/
  distinct : x.opened.Nodup
  /-- Sessions are accepted in the order in which they were opened. -/
  ordered : x.accepted <+: x.opened
  /-- No session is lost while the port is open. -/
  complete : x.port.isOpen = true → x.opened = x.accepted ++ x.queued
  closed : x.port.isOpen = false ↔ .closePort ∈ acts
  emptied : x.port.isOpen = false → x.port.incoming = []
  /-- What was queued when the port is closed is closed for good. -/
  shut : ∀ id ∈ x.queued, ∀ more : List PortAct, (more.foldl step (x.step .closePort)).isServed id = false
  /-- A closed port gives no session any more. -/
  final : x.port.isOpen = false → ∀ more : List PortAct,
    let y := more.foldl step x
    y.opened = x.opened ∧ y.accepted = x.accepted ∧ ((connectPort y.client).run y.machine).1.isOk = false ∧
      (acceptSession y.server y.machine).1 = none

/-- The accounts of a port are exact, whatever is done on it. -/
theorem port_exact (name : String) (maxSessions : Nat) (s : Machine) (acts : List PortAct) :
    (after name maxSessions s acts).Exact maxSessions acts := by
  have hstart := Balanced.start name maxSessions s
  have h : (after name maxSessions s acts).Balanced maxSessions := hstart.foldl acts
  obtain ⟨rest, hordered, hrest⟩ := h.ordered
  constructor
  case counted => exact h.tallies.counted
  case bounded => exact h.bounded
  case covered =>
    intro id hid hserved
    have hcount : (after name maxSessions s acts).port.sessions = _ := h.tallies.counted
    rw [hcount]
    exact List.countP_pos_iff.2 ⟨id, hid, hserved⟩
  case connects => exact h.connectPort_isOk
  case accepts => exact acceptSession_eq _
  case distinct => exact h.tallies.distinct
  case ordered => exact ⟨_, (hordered.trans (List.append_assoc _ _ _)).symm⟩
  case complete =>
    intro hopen
    rw [hordered, hrest hopen, List.append_nil]
  case closed =>
    rw [after, hstart.isOpen_foldl, port_start]
    simp
  case emptied => exact h.emptied
  case shut =>
    intro id hid more
    have hm := step_closePort (after name maxSessions s acts)
    have hclosed := hm.isOpen.2 (.inr rfl)
    have hlogs := (h.moves hm).logs_foldl hclosed more
    refine ((h.moves hm).foldl more).shut (((h.moves hm).isOpen_foldl more).2 (.inl hclosed)) id ?_ ?_
    · rw [hlogs.1]
      change id ∈ (after name maxSessions s acts).opened
      rw [hordered]
      exact List.mem_append_left _ (List.mem_append_right _ hid)
    · rw [hlogs.2]
      have hdistinct := h.tallies.distinct
      rw [hordered] at hdistinct
      have hapart := (List.nodup_append.1 (List.nodup_append.1 hdistinct).1).2.2
      exact fun haccepted => hapart id haccepted id hid rfl
  case final =>
    intro hclosed more
    have hmore := h.foldl more
    have hstill := (h.isOpen_foldl more).2 (.inl hclosed)
    have hlogs := h.logs_foldl hclosed more
    refine ⟨hlogs.1, hlogs.2, ?_, ?_⟩
    · rw [← Bool.not_eq_true, hmore.connectPort_isOk, hstill]
      simp
    · rw [acceptSession_eq, hmore.emptied hstill]
      rfl

/-- A port for one session: the second client is refused until the server end of the first is let go. -/
example : (after "clock" 1 default [.connect, .connect, .accept, .dropServer 4, .connect, .closePort]).opened = [3, 6] := by
  decide +kernel

end PortBooks

end Microkernel.Machine
