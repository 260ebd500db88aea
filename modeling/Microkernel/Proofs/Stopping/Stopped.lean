import Microkernel.Proofs.Machine.ProcessIds
import Microkernel.Proofs.Stopping.Invariant

/-!
# A stopped server leaves no session behind

However the thread of a server, the call that stops it and the clients take their steps: when the call has returned, every session that
was opened through the port or added after a request is closed, and nothing waits or is listed any more; every request that the server
ever took was answered by the server (`stopped_clean`). A session that was accepted and not listed when the call took the list, or that
was added later, is closed by the thread at its end; and to close a session spares the request that is being served.
-/

namespace Microkernel.Machine.Stopping

variable {id process thread p : RecordId} {s : Machine} {c : Stopping id process thread}

/-- The thread of a server has been started and has not entered its loop: the process has no other thread and is not about to end, open
sessions are listed or wait at the port, and requests that wait have no outcome. -/
structure Ready (id process thread : RecordId) (s : Machine) : Prop where
  home : (s.server id).process = process
  running : (s.process process).state = .running
  threads : (s.process process).threads = [thread]
  started : (s.thread thread).state = .started
  unasked : (s.thread thread).terminationRequested = false
  tight : (s.port (s.serverPort (s.server id).port)).isOpen = false → (s.port (s.serverPort (s.server id).port)).incoming = []
  held : ∀ session, (s.session session).port = some (s.serverPort (s.server id).port) → (s.session session).serverOpen = true →
    ∃ e ∈ s.entrusted id (s.serverPort (s.server id).port), s.serverSession e = session
  known : ∀ e ∈ s.entrusted id (s.serverPort (s.server id).port), s.knows e = true
  once : ∀ session, (s.session session).pending.Nodup
  apart : ∀ session other r, r ∈ (s.session session).pending → r ∈ (s.session other).pending → session = other
  waiting : ∀ session r, r ∈ (s.session session).pending → r < s.nextId ∧ s.outcome r = none

/-- A server that is ready stands as the ledger of the start says. -/
theorem Ready.inv (h : Ready id process thread s) : Inv (s.serverPort (s.server id).port) (start id process thread s) where
  ordered := {
    home := h.home
    door := rfl
    claimed := nofun
    tight := h.tight
    down := nofun
    emptied := nofun
    served := nofun
    placed := {
      owed := fun session howed hopen => by
        obtain hport | ⟨e, he, -⟩ := howed
        · obtain ⟨e, he, hlink⟩ := h.held session hport hopen
          exact ⟨e, List.mem_append_left _ he, hlink⟩
        · cases he
      known := fun e he => by
        rcases he with he | he | he
        · exact h.known e ((List.mem_append.1 he).resolve_right List.not_mem_nil)
        · cases he
        · cases he }
    answered := {
      once := h.once
      apart := h.apart
      waiting := fun session r hr => ⟨(h.waiting session r hr).1, List.not_mem_nil, List.not_mem_nil, .inl (h.waiting session r hr).2⟩
      numbered := fun r hr => by rcases hr with hr | hr <;> cases hr
      spared := nofun
      answered := nofun
      serving := nofun } }
  phases := {
    threads := h.threads
    alive := fun hcreated => nomatch h.running.symm.trans hcreated
    running := fun _ => h.running
    asked := fun hasked => nomatch h.unasked.symm.trans hasked
    left := nofun
    joined := nofun
    loopFits := h.started
    stopFits := trivial }

/-- What is true at the start is true behind all steps. -/
theorem Inv.run (h : Inv p c) (steps : List (Step process)) : Inv p (steps.foldl Stopping.step c) := by
  induction steps generalizing c with
  | nil => exact h
  | cons a rest ih => exact ih (h.step a)

/-! ## Requests that were taken -/

/-- The requests that were taken are those that were answered and the one that is being served. -/
theorem mem_taken {r : RecordId} : r ∈ c.ledger.taken ↔ r ∈ c.answers.map (·.1) ∨ c.request? = some r := by
  simp [ledger]

/-- A request that was taken stays so: it is being served until it is answered. -/
theorem taken_step {r : RecordId} (a : Step process) (h : r ∈ c.ledger.taken) : r ∈ (c.step a).ledger.taken := by
  obtain ⟨s, loop, stop, added, answers, givenUp⟩ := c
  rw [mem_taken] at h ⊢
  cases a with
  | stop =>
    unfold step
    dsimp only
    split <;> exact h
  | advance => exact h
  | turn =>
    have hanswers : ∀ x ∈ answers, x ∈ (turn (⟨s, loop, stop, added, answers, givenUp⟩ : Stopping id process thread)).answers := by
      intro x hx
      cases loop
      case replying => exact List.mem_append_left _ hx
      all_goals exact hx
    rcases h with h | h
    · obtain ⟨x, hx, rfl⟩ := List.mem_map.1 h
      exact .inl (List.mem_map_of_mem (hanswers x hx))
    · cases loop
      case handling => exact .inr h
      case replying entry request outcome written =>
        obtain rfl : request = r := Option.some.inj h
        exact .inl (List.mem_map_of_mem (List.mem_append_right _ (List.mem_singleton_self (request, written))))
      all_goals cases h
  | wake index =>
    refine h.imp (fun h => ?_) fun h => ?_
    · cases loop
      case waiting window =>
        cases index with
        | zero => exact h
        | succ index =>
          unfold step
          dsimp only
          split <;> exact h
      all_goals exact h
    · cases loop
      case waiting => cases h
      all_goals exact h
  | expire =>
    cases loop
    case waiting => exact h.imp_right nofun
    all_goals exact h
  | dispatched outcome written =>
    cases loop
    case handling entry request =>
      unfold step
      dsimp only
      split <;> exact h
    all_goals exact h
  | act a => exact h

/-- A request that was taken stays so behind all steps. -/
theorem taken_run {r : RecordId} (steps : List (Step process)) (h : r ∈ c.ledger.taken) :
    r ∈ (steps.foldl Stopping.step c).ledger.taken := by
  induction steps generalizing c with
  | nil => exact h
  | cons a rest ih => exact ih (taken_step a h)

/-! ## The end -/

/-- When the call that stops a server has returned, its port is closed with nothing waiting, no session is listed, every session
that was opened through the port or added is closed, and every request that the server took was answered by the server, and shows
that answer unless its client gave up on it. -/
theorem stopped_clean (id process thread : RecordId) (s : Machine) (h : Ready id process thread s) (steps : List (Step process))
    (hreturned : (after id process thread s steps).stop = .returned) :
    let p := s.serverPort (s.server id).port
    let c := after id process thread s steps
    (c.machine.port p).isOpen = false ∧ (c.machine.port p).incoming = [] ∧ (c.machine.server id).sessions = [] ∧
    (∀ session, (c.machine.session session).port = some p → (c.machine.session session).serverOpen = false) ∧
    (∀ server ∈ c.added, (c.machine.session (c.machine.serverSession server)).serverOpen = false) ∧
    ∀ before rest request, steps = before ++ rest → (after id process thread s before).request? = some request →
      ∃ result, (request, result) ∈ c.answers ∧ c.machine.Shows c.givenUp request (some result) := by
  intro p c
  have hinv : Inv p c := h.inv.run steps
  have hordered := hinv.ordered
  obtain ⟨stage, hloop⟩ := hinv.phases.behind hreturned
  have hclosed : (c.machine.port p).isOpen = false := hordered.down (congrArg StopStage.isDown hreturned)
  have hincoming := hordered.tight hclosed
  have hsessions : (c.machine.server id).sessions = [] := hordered.emptied (congrArg LoopStage.isEmptied hloop)
  -- nobody holds a server end any more, so that no session is open that somebody has to close
  have hnobody : c.machine.entrusted id p ++ c.ledger.hands = [] := by
    have hhands : c.ledger.hands = [] := by
      change c.loop.ends ++ endsOf c.stop.chores = []
      rw [hloop, hreturned]
      rfl
    rw [entrusted, hsessions, hincoming, hhands]
    rfl
  have hshut (session : RecordId) (howed : (c.machine.session session).port = some p ∨
      ∃ e ∈ c.added, c.machine.serverSession e = session) : (c.machine.session session).serverOpen = false := by
    cases hopen : (c.machine.session session).serverOpen with
    | false => rfl
    | true =>
      obtain ⟨e, he, -⟩ := hordered.placed.owed session howed hopen
      rw [hnobody] at he
      cases he
  refine ⟨hclosed, hincoming, hsessions, fun session hport => hshut session (.inl hport),
    fun server hadded => hshut _ (.inr ⟨server, hadded, rfl⟩), fun before rest request hsteps hserved => ?_⟩
  have htaken : request ∈ c.ledger.taken := by
    have hrun : c = rest.foldl Stopping.step (after id process thread s before) := by
      change List.foldl Stopping.step _ steps = _
      rw [hsteps, List.foldl_append]
      rfl
    rw [hrun]
    exact taken_run rest (mem_taken.2 (.inr hserved))
  have hanswered : request ∈ c.answers.map (·.1) := by
    refine (mem_taken.1 htaken).resolve_right fun hserving => ?_
    rw [request?, hloop] at hserving
    cases hserving
  obtain ⟨⟨request, result⟩, hanswer, rfl⟩ := List.mem_map.1 hanswered
  exact ⟨result, hanswer, (hordered.answered.answered _ hanswer).2⟩

/-- A machine with one server that has just been started. -/
def hosting : Machine :=
  let (ends, s) := newPort "echo" 4 plainSetup.machine
  ((startServer plainSetup.kernel "echo" ends.1 (.scripted []) {}).run s).2

/-- The server is stopped while it serves a request: one more session waits at its port by then, and another one is added by the
handler after the call has taken the list. -/
def interrupted : List (Step 5) := List.flatten [
  [.turn, .act (.connect 3), .turn, .wake 0, .turn, .turn, .turn, .turn, .act (.send 11 5 0), .turn, .wake 1, .turn,
    .act (.connect 3), .stop, .advance, .advance, .advance, .advance, .advance, .advance, .act .openSession,
    .dispatched { newSessions := [{ session := 18, service := 12 }] } (.ok ()), .advance, .advance, .advance, .advance, .turn,
    .turn], List.replicate 4 .advance, List.replicate 12 .turn, List.replicate 5 .advance]

/-- Nobody has opened a session yet. -/
theorem ready_hosting : Ready 4 5 8 hosting := by
  have hempty : hosting.sessions.isEmpty = true := by decide +kernel
  have hsession (session : RecordId) : hosting.session session = default := Std.TreeMap.getD_of_isEmpty hempty
  constructor
  case home | running | threads | started | unasked | tight | known => decide +kernel
  case held =>
    intro session hport
    rw [hsession] at hport
    cases hport
  case once =>
    intro session
    rw [hsession]
    exact List.nodup_nil
  case apart =>
    intro session other r hr
    rw [hsession] at hr
    cases hr
  case waiting =>
    intro session r hr
    rw [hsession] at hr
    cases hr

/-- The request is answered by the server although its session is closed while it is served, and all three sessions end closed. -/
theorem stopped_clean_interrupted : (after 4 5 8 hosting (interrupted.take 12)).request? = some 13 ∧
    (after 4 5 8 hosting interrupted).stop = .returned ∧ (after 4 5 8 hosting interrupted).added = [18] ∧
    (∀ session ∈ [9, 14, 17], ((after 4 5 8 hosting interrupted).machine.session session).serverOpen = false) ∧
    ∃ result, (13, result) ∈ (after 4 5 8 hosting interrupted).answers ∧
      (after 4 5 8 hosting interrupted).machine.Shows [] 13 (some result) := by
  have hserved : (after 4 5 8 hosting (interrupted.take 12)).request? = some 13 := by decide +kernel
  have hreturned : (after 4 5 8 hosting interrupted).stop = .returned := by decide +kernel
  obtain ⟨-, -, -, hthrough, hadded, hanswered⟩ := stopped_clean 4 5 8 hosting ready_hosting interrupted hreturned
  have hlist : (after 4 5 8 hosting interrupted).added = [18] := by decide +kernel
  have hgivenUp : (after 4 5 8 hosting interrupted).givenUp = [] := by decide +kernel
  refine ⟨hserved, hreturned, hlist, fun session hsession => ?_, ?_⟩
  · simp only [List.mem_cons, List.not_mem_nil, or_false] at hsession
    obtain rfl | rfl | rfl := hsession
    · exact hthrough 9 (by decide +kernel)
    · exact hthrough 14 (by decide +kernel)
    · have hlink : (after 4 5 8 hosting interrupted).machine.serverSession 18 = 17 := by decide +kernel
      exact hlink ▸ hadded 18 (by rw [hlist]; exact List.mem_singleton_self 18)
  · rw [← hgivenUp]
    exact hanswered (interrupted.take 12) (interrupted.drop 12) 13 (List.take_append_drop 12 interrupted).symm hserved

end Microkernel.Machine.Stopping
