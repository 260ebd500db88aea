import Microkernel.Proofs.Machine.Ports
import Microkernel.Proofs.Stopping.Stages

/-!
# Where sessions and requests are while a server is stopped

A session that was opened through the port of the server or added after a request is closed, or somebody holds its server end who will
close it (`Placed`). A request that the server took is left alone by whoever closes its session, until the server answers it
(`Answered`). Operations are told by the little that both depend on: most open no session (`Stays`), and most only take requests from
where they wait (`Answered.sheds`).
-/

namespace Microkernel.Machine

variable {p id : RecordId} {s t u : Machine}

/-! ## Sessions that are open -/

/-- No session is opened, and known ends stay the ends of their sessions. -/
structure Stays (s t : Machine) : Prop where
  nextId : s.nextId ≤ t.nextId
  link : ∀ e < s.nextId, t.serverSession e = s.serverSession e
  through : ∀ id, (t.session id).port = (s.session id).port
  closed : ∀ id, (s.session id).serverOpen = false → (t.session id).serverOpen = false

instance : IsPreorder Machine Stays where
  refl _ := ⟨Nat.le_refl _, fun _ _ => rfl, fun _ => rfl, fun _ h => h⟩
  trans _ _ _ h h' := ⟨Nat.le_trans h.nextId h'.nextId,
    fun e he => (h'.link e (Nat.lt_of_lt_of_le he h.nextId)).trans (h.link e he), fun id => (h'.through id).trans (h.through id),
    fun id hid => h'.closed id (h.closed id hid)⟩

namespace Stays

theorem trans (h : Stays s t) (h' : Stays t u) : Stays s u := IsTrans.trans _ _ _ h h'

/-- What opens and closes nothing. -/
theorem of_eq (hnext : s.nextId ≤ t.nextId) (hsessions : t.sessions = s.sessions) (hends : t.serverSessions = s.serverSessions) :
    Stays s t where
  nextId := hnext
  link e _ := by rw [serverSession, hends, ← serverSession]
  through id := by rw [session, hsessions, ← session]
  closed id hid := by rwa [session, hsessions, ← session]

/-- Where the desk is the same no session is opened. -/
theorem of_desk (h : SameDesk s t) : Stays s t := of_eq h.nextId h.sessions h.serverSessions

/-- Where links are the same no session is opened. -/
theorem of_links (h : SameLinks s t) : Stays s t := of_eq (Nat.le_of_eq h.nextId.symm) h.sessions h.serverSessions

/-- Setting a server opens no session. -/
theorem setServer (id : RecordId) (x : Server) (s : Machine) : Stays s (Machine.setServer id x s).2 :=
  of_eq (Nat.le_refl _) rfl rfl

/-- Setting a session opens none, if it keeps its port and a closed server side. -/
theorem setSession {x : Session} (hport : x.port = (s.session id).port)
    (hclosed : (s.session id).serverOpen = false → x.serverOpen = false) : Stays s (Machine.setSession id x s).2 where
  nextId := Nat.le_refl _
  link _ _ := rfl
  through other := by
    rw [session_setSession]
    split
    · next heq => rw [heq, hport]
    · rfl
  closed other hother := by
    rw [session_setSession]
    split
    · next heq => exact hclosed (heq ▸ hother)
    · exact hother

/-- Setting a port opens no session. -/
theorem setPort (id : RecordId) (x : Port) (s : Machine) : Stays s (Machine.setPort id x s).2 :=
  of_eq (Nat.le_refl _) rfl rfl

end Stays

/-- Closing a server end opens no session. -/
theorem closeServerSession_stays (server : RecordId) : Keeps Stays (closeServerSession server) := by
  intro s
  have hcloses := closeServerSession_closes server s
  refine ⟨Nat.le_of_eq hcloses.ends.nextId.symm, fun e _ => hcloses.ends.serverSession e, hcloses.through, fun id hid => ?_⟩
  by_cases heq : id = s.serverSession server
  · rw [heq]
    exact hcloses.shut
  · rw [hcloses.others id heq]
    exact hid

theorem completeRequest_stays (request : RecordId) (result : Except KernelError Unit) : Keeps Stays (completeRequest request result) :=
  fun s => .of_links (completeRequest_links request result s)

theorem wake_stays (l : WaitList) : Keeps Stays (wake l) := fun s => .of_links (wake_links l s)

/-- Closing a client end opens no session. -/
theorem closeClientSession_stays (client : RecordId) : Keeps Stays (closeClientSession client) := by
  intro s
  rw [closeClientSession_run, Session.closeClient]
  cases (s.session (s.clientSession client)).clientOpen with
  | true =>
    refine .trans (.setSession ?_ fun h => ?_) (wake_stays _ _)
    · rfl
    · exact h
  | false => exact refl s

/-- Receiving a request opens no session. -/
theorem receiveRequest_stays (server : RecordId) : Keeps Stays (receiveRequest server) := by
  intro s
  rw [receiveRequest_run]
  split
  · next heq =>
    obtain ⟨-, -, rest, -, rfl⟩ := Session.receive_eq_some heq
    refine .setSession ?_ fun h => h
    rfl
  · exact refl s

/-- Answering a request opens no session. -/
theorem reply_stays (server : RecordId) (result : Except KernelError Unit) : Keeps Stays (reply server result).run := by
  intro s
  rw [reply_run]
  split
  · next heq =>
    obtain ⟨-, rfl⟩ := Session.finish_eq_some heq
    refine .trans (.setSession ?_ fun h => ?_) (completeRequest_stays _ _ _)
    · rfl
    · exact h
  · exact refl s

/-- Sending a request opens no session. -/
theorem sendRequest_stays (client request : RecordId) : Keeps Stays (sendRequest client request).run := by
  intro s
  rw [sendRequest_run]
  cases hopen : (s.session (s.clientSession client)).serverOpen && (s.session (s.clientSession client)).clientOpen with
  | true =>
    rw [Session.send_of_open hopen]
    refine .trans (.setSession ?_ fun h => ?_) (wake_stays _ _)
    · rfl
    · exact h
  | false =>
    obtain ⟨e, hsend⟩ := Session.send_of_closed hopen request
    rw [hsend]
    exact refl s

/-! ## Who holds a server end -/

/-- An end that is known stays known while no session is opened. -/
theorem Stays.knows {e : RecordId} (h : Stays s t) (he : s.knows e = true) : t.knows e = true := by
  obtain ⟨hend, hsession⟩ := Bool.and_eq_true_iff.1 he
  have hend := of_decide_eq_true hend
  rw [Machine.knows, h.link e hend]
  have hnext := h.nextId
  exact Bool.and_eq_true_iff.2 ⟨decide_eq_true (Nat.lt_of_lt_of_le hend hnext),
    decide_eq_true (Nat.lt_of_lt_of_le (of_decide_eq_true hsession) hnext)⟩

/-- Every open session that was opened through a port, or added, has its server end in the hands of somebody who will close it. Ends
that are held, were added or are seen were made before. -/
structure Placed (p : RecordId) (s : Machine) (held added seen : List RecordId) : Prop where
  owed : ∀ id, (s.session id).port = some p ∨ (∃ e ∈ added, s.serverSession e = id) → (s.session id).serverOpen = true →
    ∃ e ∈ held, s.serverSession e = id
  known : ∀ e, e ∈ held ∨ e ∈ added ∨ e ∈ seen → s.knows e = true

namespace Placed

variable {held held' added added' seen seen' : List RecordId}

/-- Ends that are in somebody's hands, were added or are seen keep their sessions while none is opened. -/
theorem link (h : Placed p s held added seen) (ht : Stays s t) {e : RecordId} (he : e ∈ held ∨ e ∈ added ∨ e ∈ seen) :
    t.serverSession e = s.serverSession e :=
  ht.link e (of_decide_eq_true (Bool.and_eq_true_iff.1 (h.known e he)).1)

/-- An end may leave the hands of whoever holds it if its session is closed; an end that is added is held. -/
theorem stays (h : Placed p s held added seen) (ht : Stays s t)
    (hleft : ∀ e ∈ held, e ∈ held' ∨ (t.session (t.serverSession e)).serverOpen = false)
    (hadded : ∀ e ∈ added', e ∈ added ∨ e ∈ held')
    (hknown : ∀ e, e ∈ held' ∨ e ∈ seen' → (e ∈ held ∨ e ∈ added ∨ e ∈ seen) ∨ t.knows e = true) :
    Placed p t held' added' seen' where
  owed id howed hopen := by
    have hbefore (howed : (s.session id).port = some p ∨ ∃ e ∈ added, s.serverSession e = id) :
        ∃ e ∈ held', t.serverSession e = id := by
      have hopen' : (s.session id).serverOpen = true := by
        cases hclosed : (s.session id).serverOpen with
        | true => rfl
        | false => rw [ht.closed id hclosed] at hopen; exact hopen
      obtain ⟨e, he, rfl⟩ := h.owed id howed hopen'
      have hlink := h.link ht (.inl he)
      rcases hleft e he with he' | hclosed
      · exact ⟨e, he', hlink⟩
      · rw [hlink, hopen] at hclosed
        cases hclosed
    rcases howed with hthrough | ⟨e, he, hlink⟩
    · exact hbefore (.inl ((ht.through id).symm.trans hthrough))
    · rcases hadded e he with he' | he'
      · exact hbefore (.inr ⟨e, he', (h.link ht (.inr (.inl he'))).symm.trans hlink⟩)
      · exact ⟨e, he', hlink⟩
  known e he := by
    have hold (he : e ∈ held ∨ e ∈ added ∨ e ∈ seen) : t.knows e = true := ht.knows (h.known e he)
    rcases he with he | he | he
    · exact (hknown e (.inl he)).elim hold fun h => h
    · rcases hadded e he with he' | he'
      · exact hold (.inr (.inl he'))
      · exact (hknown e (.inl he')).elim hold fun h => h
    · exact (hknown e (.inr he)).elim hold fun h => h

/-- A new session is held if it goes through the port. -/
theorem opens (h : Placed p s held added seen) {port : Option RecordId} (hnext : t.nextId = s.nextId + 3)
    (hlink : ∀ e, t.serverSession e = if e = s.nextId + 1 then s.nextId else s.serverSession e)
    (hsession : ∀ id, t.session id = if id = s.nextId then { port } else s.session id)
    (hheld : ∀ e ∈ held, e ∈ held') (hnew : port = some p → s.nextId + 1 ∈ held')
    (hheld' : ∀ e ∈ held', e ∈ held ∨ e = s.nextId + 1) : Placed p t held' added seen where
  owed id howed hopen := by
    have hold {e : RecordId} (he : e ∈ held ∨ e ∈ added ∨ e ∈ seen) :
        t.serverSession e = s.serverSession e ∧ s.serverSession e ≠ s.nextId := by
      obtain ⟨hend, hlt⟩ := Bool.and_eq_true_iff.1 (h.known e he)
      have hend := of_decide_eq_true hend
      rw [hlink, if_neg (Nat.ne_of_lt (Nat.lt_succ_of_lt hend))]
      exact ⟨rfl, Nat.ne_of_lt (of_decide_eq_true hlt)⟩
    by_cases hid : id = s.nextId
    · subst hid
      rw [hsession, if_pos rfl] at howed
      rcases howed with hport | ⟨e, he, heq⟩
      · exact ⟨s.nextId + 1, hnew hport, by rw [hlink, if_pos rfl]⟩
      · obtain ⟨hsame, hne⟩ := hold (.inr (.inl he))
        exact absurd (hsame.symm.trans heq) hne
    · rw [hsession, if_neg hid] at howed hopen
      obtain ⟨e, he, heq⟩ := h.owed id (howed.imp_right fun ⟨e, he, heq⟩ => ⟨e, he, (hold (.inr (.inl he))).1.symm.trans heq⟩) hopen
      exact ⟨e, hheld e he, (hold (.inl he)).1.trans heq⟩
  known e he := by
    have hknown (he : s.knows e = true) : t.knows e = true := by
      obtain ⟨hend, hlt⟩ := Bool.and_eq_true_iff.1 he
      have hend := of_decide_eq_true hend
      have hlt := of_decide_eq_true hlt
      rw [Machine.knows, hlink, hnext, if_neg (Nat.ne_of_lt (Nat.lt_succ_of_lt hend))]
      exact Bool.and_eq_true_iff.2 ⟨decide_eq_true (Nat.lt_add_right 3 hend), decide_eq_true (Nat.lt_add_right 3 hlt)⟩
    rcases he with he | he | he
    · rcases hheld' e he with he | rfl
      · exact hknown (h.known e (.inl he))
      · rw [Machine.knows, hlink, hnext, if_pos rfl]
        simp
    · exact hknown (h.known e (.inr (.inl he)))
    · exact hknown (h.known e (.inr (.inr he)))

end Placed

/-! ## Who answers a request -/

/-- Requests wait where they waited, and nothing becomes of them. -/
structure Hushed (s t : Machine) : Prop where
  pending : ∀ id, (t.session id).pending = (s.session id).pending
  current : ∀ id, (t.session id).current = (s.session id).current
  outcome : ∀ r, t.outcome r = s.outcome r

/-- What became of a request; or its client gave up on it before that could be. -/
def Shows (s : Machine) (givenUp : List RecordId) (r : RecordId) (o : Option (Except KernelError Unit)) : Prop :=
  s.outcome r = o ∨ r ∈ givenUp ∧ s.outcome r = some (.error .terminationRequested)

/-- What became of a request shows as long as its outcome stands. -/
theorem Shows.of_outcome {givenUp : List RecordId} {r : RecordId} {o : Option (Except KernelError Unit)} (h : s.Shows givenUp r o)
    (ht : t.outcome r = s.outcome r) : t.Shows givenUp r o := by
  rwa [Shows, ht]

/-- No request waits twice or has been dealt with before. A request that the server took has no outcome until it is answered, and then
its answer, if its client did not give up on it; the one being served is the current one of its session. -/
structure Answered (s : Machine) (failing taken givenUp : List RecordId) (answers : List (RecordId × Except KernelError Unit))
    (serving : Option (RecordId × RecordId)) : Prop where
  once : ∀ id, (s.session id).pending.Nodup
  apart : ∀ id other r, r ∈ (s.session id).pending → r ∈ (s.session other).pending → id = other
  waiting : ∀ id r, r ∈ (s.session id).pending → r < s.nextId ∧ r ∉ taken ∧ r ∉ failing ∧ s.Shows givenUp r none
  numbered : ∀ r, r ∈ taken ∨ r ∈ failing → r < s.nextId
  spared : ∀ r ∈ failing, r ∉ taken
  answered : ∀ x ∈ answers, x.1 ∈ taken ∧ s.Shows givenUp x.1 (some x.2)
  serving : ∀ e r, serving = some (e, r) →
    r ∈ taken ∧ (s.session (s.serverSession e)).current = some r ∧ s.Shows givenUp r none

/-- Receiving takes the first request from where it waits, and changes nothing else of sessions and outcomes. -/
theorem of_receiveRequest {server request : RecordId} (h : receiveRequest server s = (some request, t)) :
    ∃ rest, (s.session (s.serverSession server)).pending = request :: rest ∧ SameEnds s t ∧ (∀ r, t.outcome r = s.outcome r) ∧
      ∀ id, t.session id = if id = s.serverSession server then { s.session id with pending := rest, current := some request }
        else s.session id := by
  have hends : SameEnds s t := by simpa [h] using receiveRequest_ends server s
  rw [receiveRequest_run] at h
  split at h
  · next heq =>
    obtain ⟨hrequest, rfl⟩ := Prod.mk.inj h
    obtain rfl := (Option.some.inj hrequest).symm
    obtain ⟨-, -, rest, hpending, rfl⟩ := Session.receive_eq_some heq
    refine ⟨rest, hpending, hends, fun _ => rfl, fun id => ?_⟩
    rw [session_setSession]
    split
    · next heq => rw [heq]
    · rfl
  · cases h

/-- A new request, sent or not: it has no outcome, and it may wait at the end of the queue of one session. -/
theorem send_cases (process client sender : RecordId) (address : Nat) (s : Machine) :
    let t := (Act.send client sender address : Act process).run s
    t.nextId = s.nextId + 1 ∧ Stays s t ∧ (∀ e, t.serverSession e = s.serverSession e) ∧
      (∀ r, t.outcome r = if r = s.nextId then none else s.outcome r) ∧ ((∀ id, t.session id = s.session id) ∨
        ∃ queue, ∀ id, t.session id =
          if id = queue then { s.session id with pending := (s.session id).pending ++ [s.nextId] } else s.session id) := by
  let made := (newRequest sender address s).2
  have houtcome (r : RecordId) : made.outcome r = if r = s.nextId then none else s.outcome r := outcome_setRequest _ _ _ _
  have hstays : Stays s made := .of_eq (Nat.le_succ _) rfl rfl
  have hrun : (Act.send client sender address : Act process).run s = ((sendRequest client s.nextId).run made).2 := rfl
  have hall := sendRequest_stays client s.nextId made
  have hends := sendRequest_ends client s.nextId made
  dsimp only
  rw [hrun]
  refine ⟨hends.nextId, hstays.trans hall, hends.serverSession, ?_⟩
  rw [sendRequest_run]
  cases hopen : (made.session (made.clientSession client)).serverOpen && (made.session (made.clientSession client)).clientOpen with
  | true =>
    rw [Session.send_of_open hopen]
    refine ⟨houtcome, .inr ⟨made.clientSession client, fun id => ?_⟩⟩
    dsimp only
    rw [(wake_links _ _).session, session_setSession]
    split
    · next heq => rw [heq]; rfl
    · rfl
  | false =>
    obtain ⟨e, hsend⟩ := Session.send_of_closed hopen s.nextId
    rw [hsend]
    exact ⟨houtcome, .inl fun _ => rfl⟩

namespace Answered

variable {failing failing' taken givenUp : List RecordId} {answers : List (RecordId × Except KernelError Unit)}
  {serving : Option (RecordId × RecordId)}

/-- Requests may be taken from where they wait, to fail or to be failed at once. -/
theorem sheds (h : Answered s failing taken givenUp answers serving) (hnext : s.nextId ≤ t.nextId)
    (hpending : ∀ id, ((t.session id).pending).Sublist (s.session id).pending)
    (hfailing : ∀ r ∈ failing', r ∈ failing ∨ (∃ id, r ∈ (s.session id).pending) ∧ ∀ id, r ∉ (t.session id).pending)
    (houtcome : ∀ r, r ∈ taken ∨ (∃ id, r ∈ (t.session id).pending) → t.outcome r = s.outcome r)
    (hserving : ∀ e r, serving = some (e, r) →
      (t.session (t.serverSession e)).current = (s.session (s.serverSession e)).current) :
    Answered t failing' taken givenUp answers serving := by
  have hnew {r : RecordId} (hr : r ∈ failing') : r < s.nextId ∧ r ∉ taken ∧ (∀ id, r ∈ (t.session id).pending → r ∈ failing) := by
    rcases hfailing r hr with hr' | ⟨⟨id, hid⟩, hgone⟩
    · exact ⟨h.numbered r (.inr hr'), h.spared r hr', fun _ _ => hr'⟩
    · obtain ⟨hlt, htaken, -, -⟩ := h.waiting id r hid
      exact ⟨hlt, htaken, fun other hother => absurd hother (hgone other)⟩
  constructor
  case once => exact fun id => (h.once id).sublist (hpending id)
  case apart => exact fun id other r hr hr' => h.apart id other r ((hpending id).subset hr) ((hpending other).subset hr')
  case waiting =>
    intro id r hr
    obtain ⟨hlt, htaken, hfails, hnone⟩ := h.waiting id r ((hpending id).subset hr)
    exact ⟨Nat.lt_of_lt_of_le hlt hnext, htaken, fun hr' => hfails ((hnew hr').2.2 id hr), hnone.of_outcome (houtcome r (.inr ⟨id, hr⟩))⟩
  case numbered =>
    intro r hr
    refine Nat.lt_of_lt_of_le ?_ hnext
    exact hr.elim (fun hr => h.numbered r (.inl hr)) fun hr => (hnew hr).1
  case spared => exact fun r hr => (hnew hr).2.1
  case answered =>
    intro x hx
    obtain ⟨htaken, hanswer⟩ := h.answered x hx
    exact ⟨htaken, hanswer.of_outcome (houtcome _ (.inl htaken))⟩
  case serving =>
    intro e r hr
    obtain ⟨htaken, hcurrent, hnone⟩ := h.serving e r hr
    exact ⟨htaken, (hserving e r hr).trans hcurrent, hnone.of_outcome (houtcome r (.inl htaken))⟩

/-- Requests stay answered while they are hushed. -/
theorem hushed (h : Answered s failing taken givenUp answers serving) (ht : Hushed s t) (hnext : s.nextId ≤ t.nextId)
    (hfailing : ∀ r ∈ failing', r ∈ failing) (hlink : ∀ e r, serving = some (e, r) → t.serverSession e = s.serverSession e) :
    Answered t failing' taken givenUp answers serving := by
  refine h.sheds hnext (fun id => ?_) (fun r hr => .inl (hfailing r hr)) (fun r _ => ht.outcome r) fun e r hr => ?_
  · exact ht.pending id ▸ .refl _
  · rw [ht.current, hlink e r hr]

/-- What a closed session loses of its queue. -/
theorem pending_shut (x : Session) : x.shut.pending.Sublist x.pending ∧ ∀ r ∈ x.failing, r ∈ x.pending ∧ r ∉ x.shut.pending := by
  unfold Session.shut Session.failing
  cases x.serverOpen with
  | true => exact ⟨List.nil_sublist _, fun r hr => ⟨hr, List.not_mem_nil⟩⟩
  | false => exact ⟨.refl _, fun r hr => nomatch hr⟩

/-- A session is shut. What fails for it waits nowhere any more. -/
theorem shuts (h : Answered s failing taken givenUp answers serving) (hnext : s.nextId ≤ t.nextId) (id : RecordId)
    (hsession : ∀ other, t.session other = if other = id then (s.session other).shut else s.session other)
    (houtcome : ∀ r, r ∉ (s.session id).failing → t.outcome r = s.outcome r)
    (hfailing : ∀ r ∈ failing', r ∈ failing ∨ r ∈ (s.session id).failing)
    (hlink : ∀ e r, serving = some (e, r) → t.serverSession e = s.serverSession e) :
    Answered t failing' taken givenUp answers serving := by
  have hpending (other : RecordId) : (t.session other).pending.Sublist (s.session other).pending := by
    rw [hsession]
    split
    · exact (pending_shut _).1
    · exact .refl _
  have hgone {r : RecordId} (hr : r ∈ (s.session id).failing) (other : RecordId) : r ∉ (t.session other).pending := by
    obtain ⟨hwaits, hshut⟩ := (pending_shut _).2 r hr
    rw [hsession]
    split
    · next heq => exact heq ▸ hshut
    · next hne => exact fun hr' => hne (h.apart _ _ r hr' hwaits)
  refine h.sheds hnext hpending (fun r hr => ?_) (fun r hr => houtcome r fun hr' => ?_) fun e r hr => ?_
  · exact (hfailing r hr).imp_right fun hr => ⟨⟨id, ((pending_shut _).2 r hr).1⟩, hgone hr⟩
  · rcases hr with htaken | ⟨other, hother⟩
    · exact (h.waiting id r ((pending_shut _).2 r hr').1).2.1 htaken
    · exact hgone hr' other hother
  · rw [hlink e r hr, hsession]
    split <;> rfl

/-- Requests stay answered when a server end is closed: what waits there fails later. -/
theorem closeServer (h : Answered s failing taken givenUp answers serving) (server : RecordId) :
    Answered (closeServerSession server s).2 failing taken givenUp answers serving := by
  have hends := closeServerSession_ends server s
  refine h.shuts (Nat.le_of_eq hends.nextId.symm) _ (session_closeServerSession server s) (fun r hr => ?_) (fun r hr => .inl hr)
    fun e r _ => hends.serverSession e
  rw [outcome_closeServerSession, if_neg hr]

/-- One of the requests that were to fail has failed. -/
theorem fails (h : Answered s failing taken givenUp answers serving) {request : RecordId} (hrequest : request ∈ failing)
    (result : Except KernelError Unit) (hfailing : ∀ r ∈ failing', r ∈ failing) :
    Answered (completeRequest request result s).2 failing' taken givenUp answers serving := by
  have hlinks := completeRequest_links request result s
  refine h.sheds (Nat.le_of_eq hlinks.nextId.symm) (fun id => ?_) (fun r hr => .inl (hfailing r hr)) (fun r hr => ?_) fun e r hr => ?_
  · exact hlinks.session id ▸ .refl _
  · rw [outcome_completeRequest, if_neg]
    rintro rfl
    rcases hr with htaken | ⟨id, hid⟩
    · exact h.spared r hrequest htaken
    · rw [hlinks.session] at hid
      exact (h.waiting id r hid).2.2.1 hrequest
  · rw [hlinks.session, (SameEnds.of_links hlinks).serverSession]

/-- Requests stay answered when a session is opened. -/
theorem opens (h : Answered s failing taken givenUp answers serving) {port : Option RecordId} (hnext : s.nextId ≤ t.nextId)
    (hsession : ∀ id, t.session id = if id = s.nextId then { port } else s.session id) (houtcome : ∀ r, t.outcome r = s.outcome r)
    (hlink : ∀ e r, serving = some (e, r) → t.serverSession e = s.serverSession e ∧ s.serverSession e ≠ s.nextId) :
    Answered t failing taken givenUp answers serving := by
  refine h.sheds hnext (fun id => ?_) (fun r hr => .inl hr) (fun r _ => houtcome r) fun e r hr => ?_
  · rw [hsession]
    split
    · exact List.nil_sublist _
    · exact .refl _
  · obtain ⟨hsame, hne⟩ := hlink e r hr
    rw [hsame, hsession, if_neg hne]

/-- Requests stay answered when a client gives up on one. -/
theorem givesUp (h : Answered s failing taken givenUp answers serving) (request : RecordId) :
    Answered (completeRequest request (.error .terminationRequested) s).2 failing taken (givenUp ++ [request]) answers serving := by
  have hlinks := completeRequest_links request (.error .terminationRequested) s
  have hkept {r : RecordId} {o : Option (Except KernelError Unit)} (hr : s.Shows givenUp r o) :
      (completeRequest request (.error .terminationRequested) s).2.Shows (givenUp ++ [request]) r o := by
    rw [Shows, outcome_completeRequest, List.mem_append, List.mem_singleton]
    by_cases heq : r = request
    · subst heq
      rw [if_pos rfl]
      rcases hr with hr | ⟨-, hr⟩
      · rw [hr]
        cases o with
        | none => exact .inr ⟨.inr rfl, rfl⟩
        | some result => exact .inl rfl
      · rw [hr]
        exact .inr ⟨.inr rfl, rfl⟩
    · rw [if_neg heq]
      exact hr.imp_right (And.imp_left .inl)
  have hsession := hlinks.session
  constructor
  case once => exact fun id => hsession id ▸ h.once id
  case apart =>
    intro id other r hr hr'
    rw [hsession] at hr hr'
    exact h.apart id other r hr hr'
  case waiting =>
    intro id r hr
    rw [hsession] at hr
    obtain ⟨hlt, htaken, hfails, hnone⟩ := h.waiting id r hr
    exact ⟨hlinks.nextId ▸ hlt, htaken, hfails, hkept hnone⟩
  case numbered => exact fun r hr => hlinks.nextId ▸ h.numbered r hr
  case spared => exact h.spared
  case answered => exact fun x hx => (h.answered x hx).imp_right hkept
  case serving =>
    intro e r hr
    obtain ⟨htaken, hcurrent, hnone⟩ := h.serving e r hr
    rw [hsession, (SameEnds.of_links hlinks).serverSession]
    exact ⟨htaken, hcurrent, hkept hnone⟩

/-- Requests stay answered when one is sent, which nobody has dealt with. -/
theorem sends {process : RecordId} (h : Answered s failing taken givenUp answers serving) (client sender : RecordId) (address : Nat) :
    Answered ((Act.send client sender address : Act process).run s) failing taken givenUp answers serving := by
  obtain ⟨hnext, -, hlink, houtcome, hsession⟩ := send_cases process client sender address s
  generalize (Act.send client sender address : Act process).run s = t at *
  have hold {r : RecordId} (hr : r < s.nextId) : t.outcome r = s.outcome r := by rw [houtcome, if_neg (Nat.ne_of_lt hr)]
  have hcurrent (id : RecordId) : (t.session id).current = (s.session id).current := by
    rcases hsession with hsame | ⟨queue, hqueue⟩
    · rw [hsame]
    · rw [hqueue]
      split <;> rfl
  -- what waits waited before, or is the new request and waits in one place
  have hpending (id : RecordId) : (t.session id).pending = (s.session id).pending ∨
      (t.session id).pending = (s.session id).pending ++ [s.nextId] := by
    rcases hsession with hsame | ⟨queue, hqueue⟩
    · exact .inl (by rw [hsame])
    · rw [hqueue]
      split
      · exact .inr rfl
      · exact .inl rfl
  have hnew {id : RecordId} (hr : s.nextId ∈ (s.session id).pending) : False := Nat.lt_irrefl _ (h.waiting id _ hr).1
  have hwaits {id r : RecordId} (hr : r ∈ (t.session id).pending) : r ∈ (s.session id).pending ∨ r = s.nextId := by
    rcases hpending id with hsame | hmore
    · exact .inl (hsame ▸ hr)
    · rw [hmore] at hr
      exact (List.mem_append.1 hr).imp_right List.mem_singleton.1
  constructor
  case once =>
    intro id
    rcases hpending id with hsame | hmore
    · rw [hsame]
      exact h.once id
    · rw [hmore]
      exact List.nodup_append.2 ⟨h.once id, List.pairwise_singleton _ _, fun a ha b hb hab =>
        hnew (List.mem_singleton.1 hb ▸ hab ▸ ha)⟩
  case apart =>
    intro id other r hr hr'
    rcases hwaits hr with hr₁ | rfl
    · rcases hwaits hr' with hr₂ | rfl
      · exact h.apart id other r hr₁ hr₂
      · exact (hnew hr₁).elim
    · rcases hsession with hsame | ⟨queue, hqueue⟩
      · rw [hsame] at hr
        exact (hnew hr).elim
      · rw [hqueue] at hr hr'
        have hat {id : RecordId} (hr : s.nextId ∈ (if id = queue then
            { s.session id with pending := (s.session id).pending ++ [s.nextId] } else s.session id : Session).pending) : id = queue := by
          split at hr
          · assumption
          · exact (hnew hr).elim
        exact (hat hr).trans (hat hr').symm
  case waiting =>
    intro id r hr
    rcases hwaits hr with hr | rfl
    · obtain ⟨hlt, htaken, hfails, hnone⟩ := h.waiting id r hr
      exact ⟨hnext ▸ Nat.lt_succ_of_lt hlt, htaken, hfails, hnone.of_outcome (hold hlt)⟩
    · refine ⟨hnext ▸ Nat.lt_succ_self _, fun hr' => ?_, fun hr' => ?_, .inl (by rw [houtcome, if_pos rfl])⟩
      · exact Nat.lt_irrefl _ (h.numbered _ (.inl hr'))
      · exact Nat.lt_irrefl _ (h.numbered _ (.inr hr'))
  case numbered => exact fun r hr => hnext ▸ Nat.lt_succ_of_lt (h.numbered r hr)
  case spared => exact h.spared
  case answered =>
    intro x hx
    obtain ⟨htaken, hanswer⟩ := h.answered x hx
    exact ⟨htaken, hanswer.of_outcome (hold (h.numbered _ (.inl htaken)))⟩
  case serving =>
    intro e r hr
    obtain ⟨htaken, hserved, hnone⟩ := h.serving e r hr
    rw [hlink, hcurrent]
    exact ⟨htaken, hserved, hnone.of_outcome (hold (h.numbered _ (.inl htaken)))⟩

/-- The oldest request of a session is taken. -/
theorem receives (h : Answered s failing taken givenUp answers none) {server request : RecordId}
    (hrun : receiveRequest server s = (some request, t)) :
    Answered t failing (taken ++ [request]) givenUp answers (some (server, request)) := by
  obtain ⟨rest, hpending, hends, houtcome, hsession⟩ := of_receiveRequest hrun
  have hlink := hends.serverSession server
  generalize s.serverSession server = session at hpending hsession hlink
  obtain ⟨hlt, htaken, hfails, hnone⟩ := h.waiting session request (hpending ▸ List.mem_cons_self)
  have hsub (id : RecordId) : (t.session id).pending.Sublist (s.session id).pending := by
    rw [hsession]
    split
    · next heq => exact heq ▸ hpending ▸ List.sublist_cons_self _ _
    · exact .refl _
  constructor
  case once => exact fun id => (h.once id).sublist (hsub id)
  case apart => exact fun id other r hr hr' => h.apart id other r ((hsub id).subset hr) ((hsub other).subset hr')
  case waiting =>
    intro id r hr
    obtain ⟨hlt', htaken', hfails', hnone'⟩ := h.waiting id r ((hsub id).subset hr)
    rw [hends.nextId]
    refine ⟨hlt', fun hr' => ?_, hfails', hnone'.of_outcome (houtcome r)⟩
    rcases List.mem_append.1 hr' with hr' | hr'
    · exact htaken' hr'
    · obtain rfl := List.mem_singleton.1 hr'
      obtain rfl := h.apart id session r ((hsub id).subset hr) (hpending ▸ List.mem_cons_self)
      rw [hsession, if_pos rfl] at hr
      have hnodup := h.once id
      rw [hpending] at hnodup
      exact (List.nodup_cons.1 hnodup).1 hr
  case numbered =>
    intro r hr
    rw [hends.nextId]
    rcases hr with hr | hr
    · rcases List.mem_append.1 hr with hr | hr
      · exact h.numbered r (.inl hr)
      · exact List.mem_singleton.1 hr ▸ hlt
    · exact h.numbered r (.inr hr)
  case spared =>
    intro r hr hr'
    rcases List.mem_append.1 hr' with hr' | hr'
    · exact h.spared r hr hr'
    · exact hfails (List.mem_singleton.1 hr' ▸ hr)
  case answered =>
    exact fun x hx => (h.answered x hx).imp (List.mem_append_left _) fun hanswer => hanswer.of_outcome (houtcome _)
  case serving =>
    intro e r hr
    obtain ⟨rfl, rfl⟩ := Prod.mk.inj (Option.some.inj hr)
    rw [hlink, hsession, if_pos rfl]
    exact ⟨List.mem_append_right _ (List.mem_singleton_self _), rfl, hnone.of_outcome (houtcome _)⟩

/-- The request being served is answered. -/
theorem replies {server request : RecordId} (h : Answered s failing taken givenUp answers (some (server, request)))
    (result : Except KernelError Unit) :
    Answered ((reply server result).run s).2 failing taken givenUp (answers ++ [(request, result)]) none := by
  obtain ⟨htaken, hcurrent, hnone⟩ := h.serving server request rfl
  have hends := reply_ends server result s
  have houtcome (r : RecordId) : ((reply server result).run s).2.outcome r =
      if r = request then some ((s.outcome request).getD result) else s.outcome r := by
    rw [reply_run, Session.finish, hcurrent]
    exact outcome_completeRequest _ _ _ _
  have hpending (id : RecordId) : (((reply server result).run s).2.session id).pending = (s.session id).pending := by
    rw [session_reply]
    split <;> rfl
  constructor
  case once => exact fun id => hpending id ▸ h.once id
  case apart =>
    intro id other r hr hr'
    rw [hpending] at hr hr'
    exact h.apart id other r hr hr'
  case waiting =>
    intro id r hr
    rw [hpending] at hr
    obtain ⟨hlt, htaken', hfails, hnone'⟩ := h.waiting id r hr
    have hne : r ≠ request := by
      rintro rfl
      exact htaken' htaken
    exact ⟨hends.nextId ▸ hlt, htaken', hfails, hnone'.of_outcome ((houtcome r).trans (if_neg hne))⟩
  case numbered => exact fun r hr => hends.nextId ▸ h.numbered r hr
  case spared => exact h.spared
  case answered =>
    intro x hx
    rcases List.mem_append.1 hx with hx | hx
    · obtain ⟨htaken', hanswer⟩ := h.answered x hx
      refine ⟨htaken', hanswer.of_outcome ?_⟩
      rw [houtcome]
      split
      · next heq =>
        rw [← heq]
        rcases hanswer with hanswer | ⟨-, hanswer⟩ <;> rw [hanswer, Option.getD_some]
      · rfl
    · obtain rfl := List.mem_singleton.1 hx
      refine ⟨htaken, ?_⟩
      rw [Shows, houtcome, if_pos rfl]
      rcases hnone with hnone | ⟨hgiven, hnone⟩ <;> rw [hnone]
      · exact .inl rfl
      · exact .inr ⟨hgiven, rfl⟩
  case serving =>
    intro e r hr
    cases hr

end Answered

end Microkernel.Machine
