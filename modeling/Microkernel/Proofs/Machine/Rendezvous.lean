import Microkernel.Proofs.Machine.Sessions

/-!
# Rendezvous on a session

A run is a list of acts of the two sides of one new session: sending, receiving, answering, closing either side, giving up on a
request and letting the server end go, in any order. No request is lost and none is answered twice (`session_faithful`). On a
machine an act does to the session, the outcomes and the logs what it does to a talk (`Rendezvous.talk_step`).
-/

namespace Microkernel.Machine

/-! ## Runs -/

/-- A machine with one session, and the logs of the requests that were accepted and received, oldest first. -/
structure Rendezvous where
  machine : Machine
  server : RecordId
  client : RecordId
  accepted : List RecordId := []
  received : List RecordId := []

namespace Rendezvous

/-- A new session on a machine. -/
def start (s : Machine) (port : Option RecordId) : Rendezvous where
  machine := (newSession port s).2
  server := (newSession port s).1.1
  client := (newSession port s).1.2

def step (x : Rendezvous) : SessionAct → Rendezvous
  | .send request =>
    match (sendRequest x.client request).run x.machine with
    | (.ok _, machine) => { x with machine, accepted := x.accepted ++ [request] }
    | (.error _, machine) => { x with machine }
  | .receive =>
    match receiveRequest x.server x.machine with
    | (some request, machine) => { x with machine, received := x.received ++ [request] }
    | (none, machine) => { x with machine }
  | .reply result => { x with machine := ((Machine.reply x.server result).run x.machine).2 }
  | .closeServer => { x with machine := (closeServerSession x.server x.machine).2 }
  | .closeClient => { x with machine := (closeClientSession x.client x.machine).2 }
  | .cancel request result => { x with machine := (completeRequest request result x.machine).2 }
  | .dropServer => { x with machine := (dropServerSession x.server x.machine).2 }

/-- A run on a new session. -/
def after (s : Machine) (port : Option RecordId) (acts : List SessionAct) : Rendezvous := acts.foldl step (start s port)

/-- The session of a run. -/
def session (x : Rendezvous) : Session := x.machine.session (x.machine.serverSession x.server)

end Rendezvous

/-! ## What an act does -/

namespace Rendezvous

variable {x : Rendezvous}

def talk (x : Rendezvous) : Talk := ⟨x.session, x.accepted, x.received, x.machine.outcome⟩

/-- The session of a run is the one behind its server end. -/
theorem session_machine (x : Rendezvous) : x.machine.session (x.machine.serverSession x.server) = x.session := rfl

/-- The session of a run is that of its talk. -/
theorem session_talk (x : Rendezvous) : x.talk.session = x.session := rfl

/-- The two ends are ends of one session. -/
def Linked (x : Rendezvous) : Prop := x.machine.clientSession x.client = x.machine.serverSession x.server

/-- The ends of a new session belong together. -/
theorem start_linked (s : Machine) (port : Option RecordId) : (start s port).Linked := by
  change (newSession port s).2.clientSession (s.nextId + 2) = (newSession port s).2.serverSession (s.nextId + 1)
  rw [clientSession_newSession, serverSession_newSession, if_pos rfl, if_pos rfl]

/-- A new session has nothing but its port. -/
theorem session_start (s : Machine) (port : Option RecordId) : (start s port).session = { port } := by
  change (newSession port s).2.session ((newSession port s).2.serverSession (s.nextId + 1)) = _
  rw [serverSession_newSession, if_pos rfl, session_newSession, if_pos rfl]

/-- The talk on a new session begins without requests. -/
theorem talk_start (s : Machine) (port : Option RecordId) : (start s port).talk = ⟨{ port }, [], [], s.outcome⟩ := by
  rw [talk, session_start]
  rfl

/-- Two runs show the same talk if their sessions, outcomes and logs are the same. -/
theorem talk_eq {x y : Rendezvous} {v : Talk} (hends : SameEnds x.machine y.machine) (hserver : y.server = x.server)
    (hsession : y.machine.session (x.machine.serverSession x.server) = v.session) (haccepted : y.accepted = v.accepted)
    (hreceived : y.received = v.received) (houtcome : ∀ r, y.machine.outcome r = v.outcome r) : y.talk = v := by
  rw [talk, session, hserver, hends.serverSession, hsession, haccepted, hreceived, funext houtcome]

/-- An act leaves the ends as they are. -/
theorem step_ends (x : Rendezvous) (a : SessionAct) :
    SameEnds x.machine (x.step a).machine ∧ (x.step a).server = x.server ∧ (x.step a).client = x.client := by
  cases a with
  | send request =>
    have hends := sendRequest_ends x.client request x.machine
    rw [step]
    split <;> next heq => exact ⟨by rwa [heq] at hends, rfl, rfl⟩
  | receive =>
    have hends := receiveRequest_ends x.server x.machine
    rw [step]
    split <;> next heq => exact ⟨by rwa [heq] at hends, rfl, rfl⟩
  | reply result => exact ⟨reply_ends x.server result x.machine, rfl, rfl⟩
  | closeServer => exact ⟨closeServerSession_ends x.server x.machine, rfl, rfl⟩
  | closeClient => exact ⟨closeClientSession_ends x.client x.machine, rfl, rfl⟩
  | cancel request result => exact ⟨.of_links (completeRequest_links request result x.machine), rfl, rfl⟩
  | dropServer => exact ⟨dropServerSession_ends x.server x.machine, rfl, rfl⟩

/-- No act parts the ends. -/
theorem step_linked (h : x.Linked) (a : SessionAct) : (x.step a).Linked := by
  obtain ⟨hends, hserver, hclient⟩ := x.step_ends a
  rw [Linked, hserver, hclient, hends.clientSession, hends.serverSession]
  exact h

/-- Sending on a machine is sending in the talk. -/
theorem talk_send (h : x.Linked) (request : RecordId) : (x.step (.send request)).talk = x.talk.after (.send request) := by
  have hid : x.machine.clientSession x.client = x.machine.serverSession x.server := h
  rw [step, Talk.after, sendRequest_run, hid]
  cases hopen : x.talk.session.serverOpen && x.talk.session.clientOpen with
  | true =>
    have hsend : (x.machine.session (x.machine.serverSession x.server)).send request = _ := Session.send_of_open hopen request
    rw [hsend, if_pos rfl]
    refine talk_eq (IsTrans.trans _ _ _ (setSession_ends _ _ _) (.of_links (wake_links _ _))) rfl ?_ rfl rfl fun _ => rfl
    rw [(wake_links _ _).session, session_setSession, if_pos rfl]
  | false =>
    obtain ⟨e, hsend⟩ := Session.send_of_closed hopen request
    change (x.machine.session (x.machine.serverSession x.server)).send request = _ at hsend
    rw [hsend]
    rfl

/-- Receiving on a machine is receiving in the talk. -/
theorem talk_receive (x : Rendezvous) : (x.step .receive).talk = x.talk.after .receive := by
  rw [step, Talk.after, receiveRequest_run, session_machine, session_talk]
  cases x.session.receive with
  | some taken =>
    refine talk_eq (setSession_ends _ _ _) rfl ?_ rfl rfl fun _ => rfl
    rw [session_setSession, if_pos rfl]
  | none => rfl

/-- Answering on a machine is answering in the talk. -/
theorem talk_reply (x : Rendezvous) (result : Except KernelError Unit) :
    (x.step (.reply result)).talk = x.talk.answer result := by
  rw [step, Talk.answer, reply_run, session_machine, session_talk]
  cases x.session.finish with
  | some taken =>
    have hends := IsTrans.trans _ _ _ (setSession_ends (x.machine.serverSession x.server) taken.2 x.machine)
      (.of_links (completeRequest_links taken.1 result _))
    refine talk_eq hends rfl ?_ rfl rfl fun r => ?_
    · rw [(completeRequest_links _ _ _).session, session_setSession, if_pos rfl]
      rfl
    · rw [outcome_completeRequest]
      simp only [Talk.tell, List.mem_singleton]
      split
      · next heq => rw [heq]; rfl
      · rfl
  | none => rfl

/-- Closing the server end on a machine shuts the talk. -/
theorem talk_closeServer (x : Rendezvous) : (x.step .closeServer).talk = x.talk.shut := by
  refine talk_eq (closeServerSession_ends x.server x.machine) rfl ?_ rfl rfl fun r => outcome_closeServerSession _ _ _
  exact (session_closeServerSession _ _ _).trans (if_pos rfl)

/-- Closing the client end on a machine is closing it in the talk. -/
theorem talk_closeClient (h : x.Linked) : (x.step .closeClient).talk = x.talk.after .closeClient := by
  have hid : x.machine.clientSession x.client = x.machine.serverSession x.server := h
  rw [step, Talk.after, closeClientSession_run, hid, session_machine, Session.closeClient]
  cases hopen : x.session.clientOpen with
  | true =>
    rw [if_pos rfl]
    refine talk_eq (IsTrans.trans _ _ _ (setSession_ends _ _ _) (.of_links (wake_links _ _))) rfl ?_ rfl rfl fun _ => rfl
    rw [(wake_links _ _).session, session_setSession, if_pos rfl]
    rfl
  | false =>
    refine talk_eq (refl _) rfl ?_ rfl rfl fun _ => rfl
    change x.session = { x.session with clientOpen := false }
    rw [← hopen]

/-- Giving up on a request tells what becomes of it, and no more. -/
theorem talk_cancel (x : Rendezvous) (request : RecordId) (result : Except KernelError Unit) :
    (x.step (.cancel request result)).talk = x.talk.tell [request] result := by
  have hlinks := completeRequest_links request result x.machine
  refine talk_eq (.of_links hlinks) rfl (hlinks.session _) rfl rfl fun r => ?_
  simp only [Talk.tell, List.mem_singleton]
  rw [step, outcome_completeRequest]
  split
  · next heq => rw [heq]; rfl
  · rfl

/-- What an act does on a machine is what it does to the session, the logs and the outcomes. -/
theorem talk_step (h : x.Linked) (a : SessionAct) : (x.step a).talk = x.talk.after a := by
  cases a with
  | send request => exact talk_send h request
  | receive => exact talk_receive x
  | reply result => exact talk_reply x result
  | closeServer => exact talk_closeServer x
  | closeClient => exact talk_closeClient h
  | cancel request result => exact talk_cancel x request result
  | dropServer =>
    have hstep : x.step .dropServer = (x.step .closeServer).step (.reply (.error .sessionClosed)) :=
      congrArg (fun machine => { x with machine }) (dropServerSession_run x.server x.machine)
    rw [hstep, talk_reply, talk_closeServer]
    rfl

end Rendezvous

/-! ## Whole runs -/

namespace Rendezvous

variable {x : Rendezvous} {s : Machine} {port : Option RecordId} {acts : List SessionAct}

/-- The ends stay together through any acts. -/
theorem foldl_linked (h : x.Linked) (acts : List SessionAct) : (acts.foldl step x).Linked := by
  induction acts generalizing x with
  | nil => exact h
  | cons a rest ih => exact ih (step_linked h a)

/-- The ends are together after every run. -/
theorem after_linked (s : Machine) (port : Option RecordId) (acts : List SessionAct) : (after s port acts).Linked :=
  foldl_linked (start_linked s port) acts

/-- Any acts keep the talk sound. -/
theorem foldl_sound {sends : List RecordId} {told : RecordId → Prop} (hlinked : x.Linked) (h : x.talk.Sound sends told)
    (acts : List SessionAct) : (acts.foldl step x).talk.Sound (sends ++ acts.filterMap SessionAct.sent?)
      fun r => told r ∨ ∃ a ∈ acts, a.Cancels r := by
  induction acts generalizing x sends told with
  | nil => exact h.mono (List.sublist_append_left _ _) fun _ => .inl
  | cons a rest ih =>
    have hstep := ih (step_linked hlinked a) (talk_step hlinked a ▸ h.after a)
    rw [List.foldl_cons]
    refine hstep.mono ?_ fun r => ?_
    · rw [List.filterMap_cons, List.append_assoc]
      cases a.sent? <;> exact .refl _
    · rintro ((hr | hr) | ⟨b, hb, hr⟩)
      · exact .inl hr
      · exact .inr ⟨a, List.mem_cons_self, hr⟩
      · exact .inr ⟨b, List.mem_cons_of_mem _ hb, hr⟩

/-- The talk of every run is sound. -/
theorem after_sound (s : Machine) (port : Option RecordId) (acts : List SessionAct) :
    (after s port acts).talk.Sound (acts.filterMap SessionAct.sent?)
      fun r => (s.outcome r).isSome ∨ ∃ a ∈ acts, a.Cancels r := by
  suffices hstart : (start s port).talk.Sound [] fun r => (s.outcome r).isSome = true from
    foldl_sound (start_linked s port) hstart acts
  rw [talk_start]
  constructor
  case ordered => exact ⟨[], rfl, fun _ => rfl⟩
  case known => exact fun r hr => .inl hr
  all_goals simp

/-- What became of a request stays so. -/
theorem foldl_of_some (hlinked : x.Linked) {r : RecordId} {o : Except KernelError Unit} (h : x.machine.outcome r = some o)
    (acts : List SessionAct) : (acts.foldl step x).machine.outcome r = some o := by
  induction acts generalizing x with
  | nil => exact h
  | cons a rest ih =>
    refine ih (step_linked hlinked a) ?_
    have hafter : (x.talk.after a).outcome r = some o := Talk.after_of_some h a
    rwa [← talk_step hlinked a] at hafter

/-- The server side is closed exactly if it was, or an act closes it or lets it go. -/
theorem serverOpen_foldl (hlinked : x.Linked) (acts : List SessionAct) : (acts.foldl step x).session.serverOpen = false ↔
    x.session.serverOpen = false ∨ .closeServer ∈ acts ∨ .dropServer ∈ acts := by
  induction acts generalizing x with
  | nil => simp
  | cons a rest ih =>
    have hstep : (x.step a).session.serverOpen = false ↔ _ := talk_step hlinked a ▸ Talk.serverOpen_after x.talk a
    rw [List.foldl_cons, ih (step_linked hlinked a), hstep, List.mem_cons, List.mem_cons, or_assoc, or_or_or_comm]
    rfl

/-- When nobody is left to answer, no request is being served any more. -/
theorem foldl_gone (hlinked : x.Linked) (hclosed : x.session.serverOpen = false) (hnone : x.session.current = none)
    (acts : List SessionAct) : (acts.foldl step x).session.current = none := by
  induction acts generalizing x with
  | nil => exact hnone
  | cons a rest ih =>
    have hcurrent := Talk.current_after_of_closed (v := x.talk) hclosed hnone a
    have hserver := (Talk.serverOpen_after x.talk a).2 (.inl hclosed)
    rw [← talk_step hlinked a] at hcurrent hserver
    exact ih (step_linked hlinked a) hserver hcurrent

/-- Once the server end was let go, no request is being served. -/
theorem current_of_dropped (hlinked : x.Linked) (h : .dropServer ∈ acts) : (acts.foldl step x).session.current = none := by
  obtain ⟨before, rest, rfl⟩ := List.append_of_mem h
  rw [List.foldl_append, List.foldl_cons]
  have hbefore := foldl_linked hlinked before
  refine foldl_gone (step_linked hbefore _) ?_ ?_ rest
  · have hclosed := (Talk.serverOpen_after (before.foldl step x).talk .dropServer).2 (.inr (.inr rfl))
    rwa [← talk_step hbefore] at hclosed
  · have hnone : ((before.foldl step x).talk.after .dropServer).session.current = none := Talk.current_answer _ _
    rwa [← talk_step hbefore] at hnone

/-- What a run that led from a machine to `x` promises about the requests of its session. -/
structure Faithful (s : Machine) (acts : List SessionAct) (x : Rendezvous) : Prop where
  /-- A request is accepted exactly while both sides are open. -/
  accepts : ∀ r, (x.step (.send r)).accepted = if x.session.serverOpen && x.session.clientOpen then x.accepted ++ [r] else x.accepted
  /-- The server gets the oldest request that is queued, and none while it serves one. -/
  takes : (x.step .receive).received = x.received ++ if x.session.current.isNone then x.session.pending.take 1 else []
  sent : x.accepted.Sublist (acts.filterMap SessionAct.sent?)
  /-- Requests are received in the order in which they were sent. -/
  ordered : x.received <+: x.accepted
  once : x.received.Nodup
  /-- Only the request that was received last is ever being served. -/
  current : ∀ r, x.session.current = some r → x.received.getLast? = some r
  /-- No request is lost. -/
  answered : ∀ r ∈ x.accepted, r ∈ x.session.pending ∨ x.session.current = some r ∨ (x.machine.outcome r).isSome
  /-- The first outcome stands, whatever comes. -/
  stands : ∀ (more : List SessionAct) r o, x.machine.outcome r = some o → (more.foldl step x).machine.outcome r = some o
  closed : x.session.serverOpen = false ↔ .closeServer ∈ acts ∨ .dropServer ∈ acts
  /-- On a closed server side nothing is queued, and only the request being served can wait for its answer. -/
  failed : x.session.serverOpen = false →
    x.session.pending = [] ∧ ∀ r ∈ x.accepted, x.session.current ≠ some r → (x.machine.outcome r).isSome
  /-- The request being served stays so until the server answers or its end is let go. -/
  spared : ∀ r a, x.session.current = some r → ¬a.Answers → (x.step a).session.current = some r
  /-- The request being served gets exactly the answer of the server, if nobody gave up on it. -/
  replied : ∀ r result, x.session.current = some r → s.outcome r = none → (∀ a ∈ acts, ¬a.Cancels r) →
    (x.step (.reply result)).machine.outcome r = some result
  /-- Once the server end is gone, nobody waits for an answer. -/
  dropped : .dropServer ∈ acts → ∀ r ∈ x.accepted, (x.machine.outcome r).isSome

/-- A session loses no request and serves none twice, whatever its two sides do, if no request is sent twice. -/
theorem session_faithful (s : Machine) (port : Option RecordId) (acts : List SessionAct)
    (hsends : (acts.filterMap SessionAct.sent?).Nodup) : Faithful s acts (after s port acts) := by
  have hlinked := after_linked s port acts
  have hsound := after_sound s port acts
  obtain ⟨failed, hordered, -⟩ := hsound.ordered
  have hprefix : (after s port acts).received <+: (after s port acts).accepted :=
    ⟨(after s port acts).session.pending ++ failed, (hordered.trans (List.append_assoc _ _ _)).symm⟩
  constructor
  case accepts =>
    intro r
    have hstep := congrArg Talk.accepted (talk_step hlinked (.send r))
    refine hstep.trans ?_
    rw [Talk.after, apply_ite Talk.accepted]
    rfl
  case takes =>
    have hstep := congrArg Talk.received (talk_step hlinked .receive)
    exact hstep.trans (Talk.received_receive hsound.emptied)
  case sent => exact hsound.sent
  case ordered => exact hprefix
  case once => exact (hsends.sublist hsound.sent).sublist hprefix.sublist
  case current => exact hsound.last
  case answered => exact hsound.answered
  case stands => exact fun more r o h => foldl_of_some hlinked h more
  case closed =>
    have hopen : (start s port).session.serverOpen = true := by rw [session_start]
    refine (serverOpen_foldl (start_linked s port) acts).trans ?_
    rw [hopen]
    simp
  case failed =>
    intro hclosed
    have hpending := hsound.emptied hclosed
    refine ⟨hpending, fun r hr hne => ?_⟩
    rcases hsound.answered r hr with hr | hr | hr
    · rw [hpending] at hr
      cases hr
    · exact absurd hr hne
    · exact hr
  case spared =>
    intro r a hr ha
    have hspared := Talk.current_after (v := (after s port acts).talk) hr ha
    rwa [← talk_step hlinked a] at hspared
  case replied =>
    intro r result hr hfresh hcancels
    have hnone : (after s port acts).talk.outcome r = none := by
      rw [Option.eq_none_iff_forall_ne_some]
      intro o ho
      rcases hsound.unanswered hsends r (.inr hr) (by rw [ho]; rfl) with hsome | ⟨a, ha, hcancel⟩
      · rw [hfresh] at hsome
        cases hsome
      · exact hcancels a ha hcancel
    have hreply : ((after s port acts).talk.after (.reply result)).outcome r = some result := Talk.outcome_answer hr hnone result
    rwa [← talk_step hlinked] at hreply
  case dropped =>
    intro hdrop r hr
    have hclosed := (serverOpen_foldl (start_linked s port) acts).2 (.inr (.inr hdrop))
    rcases hsound.answered r hr with hr | hr | hr
    · rw [hsound.emptied hclosed] at hr
      cases hr
    · cases (current_of_dropped (start_linked s port) hdrop).symm.trans hr
    · exact hr

/-- The server side is closed while the first of three requests is being served and the third was given up. -/
theorem session_faithful_closedWhileServing :
    let acts : List SessionAct :=
      [.send 1, .send 2, .send 3, .receive, .cancel 3 (.error .timedOut), .closeServer, .send 4, .reply (.ok ()), .dropServer]
    (acts.filterMap SessionAct.sent?).Nodup ∧ Faithful default acts (after default none acts) ∧
      (after default none acts).received = [1] ∧ [1, 2, 3, 4].map (after default none acts).machine.outcome =
        [some (.ok ()), some (.error .sessionClosed), some (.error .timedOut), none] := by
  exact ⟨by decide, session_faithful default none _ (by decide), by decide +kernel, rfl⟩

end Rendezvous

end Microkernel.Machine
