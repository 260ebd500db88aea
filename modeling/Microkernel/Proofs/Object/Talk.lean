import Microkernel.Object.Session

/-!
# What is said on a session

The acts of the two sides of a session, and what each does to the session, to the outcomes of requests and to the logs of what was
accepted and received. `Talk.Sound` says that no request is lost and none is there twice; every act keeps it (`Talk.Sound.after`).
-/

namespace Microkernel

/-! ## Sessions by themselves -/

namespace Session

/-- A request is queued while both sides are open. -/
theorem send_of_open {x : Session} (h : (x.serverOpen && x.clientOpen) = true) (request : RecordId) :
    x.send request = .ok { x with pending := x.pending ++ [request] } := by
  simp_all [send]

/-- No request is queued once a side is closed. -/
theorem send_of_closed {x : Session} (h : (x.serverOpen && x.clientOpen) = false) (request : RecordId) :
    ∃ e, x.send request = .error e := by
  unfold send
  cases hserver : x.serverOpen <;> cases hclient : x.clientOpen <;> simp_all

/-- The oldest request is taken, if the server side is open and no request is being served. -/
theorem receive_eq_some {x y : Session} {request : RecordId} (h : x.receive = some (request, y)) :
    x.current = none ∧ x.serverOpen = true ∧
      ∃ rest, x.pending = request :: rest ∧ y = { x with pending := rest, current := some request } := by
  unfold receive at h
  split at h
  · next hcurrent hopen hpending =>
    obtain ⟨rfl, rfl⟩ := Prod.mk.inj (Option.some.inj h)
    exact ⟨hcurrent, hopen, _, hpending, rfl⟩
  · nomatch h

/-- Finishing takes the request that is being served, and leaves none being served. -/
theorem finish_eq_some {x y : Session} {request : RecordId} (h : x.finish = some (request, y)) :
    x.current = some request ∧ y = { x with current := none } := by
  obtain ⟨current, hcurrent, heq⟩ := Option.map_eq_some_iff.1 h
  obtain ⟨rfl, rfl⟩ := Prod.mk.inj heq
  exact ⟨hcurrent, rfl⟩

/-- The requests that fail when the server side is closed. -/
def failing (x : Session) : List RecordId := if x.serverOpen then x.pending else []

/-- The session with its server side closed. -/
def shut (x : Session) : Session := { x with serverOpen := false, pending := if x.serverOpen then [] else x.pending }

/-- The port that gets a place back when the server side is closed. -/
def releasing (x : Session) : Option RecordId := if x.serverOpen then x.port else none

/-- Closing is idempotent. -/
theorem shut_of_closed {x : Session} (h : x.serverOpen = false) : x.shut = x := by
  cases x
  simp_all [shut]

/-- Closing the server side fails what is queued and leaves the session shut. -/
theorem closeServer_of_open {x : Session} (h : x.serverOpen = true) : x.closeServer = some (x.failing, x.shut) := by
  simp [closeServer, failing, shut, h]

/-- A closed server side is not closed again. -/
theorem closeServer_of_closed {x : Session} (h : x.serverOpen = false) : x.closeServer = none := by
  simp [closeServer, h]

end Session

/-! ## Acts -/

/-- What one of the two sides does on a session. -/
inductive SessionAct
  /-- The client sends a request. -/
  | send (request : RecordId)
  | receive
  | reply (result : Except KernelError Unit)
  | closeServer
  | closeClient
  /-- The client gives a request an outcome itself, sent or not. -/
  | cancel (request : RecordId) (result : Except KernelError Unit)
  /-- The server end is let go. -/
  | dropServer

namespace SessionAct

/-- The request that an act tries to send. -/
def sent? : SessionAct → Option RecordId
  | send request => some request
  | _ => none

/-- Whether an act answers the request being served. -/
def Answers : SessionAct → Prop
  | reply _ | dropServer => True
  | _ => False

/-- Whether an act gives up on a request. -/
def Cancels (request : RecordId) : SessionAct → Prop
  | cancel other _ => other = request
  | _ => False

end SessionAct

/-! ## What an act does -/

/-- What there is to know of a run: its session, its logs, and what became of every request. -/
structure Talk where
  session : Session
  accepted : List RecordId
  received : List RecordId
  outcome : RecordId → Option (Except KernelError Unit)

namespace Talk

/-- Gives requests an outcome; an outcome that a request has stands. -/
def tell (requests : List RecordId) (result : Except KernelError Unit) (v : Talk) : Talk :=
  { v with outcome := fun r => if r ∈ requests then some ((v.outcome r).getD result) else v.outcome r }

/-- Answers the request being served. -/
def answer (result : Except KernelError Unit) (v : Talk) : Talk :=
  match v.session.finish with
  | some (request, session) => { v with session }.tell [request] result
  | none => v

/-- Shuts the session and fails what is queued. -/
def shut (v : Talk) : Talk := { v with session := v.session.shut }.tell v.session.failing (.error .sessionClosed)

/-- What an act does. -/
def after (v : Talk) : SessionAct → Talk
  | .send request =>
    if v.session.serverOpen && v.session.clientOpen then
      { v with session := { v.session with pending := v.session.pending ++ [request] }, accepted := v.accepted ++ [request] }
    else v
  | .receive =>
    match v.session.receive with
    | some (request, session) => { v with session, received := v.received ++ [request] }
    | none => v
  | .reply result => v.answer result
  | .closeServer => v.shut
  | .closeClient => { v with session := { v.session with clientOpen := false } }
  | .cancel request result => v.tell [request] result
  | .dropServer => v.shut.answer (.error .sessionClosed)

end Talk

/-! ## The invariant -/

namespace Talk

variable {v : Talk} {sends : List RecordId} {told : RecordId → Prop}

/-- No request is lost and none is there twice. The requests that somebody tried to send are `sends`; a request that is `told` may
have an outcome that is not from the session. -/
structure Sound (sends : List RecordId) (told : RecordId → Prop) (v : Talk) : Prop where
  sent : v.accepted.Sublist sends
  /-- What was accepted was received, or it is queued behind that, or it failed when the server side was closed. -/
  ordered : ∃ failed, v.accepted = v.received ++ v.session.pending ++ failed ∧ (v.session.serverOpen = true → failed = [])
  emptied : v.session.serverOpen = false → v.session.pending = []
  last : ∀ r, v.session.current = some r → v.received.getLast? = some r
  answered : ∀ r ∈ v.accepted, r ∈ v.session.pending ∨ v.session.current = some r ∨ (v.outcome r).isSome
  known : ∀ r, (v.outcome r).isSome → told r ∨ r ∈ v.accepted
  /-- What waits for its answer has none, if no request is sent twice. -/
  unanswered : sends.Nodup → ∀ r, r ∈ v.session.pending ∨ v.session.current = some r → (v.outcome r).isSome → told r

/-- Requests that are told an outcome have one, and no other gets one. -/
theorem isSome_tell (requests : List RecordId) (result : Except KernelError Unit) (v : Talk) (r : RecordId) :
    ((v.tell requests result).outcome r).isSome ↔ r ∈ requests ∨ (v.outcome r).isSome := by
  by_cases h : r ∈ requests <;> simp [tell, h]

/-- An outcome stands, whoever is told what. -/
theorem tell_of_some {r : RecordId} {o : Except KernelError Unit} (h : v.outcome r = some o) (requests : List RecordId)
    (result : Except KernelError Unit) : (v.tell requests result).outcome r = some o := by
  simp [tell, h]

/-- Telling nobody an outcome changes nothing. -/
theorem tell_nil (result : Except KernelError Unit) (v : Talk) : v.tell [] result = v := by simp [tell]

/-- A session that is shut already is not shut again. -/
theorem shut_of_closed (h : v.session.serverOpen = false) : v.shut = v := by
  rw [shut, Session.failing, Session.shut_of_closed h, if_neg (by simp [h]), tell_nil]

namespace Sound

/-- What is sound is sound for more sends and more cancelled requests. -/
theorem mono {sends' : List RecordId} {told' : RecordId → Prop} (h : v.Sound sends told) (hsends : sends.Sublist sends')
    (htold : ∀ r, told r → told' r) : v.Sound sends' told' where
  sent := h.sent.trans hsends
  ordered := h.ordered
  emptied := h.emptied
  last := h.last
  answered := h.answered
  known r hr := (h.known r hr).imp_left (htold r)
  unanswered hnodup r hr hsome := htold r (h.unanswered (hnodup.sublist hsends) r hr hsome)

/-- What was received was accepted. -/
theorem received_mem (h : v.Sound sends told) {r : RecordId} (hr : r ∈ v.received) : r ∈ v.accepted := by
  obtain ⟨failed, heq, -⟩ := h.ordered
  rw [heq]
  exact List.mem_append_left _ (List.mem_append_left _ hr)

/-- What is queued was accepted. -/
theorem pending_mem (h : v.Sound sends told) {r : RecordId} (hr : r ∈ v.session.pending) : r ∈ v.accepted := by
  obtain ⟨failed, heq, -⟩ := h.ordered
  rw [heq]
  exact List.mem_append_left _ (List.mem_append_right _ hr)

/-- What is being served was received. -/
theorem current_mem (h : v.Sound sends told) {r : RecordId} (hr : v.session.current = some r) : r ∈ v.received :=
  List.mem_of_getLast? (h.last r hr)

/-- The request being served is not queued again, if no request is sent twice. -/
theorem current_not_pending (h : v.Sound sends told) (hnodup : sends.Nodup) {r : RecordId} (hr : v.session.current = some r) :
    r ∉ v.session.pending := by
  obtain ⟨failed, heq, -⟩ := h.ordered
  have haccepted := hnodup.sublist h.sent
  rw [heq] at haccepted
  have hapart := (List.nodup_append.1 (List.nodup_append.1 haccepted).1).2.2
  exact fun hpending => hapart r (h.current_mem hr) r hpending rfl

/-- Sending a request keeps a talk sound. -/
theorem send (h : v.Sound sends told) (request : RecordId) : (v.after (.send request)).Sound (sends ++ [request]) told := by
  rw [after]
  split
  · next hopen =>
    rw [Bool.and_eq_true] at hopen
    obtain ⟨failed, heq, hfailed⟩ := h.ordered
    constructor
    case sent => exact h.sent.append (.refl _)
    case ordered => exact ⟨[], by simp [heq, hfailed hopen.1], fun _ => rfl⟩
    case emptied => exact fun hclosed => absurd hopen.1 (by simp_all)
    case last => exact h.last
    case answered =>
      intro r hr
      rcases List.mem_append.1 hr with hr | hr
      · exact (h.answered r hr).imp_left (List.mem_append_left _)
      · exact .inl (List.mem_append_right _ hr)
    case known => exact fun r hr => (h.known r hr).imp_right (List.mem_append_left _)
    case unanswered =>
      intro hnodup r hr hsome
      have hbefore := List.nodup_append.1 hnodup
      rw [List.mem_append, List.mem_singleton, or_assoc] at hr
      rcases hr with hr | rfl | hr
      · exact h.unanswered hbefore.1 r (.inl hr) hsome
      · refine (h.known r hsome).resolve_right fun hr => ?_
        exact hbefore.2.2 r (h.sent.subset hr) r (List.mem_singleton_self r) rfl
      · exact h.unanswered hbefore.1 r (.inr hr) hsome
  · exact h.mono (List.sublist_append_left _ _) fun _ => id

/-- Receiving keeps a talk sound. -/
theorem receive (h : v.Sound sends told) : (v.after .receive).Sound sends told := by
  rw [after]
  split
  · next request session htake =>
    obtain ⟨hnone, hopen, rest, hpending, rfl⟩ := Session.receive_eq_some htake
    obtain ⟨failed, heq, hfailed⟩ := h.ordered
    constructor
    case sent => exact h.sent
    case ordered => exact ⟨failed, by simp [heq, hpending], hfailed⟩
    case emptied => exact fun hclosed => absurd hopen (by simp_all)
    case last =>
      rintro r hr
      rw [List.getLast?_concat]
      exact hr
    case answered =>
      intro r hr
      rcases h.answered r hr with hr | hr | hr
      · rw [hpending, List.mem_cons] at hr
        exact hr.elim (fun heq => .inr (.inl (congrArg some heq.symm))) .inl
      · nomatch hnone.symm.trans hr
      · exact .inr (.inr hr)
    case known => exact h.known
    case unanswered =>
      intro hnodup r hr hsome
      refine h.unanswered hnodup r (.inl ?_) hsome
      rw [hpending, List.mem_cons]
      exact hr.symm.imp_left fun hcurrent => (Option.some.inj hcurrent).symm
  · exact h

/-- Answering keeps a talk sound. -/
theorem answer (h : v.Sound sends told) (result : Except KernelError Unit) : (v.answer result).Sound sends told := by
  rw [Talk.answer]
  split
  · next request session hfinish =>
    obtain ⟨hcurrent, rfl⟩ := Session.finish_eq_some hfinish
    have hmem := h.received_mem (h.current_mem hcurrent)
    constructor
    case sent => exact h.sent
    case ordered => exact h.ordered
    case emptied => exact h.emptied
    case last => exact fun r hr => nomatch hr
    case answered =>
      intro r hr
      rw [isSome_tell, List.mem_singleton]
      rcases h.answered r hr with hr | hr | hr
      · exact .inl hr
      · exact .inr (.inr (.inl (Option.some.inj (hr.symm.trans hcurrent))))
      · exact .inr (.inr (.inr hr))
    case known =>
      intro r hr
      rw [isSome_tell, List.mem_singleton] at hr
      rcases hr with rfl | hr
      · exact .inr hmem
      · exact h.known r hr
    case unanswered =>
      rintro hnodup r (hr | hr) hsome
      · rw [isSome_tell, List.mem_singleton] at hsome
        rcases hsome with rfl | hsome
        · exact absurd hr (h.current_not_pending hnodup hcurrent)
        · exact h.unanswered hnodup r (.inl hr) hsome
      · nomatch hr
  · exact h

/-- Shutting the session keeps a talk sound. -/
theorem shut (h : v.Sound sends told) : v.shut.Sound sends told := by
  cases hopen : v.session.serverOpen with
  | false =>
    rw [shut_of_closed hopen]
    exact h
  | true =>
    obtain ⟨failed, heq, hfailed⟩ := h.ordered
    have hfailing : v.session.failing = v.session.pending := by simp [Session.failing, hopen]
    have hpending : v.shut.session.pending = [] := by simp [Talk.shut, tell, Session.shut, hopen]
    have hsome (r : RecordId) : (v.shut.outcome r).isSome ↔ r ∈ v.session.pending ∨ (v.outcome r).isSome := by
      rw [Talk.shut, isSome_tell, hfailing]
    constructor
    case sent => exact h.sent
    case ordered =>
      refine ⟨v.session.pending, ?_, fun hshut => nomatch hshut⟩
      rw [hpending, List.append_nil]
      exact heq.trans (by rw [hfailed hopen, List.append_nil]; rfl)
    case emptied => exact fun _ => hpending
    case last => exact h.last
    case answered =>
      intro r hr
      rw [hsome, hpending]
      rcases h.answered r hr with hr | hr | hr
      · exact .inr (.inr (.inl hr))
      · exact .inr (.inl hr)
      · exact .inr (.inr (.inr hr))
    case known =>
      intro r hr
      rcases (hsome r).1 hr with hr | hr
      · exact .inr (h.pending_mem hr)
      · exact h.known r hr
    case unanswered =>
      rintro hnodup r hr hr'
      rw [hpending] at hr
      have hcurrent : v.session.current = some r := hr.resolve_left List.not_mem_nil
      refine h.unanswered hnodup r (.inr hcurrent) (((hsome r).1 hr').resolve_left ?_)
      exact h.current_not_pending hnodup hcurrent

/-- Cancelling a request keeps a talk sound. -/
theorem cancel (h : v.Sound sends told) (request : RecordId) (result : Except KernelError Unit) :
    (v.tell [request] result).Sound sends (fun r => told r ∨ request = r) where
  sent := h.sent
  ordered := h.ordered
  emptied := h.emptied
  last := h.last
  answered r hr := (h.answered r hr).imp_right (Or.imp_right fun hsome => (isSome_tell _ _ _ _).2 (.inr hsome))
  known r hr := by
    rw [isSome_tell, List.mem_singleton] at hr
    rcases hr with rfl | hr
    · exact .inl (.inr rfl)
    · exact (h.known r hr).imp_left .inl
  unanswered hnodup r hr hsome := by
    rw [isSome_tell, List.mem_singleton] at hsome
    rcases hsome with rfl | hsome
    · exact .inr rfl
    · exact .inl (h.unanswered hnodup r hr hsome)

/-- Every act keeps the invariant. -/
theorem after (h : v.Sound sends told) (a : SessionAct) :
    (v.after a).Sound (sends ++ a.sent?.toList) fun r => told r ∨ a.Cancels r := by
  have hwiden {w : Talk} (hw : w.Sound sends told) : w.Sound (sends ++ []) fun r => told r ∨ a.Cancels r :=
    hw.mono (List.sublist_append_left _ _) fun _ => .inl
  cases a with
  | send request => exact (h.send request).mono (.refl _) fun _ => .inl
  | receive => exact hwiden h.receive
  | reply result => exact hwiden (h.answer result)
  | closeServer => exact hwiden h.shut
  | closeClient => exact hwiden ⟨h.sent, h.ordered, h.emptied, h.last, h.answered, h.known, h.unanswered⟩
  | cancel request result => exact (h.cancel request result).mono (List.sublist_append_left _ _) fun _ => id
  | dropServer => exact hwiden (h.shut.answer _)

end Sound

/-! ## What stands -/

/-- An answer leaves an outcome that stands. -/
theorem answer_of_some {r : RecordId} {o : Except KernelError Unit} (h : v.outcome r = some o)
    (result : Except KernelError Unit) : (v.answer result).outcome r = some o := by
  rw [answer]
  split
  · exact tell_of_some h _ _
  · exact h

/-- An outcome stands. -/
theorem after_of_some {r : RecordId} {o : Except KernelError Unit} (h : v.outcome r = some o) (a : SessionAct) :
    (v.after a).outcome r = some o := by
  cases a with
  | send request =>
    rw [after]
    split <;> exact h
  | receive =>
    rw [after]
    split <;> exact h
  | reply result => exact answer_of_some h result
  | closeServer => exact tell_of_some h _ _
  | closeClient => exact h
  | cancel request result => exact tell_of_some h _ _
  | dropServer =>
    have hshut : v.shut.outcome r = some o := tell_of_some h _ _
    exact answer_of_some hshut _

/-- The server takes the oldest request, unless it serves one. -/
theorem received_receive (h : v.session.serverOpen = false → v.session.pending = []) : (v.after .receive).received =
    v.received ++ if v.session.current.isNone then v.session.pending.take 1 else [] := by
  rw [after, Session.receive]
  cases hcurrent : v.session.current with
  | some r => simp
  | none =>
    cases hopen : v.session.serverOpen with
    | false => simp [h hopen]
    | true => cases v.session.pending <;> simp

/-- An answer leaves the server side as it was. -/
theorem serverOpen_answer (result : Except KernelError Unit) (v : Talk) :
    (v.answer result).session.serverOpen = v.session.serverOpen := by
  rw [answer]
  split
  · next hfinish =>
    obtain ⟨-, rfl⟩ := Session.finish_eq_some hfinish
    rfl
  · rfl

/-- Only closing the server side or letting it go closes it, and nothing opens it again. -/
theorem serverOpen_after (v : Talk) (a : SessionAct) :
    (v.after a).session.serverOpen = false ↔ v.session.serverOpen = false ∨ .closeServer = a ∨ .dropServer = a := by
  cases a with
  | send request =>
    rw [after]
    split <;> simp
  | receive =>
    rw [after]
    split
    · next htake =>
      obtain ⟨-, -, -, -, rfl⟩ := Session.receive_eq_some htake
      simp
    · simp
  | reply result => simp [after, serverOpen_answer]
  | closeServer => simp [after, shut, tell, Session.shut]
  | closeClient => simp [after]
  | cancel request result => simp [after, tell]
  | dropServer => simp [after, serverOpen_answer, shut, tell, Session.shut]

/-- After an answer no request is being served. -/
theorem current_answer (result : Except KernelError Unit) (v : Talk) : (v.answer result).session.current = none := by
  rw [answer]
  cases hfinish : v.session.finish with
  | some taken =>
    obtain ⟨-, hsession⟩ := Session.finish_eq_some hfinish
    change taken.2.current = none
    rw [hsession]
  | none => exact Option.map_eq_none_iff.1 hfinish

/-- The request being served is spared by every act but an answer. -/
theorem current_after {r : RecordId} (h : v.session.current = some r) {a : SessionAct} (ha : ¬a.Answers) :
    (v.after a).session.current = some r := by
  cases a with
  | send request =>
    rw [after]
    split <;> exact h
  | receive =>
    rw [after]
    split
    · next htake =>
      obtain ⟨hnone, -⟩ := Session.receive_eq_some htake
      nomatch hnone.symm.trans h
    · exact h
  | reply result => exact absurd trivial ha
  | closeServer => exact h
  | closeClient => exact h
  | cancel request result => exact h
  | dropServer => exact absurd trivial ha

/-- Once the server end is gone, nothing is served any more. -/
theorem current_after_of_closed (hclosed : v.session.serverOpen = false) (hnone : v.session.current = none) (a : SessionAct) :
    (v.after a).session.current = none := by
  cases a with
  | send request =>
    rw [after]
    split <;> exact hnone
  | receive =>
    rw [after]
    split
    · next htake =>
      obtain ⟨-, hopen, -⟩ := Session.receive_eq_some htake
      nomatch hclosed.symm.trans hopen
    · exact hnone
  | reply result => exact current_answer result v
  | closeServer => exact hnone
  | closeClient => exact hnone
  | cancel request result => exact hnone
  | dropServer => exact current_answer _ _

/-- The server's answer is the outcome of the request being served, unless it has one. -/
theorem outcome_answer {r : RecordId} (hcurrent : v.session.current = some r) (hnone : v.outcome r = none)
    (result : Except KernelError Unit) : (v.answer result).outcome r = some result := by
  have hfinish : v.session.finish = some (r, { v.session with current := none }) := by rw [Session.finish, hcurrent]; rfl
  simp [answer, hfinish, tell, hnone]

end Talk

end Microkernel
