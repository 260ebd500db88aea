import Microkernel.Proofs.Machine.Gates
import Microkernel.Proofs.Machine.Replacing

/-!
# Denied calls

A supervisor call that its thread's gate does not admit is refused before anything of it is done. What happens around a guest thread
is a list of acts: the thread makes a call, or others do something and time passes. After each act the answer that has come is
collected and the lines that were written are read off, so an observation tells all that the act brought about, and what is left is
the machine. Without the denied calls the same acts give the same observations and the same machine (`denied_calls_inert`).
-/

namespace Microkernel

/-! ## Acts -/

/-- What happens around a guest thread. -/
inductive GuestAct
  /-- The thread makes a call, unless it is still blocked in one. -/
  | call (call : GuestCall)
  /-- Others do something, and time passes. -/
  | others (program : Update Unit)

/-- The supervisor call that is denied if a thread makes a call. An exchange puts its message into the buffer, which is no supervisor
call, before it makes one: it is not denied as a whole. -/
def Gate.denied? (g : Gate) : GuestCall → Option CallId
  | .exchange _ _ => none
  | call => call.callId?.filter fun id => !g.admits id

/-- What is seen of an act. -/
structure Observation where
  act : GuestAct
  /-- The gate of the thread when the act began. -/
  gate : Gate
  /-- Whether the thread stood between two calls when the act began. -/
  idle : Bool
  /-- The answer that came with the act. -/
  answer : Option (Except KernelError CallValue)
  lines : Array JournalLine

/-- Whether an act is a call that a gate denies. -/
def GuestAct.isDenied (g : Gate) : GuestAct → Bool
  | .call made => (g.denied? made).isSome
  | .others _ => false

/-- Whether an act was a call that was denied. -/
def Observation.isDenied (o : Observation) : Bool := o.act.isDenied o.gate

namespace Machine

/-- Whether a thread stands between two calls. -/
def isIdle (s : Machine) (thread : RecordId) : Bool := (s.thread thread).activity matches .idle

/-- Takes the answer of a thread and the lines that were written. -/
def collect (thread : RecordId) : Update (Option (Except KernelError CallValue) × Array JournalLine) := do
  let s ← get
  setThread thread { s.thread thread with answer := none }
  modify fun s => { s with journal := #[] }
  return ((s.thread thread).answer, s.journal)

/-- Lets an act happen. -/
def perform (thread : RecordId) : GuestAct → Update Unit
  | .call call => do if (← get).isIdle thread then submitCall thread call
  | .others program => program

/-- Lets an act happen and looks at what has come of it. -/
def observe (thread : RecordId) (act : GuestAct) : Update Observation := do
  let s ← get
  perform thread act
  let (answer, lines) ← collect thread
  return { act, gate := s.gate thread, idle := s.isIdle thread, answer, lines }

/-- Observes one act after the other. -/
def watch (thread : RecordId) : List GuestAct → Update (List Observation)
  | [] => return []
  | act :: rest => do return (← observe thread act) :: (← watch thread rest)

/-! ## Collected machines -/

/-- There is nothing to collect. -/
structure Collected (thread : RecordId) (s : Machine) : Prop where
  answer : ∃ t, s.threads[thread]? = some t ∧ t.answer = none
  journal : s.journal = #[]

variable {thread : RecordId} {s : Machine}

/-- What was collected is gone. -/
theorem collect_collected (thread : RecordId) (s : Machine) : Collected thread (collect thread s).2 where
  answer := ⟨{ s.thread thread with answer := none }, Std.TreeMap.getElem?_insert_self, rfl⟩
  journal := rfl

/-- The thread that is there is the one that is found. -/
theorem Collected.thread_eq {t : Thread} (h : s.threads[thread]? = some t) : s.thread thread = t := Records.getD_of_getElem? h _

/-- Collecting again brings nothing. -/
theorem Collected.collect (h : Collected thread s) : collect thread s = ((none, #[]), s) := by
  obtain ⟨t, ht, hanswer⟩ := h.answer
  have hthreads : s.threads.insert thread { s.thread thread with answer := none } = s.threads := by
    rw [Collected.thread_eq ht, ← hanswer]
    exact Records.insert_self ht
  change (((s.thread thread).answer, s.journal), { s with
    threads := s.threads.insert thread { s.thread thread with answer := none }, journal := #[] }) = _
  rw [hthreads, Collected.thread_eq ht, hanswer, ← h.journal]

/-- Collecting changes no gate. -/
theorem collect_gates (thread : RecordId) : Keeps SameGates (collect thread) :=
  Keeps.look fun _ => after_setThread rfl rfl ((Keeps.modify fun _ => .of_eq rfl rfl).bind fun _ => .pure _)

/-- After a look at an act there is nothing to collect. -/
theorem observe_collected (thread : RecordId) (act : GuestAct) (s : Machine) : Collected thread (observe thread act s).2 :=
  collect_collected _ _

/-! ## Denied calls -/

/-- A call that the gate denies is told to the journal and answered at once. -/
theorem submitCall_of_denied {call : GuestCall} {id : CallId} (h : (s.gate thread).denied? call = some id) :
    ∃ line, submitCall thread call s = (do log .warn line; finishCall thread (.error (.notPermitted id.number)) : Update Unit) s := by
  have hcall : call.callId? = some id ∧ (s.gate thread).admits id = false ∧ submitCall thread call = enterCall thread call := by
    cases call <;> simp_all [Gate.denied?, GuestCall.callId?, submitCall]
  obtain ⟨hid, hadmits, hsubmit⟩ := hcall
  have hpermits : s.permits thread id = false := hadmits
  refine ⟨s!"{(s.process (s.thread thread).process).name}: supervisor call {Text.hex id.number} denied by capabilities", ?_⟩
  rw [hsubmit]
  simp only [enterCall, hid]
  rw [Update.run_look, hpermits]
  rfl

/-- A thread that is idle makes its call; any other thread stays as it is. -/
theorem perform_call (thread : RecordId) (call : GuestCall) (s : Machine) :
    perform thread (.call call) s = if s.isIdle thread then submitCall thread call s else ((), s) := by
  change (if s.isIdle thread = true then submitCall thread call else pure () : Update Unit) s = _
  split <;> rfl

/-- An observation tells the act, the gate in front of it, and what is collected after it. -/
theorem observe_run (thread : RecordId) (act : GuestAct) (s : Machine) : observe thread act s =
    ({ act, gate := s.gate thread, idle := s.isIdle thread, answer := (collect thread (perform thread act s).2).1.1,
       lines := (collect thread (perform thread act s).2).1.2 }, (collect thread (perform thread act s).2).2) := rfl

section

variable {t : Thread} (ht : s.threads[thread]? = some t)
include ht

/-- A thread that stood between two calls only gets its answer. -/
theorem finishCall_run (hidle : t.activity = .idle) (id : Nat) : (finishCall thread (.error (.notPermitted id)) s).2 =
    { s with threads := s.threads.insert thread { t with answer := some (.error (.notPermitted id)) } } := by
  let answered := { t with answer := some (.error (.notPermitted id)) }
  have hanswered : (s.threads.insert thread answered).getD thread default = answered := Std.TreeMap.getD_insert_self
  have hactivity : { answered with activity := .idle } = answered := by
    change { answered with activity := .idle } = { answered with activity := t.activity }
    rw [hidle]
  have hrun : (finishCall thread (.error (.notPermitted id)) s).2 = { s with
      threads := (s.threads.insert thread { s.thread thread with answer := some (.error (.notPermitted id)) }).insert thread
        { (s.threads.insert thread { s.thread thread with answer := some (.error (.notPermitted id)) }).getD thread default with
          activity := .idle } } := rfl
  rw [hrun, Collected.thread_eq ht, hanswered, hactivity, Records.insert_insert ht]

/-- Collecting undoes an answer and what was written. -/
theorem collect_answered (hanswer : t.answer = none) (hjournal : s.journal = #[]) (answer : Except KernelError CallValue)
    (journal : Array JournalLine) :
    collect thread { s with threads := s.threads.insert thread { t with answer := some answer }, journal } =
      ((some answer, journal), s) := by
  let answered := { t with answer := some answer }
  have hanswered : (s.threads.insert thread answered).getD thread default = answered := Std.TreeMap.getD_insert_self
  have hback : { answered with answer := none } = t := by
    change { t with answer := none } = t
    rw [← hanswer]
  have hrun : collect thread { s with threads := s.threads.insert thread answered, journal } =
      ((((s.threads.insert thread answered).getD thread default).answer, journal), { s with
        threads := (s.threads.insert thread answered).insert thread
          { (s.threads.insert thread answered).getD thread default with answer := none }
        journal := #[] }) := rfl
  rw [hrun, hanswered, hback, Records.insert_insert ht, Records.insert_self ht, ← hjournal]

end

/-- A call that is denied is answered at once, and leaves a machine from which everything was collected as it was. -/
theorem observe_denied (hs : Collected thread s) {call : GuestCall} {id : CallId} (h : (s.gate thread).denied? call = some id)
    (hidle : s.isIdle thread = true) : ∃ lines, observe thread (.call call) s =
      ({ act := .call call, gate := s.gate thread, idle := true, answer := some (.error (.notPermitted id.number)), lines }, s) := by
  obtain ⟨line, hline⟩ := submitCall_of_denied h
  obtain ⟨t, ht, hanswer⟩ := hs.answer
  have hactivity : t.activity = .idle := by
    rw [isIdle, Collected.thread_eq ht] at hidle
    cases hcase : t.activity <;> simp_all
  let journal := s.journal.push { level := .warn, text := line }
  have hdenied : (perform thread (.call call) s).2 =
      { s with threads := s.threads.insert thread { t with answer := some (.error (.notPermitted id.number)) }, journal } := by
    rw [perform_call, if_pos hidle, hline]
    exact finishCall_run (s := { s with journal }) ht hactivity id.number
  refine ⟨journal, ?_⟩
  rw [observe_run, hdenied, collect_answered ht hanswer hs.journal, hidle]

/-- A thread that is blocked in a call makes no other. -/
theorem observe_blocked (hs : Collected thread s) {call : GuestCall} (hidle : s.isIdle thread = false) :
    observe thread (.call call) s = ({ act := .call call, gate := s.gate thread, idle := false, answer := none, lines := #[] }, s) := by
  rw [observe_run, perform_call, hidle, if_neg Bool.false_ne_true, hs.collect]

/-- A denied call leaves the machine as it was. -/
theorem observe_of_isDenied (hs : Collected thread s) {act : GuestAct} (h : act.isDenied (s.gate thread) = true) :
    (observe thread act s).2 = s := by
  cases act with
  | others program => exact absurd h Bool.false_ne_true
  | call made =>
    obtain ⟨id, hid⟩ := Option.isSome_iff_exists.1 h
    cases hidle : s.isIdle thread with
    | true =>
      obtain ⟨lines, hrun⟩ := observe_denied hs hid hidle
      rw [hrun]
    | false => rw [observe_blocked hs hidle]

/-! ## Runs -/

/-- The first act is observed, and then the others. -/
theorem watch_cons (thread : RecordId) (act : GuestAct) (rest : List GuestAct) (s : Machine) : watch thread (act :: rest) s =
    ((observe thread act s).1 :: (watch thread rest (observe thread act s).2).1, (watch thread rest (observe thread act s).2).2) := rfl

/-- An act is seen to be denied exactly if its gate denies it. -/
theorem isDenied_observe (thread : RecordId) (act : GuestAct) (s : Machine) :
    (observe thread act s).1.isDenied = act.isDenied (s.gate thread) := rfl

/-- The observations of acts that were not denied. -/
def permitted (seen : List Observation) : List Observation := seen.filter (!·.isDenied)

/-- The observations of acts that were not denied leave out the first one if its gate denies it. -/
theorem permitted_watch_cons (thread : RecordId) (act : GuestAct) (rest : List GuestAct) (s : Machine) :
    permitted (watch thread (act :: rest) s).1 =
      if act.isDenied (s.gate thread) then permitted (watch thread rest (observe thread act s).2).1
      else (observe thread act s).1 :: permitted (watch thread rest (observe thread act s).2).1 := by
  rw [watch_cons, permitted, List.filter_cons, isDenied_observe]
  cases act.isDenied (s.gate thread) <;> rfl

/-- Every denied call of a run that the thread could make was answered at once. -/
theorem watch_denied (hs : Collected thread s) (acts : List GuestAct) {o : Observation} (ho : o ∈ (watch thread acts s).1)
    {call : GuestCall} {id : CallId} (hact : o.act = .call call) (h : o.gate.denied? call = some id) (hidle : o.idle = true) :
    o.answer = some (.error (.notPermitted id.number)) := by
  induction acts generalizing s with
  | nil => cases ho
  | cons act rest ih =>
    rw [watch_cons] at ho
    rcases List.mem_cons.1 ho with rfl | ho
    · change act = .call call at hact
      subst hact
      obtain ⟨lines, hrun⟩ := observe_denied hs h hidle
      rw [hrun]
    · exact ih (observe_collected thread act s) ho

/-- Without the denied calls of a run there are the same observations of the other acts, and the same machine. -/
theorem watch_permitted (hs : Collected thread s) (acts : List GuestAct) :
    watch thread ((permitted (watch thread acts s).1).map (·.act)) s =
      (permitted (watch thread acts s).1, (watch thread acts s).2) := by
  induction acts generalizing s with
  | nil => rfl
  | cons act rest ih =>
    have hrest := ih (observe_collected thread act s)
    rw [permitted_watch_cons, watch_cons]
    split
    · next h =>
      rw [observe_of_isDenied hs h] at hrest ⊢
      exact hrest
    · change watch thread (act :: _) s = _
      rw [watch_cons, hrest]

/-- What the others do leaves it to the thread which calls it may make. -/
def Unmeddled (thread : RecordId) (acts : List GuestAct) : Prop :=
  ∀ program, .others program ∈ acts → ∀ s, (program s).2.gate thread = s.gate thread

/-- No call of a thread changes its gate. -/
theorem gate_observe {act : GuestAct} (h : Unmeddled thread [act]) (s : Machine) :
    (observe thread act s).2.gate thread = s.gate thread := by
  have hperform : (perform thread act s).2.gate thread = s.gate thread := by
    cases act with
    | others program => exact h program List.mem_cons_self s
    | call made =>
      rw [perform_call]
      split
      · exact (submitCall_gates thread made s).gate thread
      · rfl
  exact ((collect_gates thread _).gate thread).trans hperform

/-- With one gate all along, the acts that are not denied are found without a run. -/
theorem map_act_permitted {acts : List GuestAct} (h : Unmeddled thread acts) (s : Machine) :
    (permitted (watch thread acts s).1).map (·.act) = acts.filter (!·.isDenied (s.gate thread)) := by
  induction acts generalizing s with
  | nil => rfl
  | cons act rest ih =>
    have hrest := ih (fun program hp => h program (List.mem_cons_of_mem _ hp)) (observe thread act s).2
    have hact : Unmeddled thread [act] := fun program hp => h program (List.mem_singleton.1 hp ▸ List.mem_cons_self)
    rw [gate_observe hact] at hrest
    rw [permitted_watch_cons, List.filter_cons]
    cases act.isDenied (s.gate thread) with
    | true => exact hrest
    | false => exact congrArg (act :: ·) hrest

/-- **Denied calls do nothing.** Whatever a guest thread calls and others do around it, each call that is made and that the gate of
the thread does not admit is answered with a refusal. The run without the denied calls gives the same observations of everything
else, and the same machine; with one gate all along, this is the run of the calls that the gate admits. -/
theorem denied_calls_inert (thread : RecordId) (m : Machine) (acts : List GuestAct) :
    let start := (collect thread m).2
    let seen := (watch thread acts start).1
    (∀ o ∈ seen, ∀ call id, o.act = .call call → o.gate.denied? call = some id → o.idle = true →
      o.answer = some (.error (.notPermitted id.number))) ∧
    watch thread ((permitted seen).map (·.act)) start = (permitted seen, (watch thread acts start).2) ∧
    (Unmeddled thread acts → (permitted seen).map (·.act) = acts.filter (!·.isDenied (m.gate thread))) := by
  have hstart : Collected thread (collect thread m).2 := collect_collected thread m
  refine ⟨fun o ho call id hact h hidle => watch_denied hstart acts ho hact h hidle, watch_permitted hstart acts, fun h => ?_⟩
  have hpermitted := map_act_permitted h (collect thread m).2
  rwa [(collect_gates thread m).gate thread] at hpermitted

end Machine

end Microkernel
