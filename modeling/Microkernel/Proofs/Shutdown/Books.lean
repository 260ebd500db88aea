import Microkernel.Proofs.Shutdown.Pairs

/-!
# What is known while a kernel is shut down

No two calls share a process or a thread, and the flags of a call say where its pair stands (`Start.Stands`). A process that has
joined the set is terminated, or is found there, or has lost its place to another (`Closing.Books`). Every step of a call and of the
shutdown keeps this (`Closing.Inv.step`).
-/

namespace Microkernel.Machine

variable {s t : Machine}

/-! ## The invariant -/

/-- The flags of a start call say where its process and its thread stand. -/
structure Start.Stands (x : Start) (s : Machine) : Prop where
  guest : x.call.body = .guest
  absent : x.stage.pair? = none → x.startedLate = false ∧ x.enteredLate = false
  phase : ∀ p, x.stage.pair? = some p → ∃ φ : Phase, p.standing s = φ.standing ∧ x.stage.isReturned = φ.isStarted ∧
    x.startedLate = φ.startedLate ∧ x.enteredLate = φ.enteredLate

/-- The flags of a start call say where its pair stands as long as the pair stands there. -/
theorem Start.Stands.shift {x : Start} (h : x.Stands s) (hp : ∀ p, x.stage.pair? = some p → p.standing t = p.standing s) :
    x.Stands t where
  guest := h.guest
  absent := h.absent
  phase p hx := by
    rw [hp p hx]
    exact h.phase p hx

/-- A call goes on without starting its thread. -/
theorem Start.Stands.restage {x : Start} (h : x.Stands s) (stage : StartStage) (hpair : stage.pair? = x.stage.pair?)
    (hreturned : stage.isReturned = x.stage.isReturned) : Start.Stands { x with stage } s where
  guest := h.guest
  absent hp := h.absent (hpair.symm.trans hp)
  phase p hp := by
    obtain ⟨φ, hφ, hstarted, hlate⟩ := h.phase p (hpair.symm.trans hp)
    exact ⟨φ, hφ, hreturned.trans hstarted, hlate⟩

/-- A call whose process is terminated keeps its flags, and the process is terminated then. -/
theorem Start.Stands.terminate {x : Start} {p : Pair} (h : x.Stands s) (hpair : x.stage.pair? = some p)
    (hstanding : p.standing t = (p.standing s).terminated) : x.Stands t ∧ (p.standing t).process = .terminated := by
  obtain ⟨φ, hφ, hstarted, hstartedLate, henteredLate⟩ := h.phase p hpair
  obtain ⟨hstarted', hstartedLate', henteredLate', hended⟩ := φ.terminated_late
  have hafter : p.standing t = φ.terminated.standing := by rw [hstanding, hφ, Phase.standing_terminated]
  refine ⟨?_, (congrArg Standing.process hafter).trans hended⟩
  constructor
  case guest => exact h.guest
  case absent => exact fun hp => (Option.some_ne_none p (hpair.symm.trans hp)).elim
  case phase =>
    intro q hq
    obtain rfl := Option.some.inj (hpair.symm.trans hq)
    exact ⟨φ.terminated, hafter, hstarted.trans hstarted'.symm, hstartedLate.trans hstartedLate'.symm,
      henteredLate.trans henteredLate'.symm⟩

/-- A process that has joined the set has its pair. -/
theorem StartStage.pair?_of_enlisted? {stage : StartStage} {p : Pair} (h : stage.enlisted? = some p) : stage.pair? = some p := by
  cases stage <;> first | exact h | cases h

namespace Closing

/-- The pairs of the start calls, and the one that does the work of the shutdown. -/
def pair? (c : Closing) : Option Nat → Option Pair
  | some i => (c.starts[i]?).bind (·.stage.pair?)
  | none => c.shutdown.host?

/-- The process of a start call has joined the set. -/
def Enlisted (c : Closing) (id : RecordId) : Prop :=
  ∃ (i : Nat) (p : Pair), (c.starts[i]?).bind (·.stage.enlisted?) = some p ∧ p.process = id

/-- A start call is about to enlist its process. -/
def Reaped (c : Closing) : Prop := ∃ (i : Nat) (x : Start) (p : Pair), c.starts[i]? = some x ∧ x.stage = .reaped p

/-- What is known of the process set. -/
structure Books (c : Closing) : Prop where
  member : ∀ (pid : Nat) id, c.set[pid]? = some id → (c.machine.process id).pid = pid ∧ id ∈ c.unswept ∧ c.Enlisted id
  kept : ∀ id, c.Enlisted id →
    (c.machine.process id).state = .terminated ∨ c.set[(c.machine.process id).pid]? = some id ∨ id ∈ c.displaced
  displaced : ∀ id ∈ c.displaced, c.Enlisted id ∧
    ∃ other, c.Enlisted other ∧ other ≠ id ∧ (c.machine.process other).pid = (c.machine.process id).pid
  unswept : c.unswept = [] ∨ (∃ (pid : Nat) (id : RecordId), c.set[pid]? = some id) ∨ c.Reaped
  taken : ∀ host rest, c.shutdown = .terminating host rest → (∀ id ∈ rest, c.Enlisted id) ∧
    ∀ (pid : Nat) id, c.set[pid]? = some id → id ∈ rest ∨ (c.machine.process id).state = .terminated

/-- What holds between two steps. -/
structure Inv (c : Closing) : Prop where
  apart : Apart c.pair? c.machine
  stands : ∀ (i : Nat) x, c.starts[i]? = some x → x.Stands c.machine
  books : c.Books

variable {c c' : Closing} {i : Nat} {x y : Start}

/-! ### Changing one call -/

/-- What is looked up of calls after one of them was replaced. -/
theorem bind_set {β : Type} {starts : List Start} (hx : starts[i]? = some x) (y : Start) (g : Start → Option β) (j : Nat) :
    ((starts.set i y)[j]?).bind g = if j = i then g y else (starts[j]?).bind g := by
  obtain ⟨hi, -⟩ := List.getElem?_eq_some_iff.1 hx
  rw [List.getElem?_set]
  by_cases hj : j = i
  · rw [if_pos hj.symm, if_pos (hj ▸ hi), if_pos hj]
    rfl
  · rw [if_neg (Ne.symm hj), if_neg hj]

/-- A call of which there is nothing to look up adds nothing. -/
theorem bind_concat {β : Type} (starts : List Start) {y : Start} {g : Start → Option β} (hy : g y = none) (j : Nat) :
    ((starts ++ [y])[j]?).bind g = (starts[j]?).bind g := by
  rw [List.getElem?_append]
  split
  · rfl
  · next hj =>
    rw [List.getElem?_eq_none (Nat.le_of_not_lt hj)]
    cases h : [y][j - starts.length]? with
    | none => rfl
    | some z =>
      have hz : z = y := List.mem_singleton.1 (List.mem_of_getElem? h)
      rw [hz]
      exact hy

/-- An enlisted process has a start call whose pair it is part of. -/
theorem Enlisted.seat {id : RecordId} (h : c.Enlisted id) : ∃ i p, c.pair? (some i) = some p ∧ p.process = id := by
  obtain ⟨i, p, hp, rfl⟩ := h
  obtain ⟨x, hx, hp⟩ := Option.bind_eq_some_iff.1 hp
  exact ⟨i, p, Option.bind_eq_some_iff.2 ⟨x, hx, StartStage.pair?_of_enlisted? hp⟩, rfl⟩

/-- The books are right as long as the same processes have joined the same set. -/
theorem Books.shift (h : c.Books) (hpid : ∀ id, c.Enlisted id → (c'.machine.process id).pid = (c.machine.process id).pid)
    (hterminated : ∀ id, c.Enlisted id → (c.machine.process id).state = .terminated → (c'.machine.process id).state = .terminated)
    (hset : c'.set = c.set) (hunswept : c'.unswept = c.unswept) (hdisplaced : c'.displaced = c.displaced)
    (henlisted : ∀ id, c'.Enlisted id ↔ c.Enlisted id) (hreaped : c.Reaped → c'.Reaped)
    (htaken : ∀ host rest, c'.shutdown = .terminating host rest → (∀ id ∈ rest, c.Enlisted id) ∧
      ∀ (pid : Nat) id, c.set[pid]? = some id → id ∈ rest ∨ (c'.machine.process id).state = .terminated) : c'.Books where
  member pid id hm := by
    obtain ⟨hp, hu, he⟩ := h.member pid id (hset ▸ hm)
    exact ⟨(hpid id he).trans hp, hunswept ▸ hu, (henlisted id).2 he⟩
  kept id he := by
    have he := (henlisted id).1 he
    rw [hset, hdisplaced, hpid id he]
    exact (h.kept id he).imp_left (hterminated id he)
  displaced id hd := by
    obtain ⟨he, other, ho, hne, hp⟩ := h.displaced id (hdisplaced ▸ hd)
    exact ⟨(henlisted id).2 he, other, (henlisted other).2 ho, hne, (hpid other ho).trans (hp.trans (hpid id he).symm)⟩
  unswept := by
    rw [hset, hunswept]
    exact h.unswept.imp_right (Or.imp_right hreaped)
  taken host rest hr := by
    obtain ⟨he, hm⟩ := htaken host rest hr
    exact ⟨fun id hid => (henlisted id).2 (he id hid), fun pid id hs => hm pid id (hset ▸ hs)⟩

/-! ### Changing one call -/

/-- When a call is replaced only its own pair changes. -/
theorem pair?_put (hx : c.starts[i]? = some x) (hstarts : c'.starts = c.starts.set i y) (hshutdown : c'.shutdown = c.shutdown)
    (k : Option Nat) : c'.pair? k = if k = some i then y.stage.pair? else c.pair? k := by
  cases k with
  | none =>
    rw [if_neg (Option.some_ne_none i).symm, pair?, pair?, hshutdown]
  | some j =>
    simp only [pair?, hstarts, bind_set hx, Option.some.injEq]

/-- When a call is replaced by one that has enlisted the same, the same processes are enlisted. -/
theorem enlisted_put (hx : c.starts[i]? = some x) (hstarts : c'.starts = c.starts.set i y)
    (hsame : y.stage.enlisted? = x.stage.enlisted?) (id : RecordId) : c'.Enlisted id ↔ c.Enlisted id := by
  have hbind (j : Nat) : (c'.starts[j]?).bind (·.stage.enlisted?) = (c.starts[j]?).bind (·.stage.enlisted?) := by
    rw [hstarts, bind_set hx]
    split
    · next hj =>
      rw [hj, hx, hsame]
      rfl
    · rfl
  simp only [Enlisted, hbind]

/-- A process that joins the set. -/
theorem enlisted_add {p : Pair} (hx : c.starts[i]? = some x) (hstarts : c'.starts = c.starts.set i y)
    (hbefore : x.stage.enlisted? = none) (hafter : y.stage.enlisted? = some p) (id : RecordId) :
    c'.Enlisted id ↔ id = p.process ∨ c.Enlisted id := by
  constructor
  · rintro ⟨j, q, hq, rfl⟩
    rw [hstarts, bind_set hx] at hq
    split at hq
    · exact .inl (congrArg Pair.process (Option.some.inj (hq.symm.trans hafter)))
    · exact .inr ⟨j, q, hq, rfl⟩
  · rintro (rfl | ⟨j, q, hq, rfl⟩)
    · exact ⟨i, p, by rw [hstarts, bind_set hx, if_pos rfl, hafter], rfl⟩
    · refine ⟨j, q, ?_, rfl⟩
      rw [hstarts, bind_set hx, if_neg]
      · exact hq
      · rintro rfl
        rw [hx] at hq
        cases hbefore.symm.trans hq

/-- Some start call is still about to enlist its process when one is replaced by a call that is about to if the old one was. -/
theorem reaped_put (hx : c.starts[i]? = some x) (hstarts : c'.starts = c.starts.set i y)
    (hsame : ∀ p, x.stage = .reaped p → y.stage = .reaped p) (h : c.Reaped) : c'.Reaped := by
  obtain ⟨j, z, p, hz, hp⟩ := h
  by_cases hj : j = i
  · subst hj
    obtain rfl := Option.some.inj (hx.symm.trans hz)
    refine ⟨j, y, p, ?_, hsame p hp⟩
    rw [hstarts, List.getElem?_set_self (List.getElem?_eq_some_iff.1 hx).1]
  · refine ⟨j, z, p, ?_, hp⟩
    rw [hstarts, List.getElem?_set_ne (Ne.symm hj), hz]

/-- The flags of the other calls stand when a call is replaced and only its own pair is moved. -/
theorem Inv.stands_put (h : c.Inv) {f : Option Nat → Standing → Standing} (hs : Shifts c.pair? f c.machine c'.machine)
    (hf : ∀ j a, j ≠ i → f (some j) a = a) (hstarts : c'.starts = c.starts.set i y) (hy : y.Stands c'.machine) :
    ∀ (j : Nat) z, c'.starts[j]? = some z → z.Stands c'.machine := by
  intro j z hz
  rw [hstarts] at hz
  by_cases hj : j = i
  · subst hj
    have hi : j < c.starts.length := by
      by_contra hout
      rw [List.getElem?_eq_none (by rw [List.length_set]; exact Nat.le_of_not_lt hout)] at hz
      cases hz
    rw [List.getElem?_set_self hi] at hz
    exact Option.some.inj hz ▸ hy
  · rw [List.getElem?_set_ne (Ne.symm hj)] at hz
    refine (h.stands j z hz).shift fun p hp => ?_
    rw [hs.standing (some j) p (Option.bind_eq_some_iff.2 ⟨z, hz, hp⟩), hf j _ hj]

/-- A call goes on with the pair that it has, or loses it. -/
theorem Inv.put (h : c.Inv) (hx : c.starts[i]? = some x) {f : Option Nat → Standing → Standing}
    (hs : Shifts c.pair? f c.machine c'.machine) (hf : ∀ j a, j ≠ i → f (some j) a = a) (hstarts : c'.starts = c.starts.set i y)
    (hshutdown : c'.shutdown = c.shutdown) (hpair : ∀ p, y.stage.pair? = some p → x.stage.pair? = some p)
    (hy : y.Stands c'.machine) (hbooks : c'.Books) : c'.Inv where
  apart := by
    refine h.apart.shift hs fun k p hp => ?_
    rw [pair?_put hx hstarts hshutdown] at hp
    split at hp
    · next hk =>
      rw [hk]
      exact Option.bind_eq_some_iff.2 ⟨x, hx, hpair p hp⟩
    · exact hp
  stands := h.stands_put hs hf hstarts hy
  books := hbooks

/-- An enlisted process keeps its pid while pairs shift. -/
theorem pid_of_shifts {f : Option Nat → Standing → Standing} (hs : Shifts c.pair? f c.machine t) (id : RecordId)
    (he : c.Enlisted id) : (t.process id).pid = (c.machine.process id).pid := by
  obtain ⟨i, p, hp, rfl⟩ := he.seat
  exact hs.pid _ p hp

/-- A terminated process that is enlisted stays terminated, if its pair does not shift out of that. -/
theorem terminated_of_shifts {f : Option Nat → Standing → Standing} (hs : Shifts c.pair? f c.machine t)
    (hf : ∀ j p, c.pair? (some j) = some p → (p.standing c.machine).process = .terminated →
      (f (some j) (p.standing c.machine)).process = .terminated) (id : RecordId) (he : c.Enlisted id)
    (hterminated : (c.machine.process id).state = .terminated) : (t.process id).state = .terminated := by
  obtain ⟨i, p, hp, rfl⟩ := he.seat
  exact (congrArg Standing.process (hs.standing _ p hp)).trans (hf i p hp hterminated)

/-- While the set is not held, nothing is left to terminate. -/
theorem not_terminating (h : ¬c.shutdown.holdsSet = true) (host : Pair) (rest : List RecordId) :
    c.shutdown ≠ .terminating host rest := by
  intro heq
  rw [heq] at h
  exact h rfl

/-- The books are right as long as no terminated process comes to life and the shutdown takes no process. -/
theorem Books.shifts (h : c.Books) {f : Option Nat → Standing → Standing} (hs : Shifts c.pair? f c.machine c'.machine)
    (hf : ∀ j p, c.pair? (some j) = some p → (p.standing c.machine).process = .terminated →
      (f (some j) (p.standing c.machine)).process = .terminated)
    (hset : c'.set = c.set) (hunswept : c'.unswept = c.unswept) (hdisplaced : c'.displaced = c.displaced)
    (henlisted : ∀ id, c'.Enlisted id ↔ c.Enlisted id) (hreaped : c.Reaped → c'.Reaped)
    (hshutdown : ∀ host rest, c'.shutdown = .terminating host rest → c.shutdown = .terminating host rest) : c'.Books := by
  refine h.shift (pid_of_shifts hs) (terminated_of_shifts hs hf) hset hunswept hdisplaced henlisted hreaped fun host rest hr => ?_
  obtain ⟨he, hm⟩ := h.taken host rest (hshutdown host rest hr)
  exact ⟨he, fun pid id hid => (hm pid id hid).imp_right (terminated_of_shifts hs hf id (h.member pid id hid).2.2)⟩

/-- The books are right once the terminated processes have left the set. -/
theorem Books.reap (h : c.Books) (hprocess : ∀ id, c'.machine.process id = c.machine.process id)
    (hset : ∀ pid : Nat, c'.set[pid]? = (c.set[pid]?).filter fun id => (c.machine.process id).state ≠ .terminated)
    (hunswept : c'.unswept = c.unswept) (hdisplaced : c'.displaced = c.displaced) (henlisted : ∀ id, c'.Enlisted id ↔ c.Enlisted id)
    (hreaped : c'.Reaped) (hfree : ∀ host rest, c'.shutdown ≠ .terminating host rest) : c'.Books := by
  constructor
  case member =>
    intro pid id hm
    obtain ⟨hp, hu, he⟩ := h.member pid id (Option.filter_eq_some_iff.1 ((hset pid).symm.trans hm)).1
    exact ⟨(congrArg Process.pid (hprocess id)).trans hp, hunswept ▸ hu, (henlisted id).2 he⟩
  case kept =>
    intro id he
    rw [hprocess, hset, hdisplaced]
    rcases h.kept id ((henlisted id).1 he) with hstate | hm | hd
    · exact .inl hstate
    · by_cases hstate : (c.machine.process id).state = .terminated
      · exact .inl hstate
      · exact .inr (.inl (Option.filter_eq_some_iff.2 ⟨hm, decide_eq_true hstate⟩))
    · exact .inr (.inr hd)
  case displaced =>
    intro id hd
    obtain ⟨he, other, ho, hrest⟩ := h.displaced id (hdisplaced ▸ hd)
    simp only [hprocess]
    exact ⟨(henlisted id).2 he, other, (henlisted other).2 ho, hrest⟩
  case unswept => exact .inr (.inr hreaped)
  case taken => exact fun host rest hr => absurd hr (hfree host rest)

/-- The books are right once a new process has joined the set, and the one whose place it took is noted. -/
theorem Books.join (h : c.Books) {id : RecordId} (hpid : ∀ other, (c'.machine.process other).pid = (c.machine.process other).pid)
    (hstate : ∀ other, (c'.machine.process other).state = (c.machine.process other).state)
    (hset : ∀ pid : Nat, c'.set[pid]? = if pid = (c.machine.process id).pid then some id else c.set[pid]?)
    (hunswept : c'.unswept = id :: c.unswept)
    (hdisplaced : c'.displaced = c.set[(c.machine.process id).pid]?.toList ++ c.displaced)
    (henlisted : ∀ other, c'.Enlisted other ↔ other = id ∨ c.Enlisted other) (hnew : ∀ other, c.Enlisted other → other ≠ id)
    (hfree : ∀ host rest, c'.shutdown ≠ .terminating host rest) : c'.Books := by
  constructor
  case member =>
    intro pid other hm
    rw [hunswept]
    rw [hset] at hm
    split at hm
    · next hp =>
      obtain rfl := Option.some.inj hm
      exact ⟨(hpid _).trans hp.symm, List.mem_cons_self, (henlisted _).2 (.inl rfl)⟩
    · obtain ⟨hp, hu, he⟩ := h.member pid other hm
      exact ⟨(hpid other).trans hp, List.mem_cons_of_mem _ hu, (henlisted other).2 (.inr he)⟩
  case kept =>
    intro other he
    rw [hpid, hstate, hset, hdisplaced]
    rcases (henlisted other).1 he with rfl | he
    · rw [if_pos rfl]
      exact .inr (.inl rfl)
    · rcases h.kept other he with hterminated | hm | hd
      · exact .inl hterminated
      · split
        · next hp =>
          rw [hp] at hm
          exact .inr (.inr (List.mem_append_left _ (Option.mem_toList.2 hm)))
        · exact .inr (.inl hm)
      · exact .inr (.inr (List.mem_append_right _ hd))
  case displaced =>
    intro other hd
    rw [hdisplaced] at hd
    simp only [hpid]
    rcases List.mem_append.1 hd with hd | hd
    · obtain ⟨hp, -, he⟩ := h.member _ other (Option.mem_toList.1 hd)
      exact ⟨(henlisted other).2 (.inr he), id, (henlisted _).2 (.inl rfl), (hnew other he).symm, hp.symm⟩
    · obtain ⟨he, third, ho, hne, hp⟩ := h.displaced other hd
      exact ⟨(henlisted other).2 (.inr he), third, (henlisted third).2 (.inr ho), hne, hp⟩
  case unswept => exact .inr (.inl ⟨_, id, (hset _).trans (if_pos rfl)⟩)
  case taken => exact fun host rest hr => absurd hr (hfree host rest)

/-! ### Steps of a call -/

/-- A process is made for the call, or nothing has changed. -/
theorem Inv.make (h : c.Inv) {capabilities : Capabilities} (hx : c.starts[i]? = some x) (hstage : x.stage = .admitted capabilities) :
    (c.advance i x).Inv := by
  have hguest := (h.stands i x hx).guest
  have habsent := (h.stands i x hx).absent (by rw [hstage]; rfl)
  have hbefore : x.stage.enlisted? = none := by rw [hstage]; rfl
  have hreaped {y : Start} (p : Pair) (hp : x.stage = .reaped p) : y.stage = .reaped p := nomatch hstage.symm.trans hp
  obtain ⟨hok, hfail⟩ := StartCall.make_spec hguest c.kernel capabilities c.machine
  rw [advance, hstage]
  dsimp only
  rcases hrun : (x.call.make c.kernel capabilities).run c.machine with ⟨e | p, t⟩
  · have hleaves := hfail e t hrun
    have hs := h.apart.shifts_of_old hleaves.nextId hleaves.process fun id _ => hleaves.thread id
    refine h.put hx (y := { x with stage := .returned none }) hs (fun _ _ _ => rfl) rfl rfl (fun p hp => nomatch hp)
      ⟨hguest, fun _ => habsent, fun p hp => nomatch hp⟩ ?_
    exact h.books.shifts hs (fun _ _ _ h => h) hleaves.processes rfl rfl (enlisted_put hx rfl hbefore.symm)
      (reaped_put hx rfl hreaped) fun _ _ hr => hr
  · have hmakes := hok p t hrun
    have hs := h.apart.shifts_of_old hmakes.nextId hmakes.otherProcess fun id hid =>
      hmakes.otherThread id (Nat.ne_of_lt (Nat.lt_of_lt_of_le hid hmakes.fresh.2))
    let c' : Closing := { c with machine := t, starts := c.starts.set i { x with stage := .made p } }
    have hy : Start.Stands { x with stage := .made p } t := by
      refine ⟨hguest, fun hp => (nomatch hp), fun q hq => ⟨.waiting false, ?_, rfl, habsent⟩⟩
      obtain rfl := Option.some.inj hq
      exact hmakes.standing
    have hbooks : c'.Books := h.books.shifts hs (fun _ _ _ h => h) hmakes.processes rfl rfl (enlisted_put hx rfl hbefore.symm)
      (reaped_put hx rfl hreaped) fun _ _ hr => hr
    refine ⟨?_, h.stands_put hs (fun _ _ _ => rfl) rfl hy, hbooks⟩
    refine h.apart.seat hs (k := some i) ⟨hmakes.old.1, hmakes.old.2, hmakes.solo⟩ hmakes.fresh fun l q hq => ?_
    have hpair : c'.pair? l = if l = some i then some p else c.pair? l :=
      pair?_put hx (show c'.starts = c.starts.set i { x with stage := .made p } from rfl) rfl l
    rw [show c'.pair? l = some q from hq] at hpair
    have hq := hpair.symm
    split at hq
    · next hl => exact .inl ⟨hl, (Option.some.inj hq).symm⟩
    · next hl => exact .inr ⟨hl, hq⟩

/-- The terminated processes leave the set. -/
theorem Inv.reap (h : c.Inv) {p : Pair} (hx : c.starts[i]? = some x) (hstage : x.stage = .made p) : (c.advance i x).Inv := by
  rw [advance, hstage]
  dsimp only
  split
  · exact h
  · next hfree =>
    have hs := h.apart.shifts_of_quiet (.withKernel c.machine c.kernel
      { c.machine.kernel c.kernel with processes := c.machine.live (c.machine.kernel c.kernel).processes })
    let y : Start := { x with stage := .reaped p }
    let c' : Closing := { c with machine := (reapTerminated c.kernel c.machine).2, starts := c.starts.set i y }
    have hset (pid : Nat) : c'.set[pid]? = (c.set[pid]?).filter fun id => (c.machine.process id).state ≠ .terminated := by
      change ((reapTerminated c.kernel c.machine).2.kernel c.kernel).processes[pid]? = _
      rw [kernel_reapTerminated]
      exact getElem?_live _ _ _
    have hbooks : c'.Books := by
      refine h.books.reap (fun _ => rfl) hset rfl rfl (enlisted_put hx rfl (by rw [hstage]; rfl)) ?_ (not_terminating hfree)
      exact ⟨i, y, p, List.getElem?_set_self (List.getElem?_eq_some_iff.1 hx).1, rfl⟩
    exact h.put hx (y := y) hs (fun _ _ _ => rfl) rfl rfl (fun q hq => by rw [hstage]; exact hq)
      (((h.stands i x hx).restage (.reaped p) (by rw [hstage]; rfl) (by rw [hstage]; rfl)).shift fun _ _ => rfl) hbooks

/-- A process that has not joined yet is none of those that have: no other call has it. -/
theorem Inv.ne_of_enlisted (h : c.Inv) {p : Pair} {id : RecordId} (hx : c.starts[i]? = some x) (hpair : x.stage.pair? = some p)
    (hbefore : x.stage.enlisted? = none) (he : c.Enlisted id) : id ≠ p.process := by
  obtain ⟨j, q, hq, rfl⟩ := he
  obtain ⟨z, hz, hq⟩ := Option.bind_eq_some_iff.1 hq
  refine (h.apart.apart (some j) (some i) q p ?_ ?_ fun hj => ?_).1
  · exact Option.bind_eq_some_iff.2 ⟨z, hz, StartStage.pair?_of_enlisted? hq⟩
  · exact Option.bind_eq_some_iff.2 ⟨x, hx, hpair⟩
  · obtain rfl := Option.some.inj hj
    obtain rfl := Option.some.inj (hx.symm.trans hz)
    cases hbefore.symm.trans hq

/-- The process joins the set. Another one may lose its place. -/
theorem Inv.enlist (h : c.Inv) {p : Pair} (hx : c.starts[i]? = some x) (hstage : x.stage = .reaped p) : (c.advance i x).Inv := by
  rw [advance, hstage]
  dsimp only
  split
  · exact h
  · next hfree =>
    have hstill := x.call.enlist_still c.kernel p.process c.machine
    have hquiet := IsTrans.trans _ _ _ (.withKernel c.machine c.kernel _) (Quiet.of_still hstill)
    have hs := h.apart.shifts_of_quiet hquiet
    let y : Start := { x with stage := .enlisted p }
    let c' : Closing := { c with
      machine := (x.call.enlist c.kernel p.process c.machine).2
      starts := c.starts.set i y
      unswept := p.process :: c.unswept
      displaced := c.set[(c.machine.process p.process).pid]?.toList ++ c.displaced }
    have hpid (id : RecordId) : (c'.machine.process id).pid = (c.machine.process id).pid := by rw [hquiet.process]
    have hstate (id : RecordId) : (c'.machine.process id).state = (c.machine.process id).state := by rw [hquiet.process]
    have hset (pid : Nat) : c'.set[pid]? = if pid = (c.machine.process p.process).pid then some p.process else c.set[pid]? := by
      have hprocesses := (hstill.frame.kernel c.kernel).processes
      rw [kernel_withKernel, if_pos rfl] at hprocesses
      change ((x.call.enlist c.kernel p.process c.machine).2.kernel c.kernel).processes[pid]? = _
      rw [hprocesses]
      exact Records.getElem?_insert _ _ _ _
    have hpair : x.stage.pair? = some p := by rw [hstage]; rfl
    have hbefore : x.stage.enlisted? = none := by rw [hstage]; rfl
    have hbooks : c'.Books := h.books.join hpid hstate hset rfl rfl (enlisted_add (y := y) hx rfl hbefore rfl)
      (fun _ he => h.ne_of_enlisted hx hpair hbefore he) (not_terminating hfree)
    refine h.put hx (y := y) hs (fun _ _ _ => rfl) rfl rfl (fun q hq => hpair.trans hq) ?_ hbooks
    refine ((h.stands i x hx).restage (.enlisted p) (by rw [hstage]; rfl) (by rw [hstage]; rfl)).shift fun q hq => ?_
    exact hs.standing (some i) q (Option.bind_eq_some_iff.2 ⟨x, hx, hpair.trans hq⟩)

/-- The thread of the call is started, late if the process is terminated by then. -/
theorem Inv.start (h : c.Inv) {p : Pair} (hx : c.starts[i]? = some x) (hstage : x.stage = .enlisted p) : (c.advance i x).Inv := by
  have hpair : x.stage.pair? = some p := by rw [hstage]; rfl
  have hseat : c.pair? (some i) = some p := Option.bind_eq_some_iff.2 ⟨x, hx, hpair⟩
  have hs := h.apart.shifts_of_brings hseat (startThread_brings p.process p.thread)
  have hf (j : Nat) (q : Pair) (_ : c.pair? (some j) = some q) (hq : (q.standing c.machine).process = .terminated) :
      (if some j = some i then (q.standing c.machine).started else q.standing c.machine).process = .terminated := by
    split <;> exact hq
  let y : Start := { x with stage := .returned (some p), startedLate := (c.machine.process p.process).state = .terminated }
  have hy : y.Stands (startThread p.thread c.machine).2 := by
    refine ⟨(h.stands i x hx).guest, fun hp => (nomatch hp), fun q hq => ?_⟩
    obtain rfl := Option.some.inj hq
    obtain ⟨φ, hφ, hstarted, -, hlate⟩ := (h.stands i x hx).phase _ hpair
    rw [hstage] at hstarted
    cases φ with
    | waiting killed =>
      refine ⟨.starting killed, ?_, rfl, ?_, hlate⟩
      · rw [hs.standing _ _ hseat, if_pos rfl, hφ, Phase.standing_waiting]
      · have hstate : (c.machine.process p.process).state = Phase.process killed := congrArg Standing.process hφ
        change decide _ = killed
        rw [hstate]
        cases killed <;> rfl
    | starting | inside | left => cases hstarted
  rw [advance, hstage]
  refine h.put hx (y := y) hs (fun j a hj => if_neg fun hi => hj (Option.some.inj hi)) rfl rfl (fun q hq => hpair.trans hq) hy ?_
  exact h.books.shifts hs hf (((startThread_brings p.process p.thread).becomes _ (h.apart.lives _ p hseat).solo).kernel _).processes
    rfl rfl (enlisted_put (y := y) hx rfl (by rw [hstage]; rfl))
    (reaped_put (y := y) hx rfl fun q hq => nomatch hstage.symm.trans hq) fun _ _ hr => hr

/-- A call that takes its next step keeps the books. -/
theorem Inv.advance (h : c.Inv) (hx : c.starts[i]? = some x) : (c.advance i x).Inv := by
  cases hstage : x.stage with
  | admitted capabilities => exact h.make hx hstage
  | made p => exact h.reap hx hstage
  | reaped p => exact h.enlist hx hstage
  | enlisted p => exact h.start hx hstage
  | returned p =>
    rw [Closing.advance, hstage]
    exact h

/-- The thread of a call runs. -/
theorem Inv.turn (h : c.Inv) (hx : c.starts[i]? = some x) : (c.turn i x).Inv := by
  rw [Closing.turn]
  split
  · next p hpair =>
    have hseat : c.pair? (some i) = some p := Option.bind_eq_some_iff.2 ⟨x, hx, hpair⟩
    have hs := h.apart.shifts_of_brings hseat (runThread_brings p.process p.thread)
    obtain ⟨φ, hφ, hstarted, hlate, hentered⟩ := (h.stands i x hx).phase p hpair
    obtain ⟨hstarted', hlate', hentered', hterminated⟩ := φ.ran_late
    have hf (j : Nat) (q : Pair) (hj : c.pair? (some j) = some q) (hq : (q.standing c.machine).process = .terminated) :
        (if some j = some i then (q.standing c.machine).ran else q.standing c.machine).process = .terminated := by
      split
      · next hji =>
        obtain rfl := Option.some.inj (hseat.symm.trans (hji ▸ hj))
        rw [hφ] at hq ⊢
        rw [Phase.standing_ran]
        exact hterminated hq
      · exact hq
    let y : Start := { x with enteredLate := x.enteredLate ||
      ((c.machine.thread p.thread).state = .started && (c.machine.process p.process).state = .terminated) }
    have hy : y.Stands (runThread p.thread c.machine).2 := by
      refine ⟨(h.stands i x hx).guest, fun hp => (nomatch hp.symm.trans hpair), fun q hq => ?_⟩
      obtain rfl := Option.some.inj (hpair.symm.trans hq)
      refine ⟨φ.ran, ?_, hstarted.trans hstarted'.symm, hlate.trans hlate'.symm, ?_⟩
      · rw [hs.standing _ _ hseat, if_pos rfl, hφ, Phase.standing_ran]
      · rw [hentered', ← hentered, ← hφ]
        rfl
    refine h.put hx (y := y) hs (fun j a hj => if_neg fun hi => hj (Option.some.inj hi)) rfl rfl (fun _ hq => hq) hy ?_
    exact h.books.shifts hs hf (((runThread_brings p.process p.thread).becomes _ (h.apart.lives _ p hseat).solo).kernel _).processes
      rfl rfl (enlisted_put (y := y) hx rfl rfl) (reaped_put (y := y) hx rfl fun _ hq => hq) fun _ _ hr => hr
  · exact h

/-- One more call is made; it has no process yet. -/
theorem Inv.concat (h : c.Inv) (hq : Quiet c.machine t) (hset : (t.kernel c.kernel).processes = c.set) (y : Start)
    (hguest : y.call.body = .guest) (hpair : y.stage.pair? = none) (hlate : y.startedLate = false ∧ y.enteredLate = false) :
    Inv { c with machine := t, starts := c.starts ++ [y] } := by
  have hs := h.apart.shifts_of_quiet hq
  have hnone : y.stage.enlisted? = none := by
    cases he : y.stage.enlisted? with
    | none => rfl
    | some p => cases hpair.symm.trans (StartStage.pair?_of_enlisted? he)
  have henlisted (id : RecordId) : Enlisted { c with machine := t, starts := c.starts ++ [y] } id ↔ c.Enlisted id := by
    simp only [Enlisted, bind_concat c.starts (g := (·.stage.enlisted?)) hnone]
  constructor
  case apart =>
    refine h.apart.shift hs fun k p hp => ?_
    cases k with
    | none => exact hp
    | some j => exact (bind_concat c.starts (g := (·.stage.pair?)) hpair j).symm.trans hp
  case stands =>
    intro j z hz
    rcases List.mem_append.1 (List.mem_of_getElem? hz) with hold | hnew
    · obtain ⟨k, hk⟩ := List.getElem?_of_mem hold
      exact (h.stands k z hk).shift fun p hp => hs.standing (some k) p (Option.bind_eq_some_iff.2 ⟨z, hk, hp⟩)
    · rw [List.mem_singleton.1 hnew]
      exact ⟨hguest, fun _ => hlate, fun p hp => nomatch hpair.symm.trans hp⟩
  case books =>
    refine h.books.shifts hs (fun _ _ _ h => h) hset rfl rfl henlisted (fun hr => ?_) fun _ _ hr => hr
    obtain ⟨j, z, p, hz, hp⟩ := hr
    exact ⟨j, z, p, (List.getElem?_append_left (List.getElem?_eq_some_iff.1 hz).1).trans hz, hp⟩

/-- A call that begins keeps the books. -/
theorem Inv.call (h : c.Inv) (x : StartCall) : (c.step (.call x)).Inv := by
  rw [step]
  split
  · exact h.concat (refl c.machine) rfl _ rfl rfl ⟨rfl, rfl⟩
  · next ha =>
    obtain ⟨e, journal, hrun⟩ := StartCall.start_of_refused ha
    rw [hrun]
    exact h.concat (t := { c.machine with journal }) ⟨Nat.le_refl _, fun _ => rfl, fun _ => rfl⟩ rfl
      { call := { x with body := .guest }, stage := .returned none } rfl rfl ⟨rfl, rfl⟩

/-! ### Steps of the shutdown -/

/-- The calls keep their pairs, and the shutdown keeps the pair that does the work or loses it. -/
theorem Inv.apart_shut (h : c.Inv) {f : Option Nat → Standing → Standing} (hs : Shifts c.pair? f c.machine c'.machine)
    (hstarts : c'.starts = c.starts) (hhost : ∀ p, c'.shutdown.host? = some p → c.shutdown.host? = some p) :
    Apart c'.pair? c'.machine := by
  refine h.apart.shift hs fun k p hp => ?_
  cases k with
  | none => exact hhost p hp
  | some j =>
    rw [pair?, hstarts] at hp
    exact hp

/-- The shutdown goes on without touching a process of a call. -/
theorem Inv.shut (h : c.Inv) {f : Option Nat → Standing → Standing} (hs : Shifts c.pair? f c.machine t)
    (hf : ∀ j a, f (some j) a = a) (hset : (t.kernel c.kernel).processes = c.set) {shutdown : Shutdown}
    (hhost : ∀ p, shutdown.host? = some p → c.shutdown.host? = some p)
    (htaken : ∀ host rest, shutdown = .terminating host rest → (∀ id ∈ rest, c.Enlisted id) ∧
      ∀ (pid : Nat) id, c.set[pid]? = some id → id ∈ rest) : Inv { c with machine := t, shutdown } := by
  have hterminated := terminated_of_shifts hs fun j p _ hp => by rw [hf]; exact hp
  constructor
  case apart => exact h.apart_shut hs rfl hhost
  case stands =>
    intro j z hz
    refine (h.stands j z hz).shift fun p hp => ?_
    rw [hs.standing (some j) p (Option.bind_eq_some_iff.2 ⟨z, hz, hp⟩), hf]
  case books =>
    refine h.books.shift (pid_of_shifts hs) hterminated hset rfl rfl (fun _ => Iff.rfl) (fun hr => hr) fun host rest hr => ?_
    obtain ⟨he, hm⟩ := htaken host rest hr
    exact ⟨he, fun pid id hid => .inl (hm pid id hid)⟩

/-- A shutdown terminates the members of the process set. -/
theorem mem_closingOrder {id : RecordId} : id ∈ c.machine.closingOrder c.kernel ↔ ∃ pid : Nat, c.set[pid]? = some id := by
  have hvalues : id ∈ c.machine.processesOf c.kernel ↔ ∃ pid : Nat, c.set[pid]? = some id := Records.mem_values
  rw [← hvalues, closingOrder, List.mem_append, List.mem_filter, List.mem_filter, List.mem_mergeSort]
  cases (c.machine.process id).isApplication <;> simp

/-- A process of the set is terminated. -/
theorem Inv.terminate (h : c.Inv) {host : Pair} {id : RecordId} {rest : List RecordId}
    (hc : c.shutdown = .terminating host (id :: rest)) :
    Inv { c with machine := (terminateProcess id none c.machine).2, shutdown := .terminating host rest } := by
  obtain ⟨he, hm⟩ := h.books.taken host _ hc
  obtain ⟨i, p, hseat, rfl⟩ := (he id List.mem_cons_self).seat
  have hbrings := terminateProcess_brings p.process p.thread
  have hs := h.apart.shifts_of_brings hseat hbrings
  have hset := ((hbrings.becomes _ (h.apart.lives _ p hseat).solo).kernel c.kernel).processes
  obtain ⟨x, hx, hpair⟩ := Option.bind_eq_some_iff.1 hseat
  have hstanding : p.standing (terminateProcess p.process none c.machine).2 = (p.standing c.machine).terminated :=
    (hs.standing _ p hseat).trans (if_pos rfl)
  obtain ⟨hstands, hended⟩ := (h.stands i x hx).terminate hpair hstanding
  have hf (j : Nat) (q : Pair) (hj : c.pair? (some j) = some q) (hq : (q.standing c.machine).process = .terminated) :
      (if some j = some i then (q.standing c.machine).terminated else q.standing c.machine).process = .terminated := by
    split
    · next hji =>
      obtain rfl := Option.some.inj (hseat.symm.trans (hji ▸ hj))
      exact hstanding ▸ hended
    · exact hq
  constructor
  case apart => exact h.apart_shut hs rfl fun q hq => by rw [hc]; exact hq
  case stands =>
    intro j z hz
    by_cases hj : j = i
    · subst hj
      obtain rfl := Option.some.inj (hx.symm.trans hz)
      exact hstands
    · refine (h.stands j z hz).shift fun q hq => ?_
      rw [hs.standing (some j) q (Option.bind_eq_some_iff.2 ⟨z, hz, hq⟩), if_neg fun hi => hj (Option.some.inj hi)]
  case books =>
    refine h.books.shift (pid_of_shifts hs) (terminated_of_shifts hs hf) hset rfl rfl (fun _ => Iff.rfl) (fun hr => hr) ?_
    intro host' rest' hr
    obtain ⟨rfl, rfl⟩ := Shutdown.terminating.inj hr
    refine ⟨fun id hid => he id (List.mem_cons_of_mem _ hid), fun pid id hid => ?_⟩
    rcases hm pid id hid with hmem | hterminated
    · rcases List.mem_cons.1 hmem with rfl | hmem
      · exact .inr hended
      · exact .inl hmem
    · exact .inr (terminated_of_shifts hs hf id (h.books.member pid id hid).2.2 hterminated)

/-- The set is cleared once no process of it is left to terminate. -/
theorem Inv.clear (h : c.Inv) {host : Pair} (hc : c.shutdown = .terminating host []) : Inv { c with
    machine := c.machine.withKernel c.kernel { c.machine.kernel c.kernel with processes := {} }
    shutdown := .cleared host
    unswept := [] } := by
  have hs := h.apart.shifts_of_quiet (.withKernel c.machine c.kernel { c.machine.kernel c.kernel with processes := {} })
  obtain ⟨-, hm⟩ := h.books.taken host _ hc
  have hset (pid : Nat) : ((c.machine.withKernel c.kernel { c.machine.kernel c.kernel with processes := {} }).kernel
      c.kernel).processes[pid]? = (none : Option RecordId) := by
    rw [kernel_withKernel, if_pos rfl]
    exact Std.TreeMap.getElem?_emptyc
  constructor
  case apart => exact h.apart_shut hs rfl fun q hq => by rw [hc]; exact hq
  case stands => exact fun j z hz => (h.stands j z hz).shift fun _ _ => rfl
  case books =>
    constructor
    case member => exact fun pid id hid => nomatch (hset pid).symm.trans hid
    case kept =>
      intro id he
      rcases h.books.kept id he with hstate | hid | hd
      · exact .inl hstate
      · exact .inl ((hm _ id hid).resolve_left List.not_mem_nil)
      · exact .inr (.inr hd)
    case displaced => exact h.books.displaced
    case unswept => exact .inl rfl
    case taken => exact fun _ _ hr => nomatch hr

/-- The process that does the work is made. -/
theorem Inv.host (h : c.Inv) {host : Pair} (hrun : (makeHost c.kernel).run c.machine = (.ok host, t)) :
    Inv { c with machine := t, shutdown := .hosted host } := by
  have hmakes := (makeHost_spec c.kernel c.machine).1 host t hrun
  have hs := h.apart.shifts_of_old hmakes.nextId hmakes.otherProcess fun id hid =>
    hmakes.otherThread id (Nat.ne_of_lt (Nat.lt_of_lt_of_le hid hmakes.fresh.2))
  constructor
  case apart =>
    refine h.apart.seat hs (k := none) ⟨hmakes.old.1, hmakes.old.2, hmakes.solo⟩ hmakes.fresh fun l q hq => ?_
    cases l with
    | none => exact .inl ⟨rfl, (Option.some.inj hq).symm⟩
    | some j => exact .inr ⟨Option.some_ne_none j, hq⟩
  case stands =>
    exact fun j z hz => (h.stands j z hz).shift fun p hp => hs.standing (some j) p (Option.bind_eq_some_iff.2 ⟨z, hz, hp⟩)
  case books =>
    exact h.books.shifts hs (fun _ _ _ h => h) hmakes.processes rfl rfl (fun _ => Iff.rfl) (fun hr => hr) fun _ _ hr => nomatch hr

/-- Ending the process that has done the work brings it to the end of its thread. -/
theorem dismiss_brings (host : Pair) : Brings host.process host.thread (·.left.terminated) (dismiss host) :=
  (exitThread_brings _ _).bind fun _ => (terminateProcess_brings _ _).bind fun _ => log_brings _ _ _ _

/-- A step of the shutdown keeps the books. -/
theorem Inv.close (h : c.Inv) : c.close.Inv := by
  rw [Closing.close]
  split
  · have hstill := resume_still c.kernel c.machine
    exact h.shut (h.apart.shifts_of_quiet (.of_still hstill)) (fun _ _ => rfl) (hstill.frame.kernel c.kernel).processes
      (fun _ hp => nomatch hp) fun _ _ hr => nomatch hr
  · refine h.shut (h.apart.shifts_of_quiet (.withKernel _ _ _)) (fun _ _ => rfl) ?_ (fun _ hp => nomatch hp) fun _ _ hr => nomatch hr
    rw [kernel_withKernel, if_pos rfl]
    rfl
  · rcases hrun : (makeHost c.kernel).run c.machine with ⟨e | host, t⟩
    · have hleaves := (makeHost_spec c.kernel c.machine).2 e t hrun
      exact h.shut (h.apart.shifts_of_old hleaves.nextId hleaves.process fun id _ => hleaves.thread id) (fun _ _ => rfl)
        hleaves.processes (fun _ hp => nomatch hp) fun _ _ hr => nomatch hr
    · exact h.host hrun
  · next host hc =>
    refine h.shut (h.apart.shifts_of_quiet (refl c.machine)) (fun _ _ => rfl) rfl (fun p hp => by rw [hc]; exact hp) ?_
    intro host' rest hr
    obtain ⟨-, rfl⟩ := Shutdown.terminating.inj hr
    refine ⟨fun id hid => ?_, fun pid id hid => mem_closingOrder.2 ⟨pid, hid⟩⟩
    obtain ⟨pid, hm⟩ := mem_closingOrder.1 hid
    exact (h.books.member pid id hm).2.2
  · next host id rest hc => exact h.terminate hc
  · next host hc => exact h.clear hc
  · next host hc =>
    have hseat : c.pair? none = some host := by rw [pair?, hc]; rfl
    have hbrings := dismiss_brings host
    exact h.shut (h.apart.shifts_of_brings hseat hbrings) (fun _ _ => rfl)
      ((hbrings.becomes _ (h.apart.lives _ host hseat).solo).kernel c.kernel).processes (fun _ hp => nomatch hp)
      fun _ _ hr => nomatch hr
  · exact h

/-- Every step keeps the invariant. -/
theorem Inv.step (h : c.Inv) (x : Step) : (c.step x).Inv := by
  cases x with
  | call x => exact h.call x
  | advance i =>
    rw [Closing.step]
    cases hx : c.starts[i]? with
    | none => exact h
    | some x => exact h.advance hx
  | turn i =>
    rw [Closing.step]
    cases hx : c.starts[i]? with
    | none => exact h
    | some x => exact h.turn hx
  | close => exact h.close

/-- The books are kept after all steps. -/
theorem inv_after (x : Setup) (steps : List Step) : (after x steps).Inv := by
  have hnew : Inv { kernel := x.kernel, machine := x.machine } := by
    have hset : (x.machine.kernel x.kernel).processes = {} := congrArg Kernel.processes x.kernel_machine
    have hnone (pid : Nat) : (x.machine.kernel x.kernel).processes[pid]? = (none : Option RecordId) := by
      rw [hset]
      exact Std.TreeMap.getElem?_emptyc
    have hseat (k : Option Nat) : pair? { kernel := x.kernel, machine := x.machine } k = none := by
      cases k <;> rfl
    constructor
    case apart => exact ⟨fun k p hp => (nomatch (hseat k).symm.trans hp), fun k _ p _ hp => nomatch (hseat k).symm.trans hp⟩
    case stands => exact fun _ _ hx => nomatch hx
    case books =>
      constructor
      case member => exact fun pid id hm => nomatch (hnone pid).symm.trans hm
      case kept =>
        rintro id ⟨_, _, hp, -⟩
        cases hp
      case displaced => exact fun _ hd => nomatch hd
      case unswept => exact .inl rfl
      case taken => exact fun _ _ hr => nomatch hr
  unfold after
  generalize ({ kernel := x.kernel, machine := x.machine } : Closing) = c at hnew
  induction steps generalizing c with
  | nil => exact hnew
  | cons step rest ih => exact ih (c.step step) (hnew.step step)

end Closing

end Microkernel.Machine
