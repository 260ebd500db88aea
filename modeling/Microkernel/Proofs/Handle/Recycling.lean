import Microkernel.Proofs.Handle.Refinement
import Microkernel.Proofs.Handle.Several

/-!
# When a handle value comes back

The linear ids of a table go from 1 to `maxLinearId` and begin again, one further with every handle issued, whatever slot it names.
The journal of a run says which handles were issued, closed and drained, and `Recorded` ties the table to it. Hence a value comes back
only after a whole number of periods (`handles_repeat_with_period`). A slot that is taken again right after its handle was closed gets
another value, unless the closed handle has seen just such a number of handles issued (`recycled_differs_iff`); a handle that outlives
a period can come to that (`recycled_differs_false`).
-/

namespace Microkernel.HandleTable

variable {α : Type}

/-! ## Journals -/

/-- What an operation does to the handles in use. -/
inductive Event
  | issued (handle : Handle)
  | closed (handle : Handle)
  | drained (handles : List Handle)
  deriving DecidableEq

/-- The handle, if it was in use, is so no longer. -/
def Event.Ends (handle : Handle) : Event → Prop
  | issued _ => False
  | closed other => other = handle
  | drained handles => handle ∈ handles

/-- The event of an operation, unless it is refused or only looks. -/
def Operation.event? (t : HandleTable α) : Operation α → Option Event
  | generate object =>
    match t.generate object with
    | .ok (handle, _) => some (.issued handle)
    | .error _ => none
  | close handle =>
    match t.close handle with
    | .ok _ => some (.closed handle)
    | .error _ => none
  | drain => some (.drained (t.drain.1.map (·.1)))
  | resolve _ => none
  | iterate => none

/-- The events of operations, one after the other. -/
def eventsFrom : HandleTable α × Live α → List (Operation α) → List Event
  | _, [] => []
  | state, operation :: rest => (operation.event? state.1).toList ++ eventsFrom (operation.apply state) rest

/-- The events of a run. -/
def journal (capacity : Nat) (operations : List (Operation α)) : List Event := eventsFrom (new capacity, ∅) operations

/-- The handle that an event issues. -/
def Event.issue? : Event → Option Handle
  | issued handle => some handle
  | _ => none

/-- The handles issued, numbered by their places. -/
def issuedOf (events : List Event) : List Handle := events.filterMap Event.issue?

/-- The handle was issued, and nothing has ended it since. -/
def InUse (events : List Event) (handle : Handle) : Prop :=
  ∃ before since, events = before ++ .issued handle :: since ∧ ∀ event ∈ since, ¬event.Ends handle

section Operations

variable {state : HandleTable α × Live α} {t t' : HandleTable α} {handle : Handle} {object : α}

/-- Binding an object adds its handle to the map. -/
theorem apply_generate (hg : state.1.generate object = .ok (handle, t')) :
    (Operation.generate object).apply state = (t', state.2.insert handle object) := by
  obtain ⟨t, live⟩ := state
  simp only [Operation.apply, hg]

/-- Closing a handle takes it from the map. -/
theorem apply_close (hc : state.1.close handle = .ok (object, t')) :
    (Operation.close handle).apply state = (t', state.2.erase handle) := by
  obtain ⟨t, live⟩ := state
  simp only [Operation.apply, hc]

/-- Binding an object issues its handle. -/
theorem event?_generate (hg : t.generate object = .ok (handle, t')) :
    (Operation.generate object).event? t = some (.issued handle) := by simp only [Operation.event?, hg]

/-- Closing a handle that is in use closes it. -/
theorem event?_close (hc : t.close handle = .ok (object, t')) :
    (Operation.close handle).event? t = some (.closed handle) := by simp only [Operation.event?, hc]

/-- An operation without an event leaves the table as it is. -/
theorem apply_of_event?_eq_none {operation : Operation α} (h : operation.event? state.1 = none) : operation.apply state = state := by
  obtain ⟨t, live⟩ := state
  dsimp only at h
  cases operation with
  | generate object =>
    cases hg : t.generate object with
    | error e => simp only [Operation.apply, hg]
    | ok issue =>
      rw [event?_generate hg] at h
      cases h
  | close handle =>
    cases hc : t.close handle with
    | error e => simp only [Operation.apply, hc]
    | ok closed =>
      rw [event?_close hc] at h
      cases h
  | drain => cases h
  | resolve handle => rfl
  | iterate => rfl

/-- Operations without events change nothing. -/
theorem foldl_apply_of_event?_eq_none {operations : List (Operation α)}
    (h : ∀ operation ∈ operations, operation.event? state.1 = none) :
    operations.foldl (fun state operation => operation.apply state) state = state := by
  induction operations with
  | nil => rfl
  | cons operation rest ih =>
    rw [List.foldl_cons, apply_of_event?_eq_none (h operation List.mem_cons_self)]
    exact ih fun other hm => h other (List.mem_cons_of_mem _ hm)

end Operations

section Journals

variable {events before after : List Event} {event : Event} {handle : Handle}

/-- The events of two runs in a row are those of the first and then those of the second. -/
theorem eventsFrom_append (state : HandleTable α × Live α) (operations operations' : List (Operation α)) :
    eventsFrom state (operations ++ operations') = eventsFrom state operations ++
      eventsFrom (operations.foldl (fun state operation => operation.apply state) state) operations' := by
  induction operations generalizing state with
  | nil => rfl
  | cons operation rest ih => rw [List.cons_append, eventsFrom, ih, eventsFrom, List.foldl_cons, List.append_assoc]

/-- A run goes on where it stands. -/
theorem run_append (capacity : Nat) (operations operations' : List (Operation α)) : run capacity (operations ++ operations') =
    operations'.foldl (fun state operation => operation.apply state) (run capacity operations) := List.foldl_append

/-- A journal goes on where it stands. -/
theorem journal_append (capacity : Nat) (operations operations' : List (Operation α)) : journal capacity (operations ++ operations') =
    journal capacity operations ++ eventsFrom (run capacity operations) operations' := eventsFrom_append _ _ _

/-- The handles issued in two runs are those of the first and then those of the second. -/
theorem issuedOf_append (events events' : List Event) : issuedOf (events ++ events') = issuedOf events ++ issuedOf events' :=
  List.filterMap_append

/-- A handle stands among the handles issued where its issue stands among the events. -/
theorem issuedOf_split (before after : List Event) (handle : Handle) :
    issuedOf (before ++ .issued handle :: after) = issuedOf before ++ handle :: issuedOf after := issuedOf_append _ _

/-- An issue has a place in the journal. -/
theorem exists_split_of_getElem? {n : Nat} (h : (issuedOf events)[n]? = some handle) :
    ∃ before after, events = before ++ .issued handle :: after ∧ (issuedOf before).length = n := by
  obtain ⟨hn, hget⟩ := List.getElem?_eq_some_iff.1 h
  have hsplit : issuedOf events = (issuedOf events).take n ++ handle :: (issuedOf events).drop (n + 1) := by
    rw [← hget, List.getElem_cons_drop, List.take_append_drop]
  obtain ⟨front, back, rfl, hfront, hback⟩ := List.filterMap_eq_append_iff.1 hsplit
  obtain ⟨skipped, event, after, rfl, hskipped, hevent, -⟩ := List.filterMap_eq_cons_iff.1 hback
  obtain rfl : event = .issued handle := by
    cases event with
    | issued other => exact congrArg Event.issued (Option.some.inj hevent)
    | closed _ => cases hevent
    | drained _ => cases hevent
  have hnone : issuedOf skipped = [] := List.filterMap_eq_nil_iff.2 hskipped
  have hlength : (issuedOf front).length = n := by
    rw [issuedOf, hfront, List.length_take]
    omega
  exact ⟨front ++ skipped, after, (List.append_assoc ..).symm, by rw [issuedOf_append, hnone, List.append_nil, hlength]⟩

/-- Of two issues with different numbers one stands behind the other. -/
theorem exists_split_twice {i j : Nat} (hij : i < j) (hi : (issuedOf events)[i]? = some handle)
    (hj : (issuedOf events)[j]? = some handle) :
    ∃ before between after, events = before ++ .issued handle :: between ++ .issued handle :: after ∧
      (issuedOf before).length = i ∧ (issuedOf between).length + 1 = j - i := by
  obtain ⟨before, rest, rfl, rfl⟩ := exists_split_of_getElem? hi
  obtain ⟨n, rfl⟩ : ∃ n, j = (issuedOf before).length + (n + 1) := ⟨j - (issuedOf before).length - 1, by omega⟩
  rw [issuedOf_split, List.getElem?_append_right (Nat.le_add_right _ _), Nat.add_sub_cancel_left, List.getElem?_cons_succ] at hj
  obtain ⟨between, after, rfl, rfl⟩ := exists_split_of_getElem? hj
  exact ⟨before, between, after, by rw [List.append_assoc, List.cons_append], rfl, by omega⟩

/-- An issue in a journal with one event more is that event, or an issue from before. -/
theorem concat_eq_split (h : events ++ [event] = before ++ .issued handle :: after) :
    after = [] ∧ before = events ∧ event = .issued handle ∨
      ∃ rest, after = rest ++ [event] ∧ events = before ++ .issued handle :: rest := by
  rcases List.eq_nil_or_concat after with rfl | ⟨rest, last, rfl⟩
  · obtain ⟨hbefore, hevent⟩ := List.append_inj' h rfl
    exact .inl ⟨rfl, hbefore.symm, List.singleton_inj.1 hevent⟩
  · rw [List.concat_eq_append, ← List.cons_append, ← List.append_assoc] at h
    obtain ⟨hevents, hevent⟩ := List.append_inj' h rfl
    exact .inr ⟨rest, by rw [List.concat_eq_append, List.singleton_inj.1 hevent], hevents⟩

/-- A handle is in use if it was just issued, or was in use and was not ended. -/
theorem inUse_concat : InUse (events ++ [event]) handle ↔ event = .issued handle ∨ InUse events handle ∧ ¬event.Ends handle := by
  constructor
  · rintro ⟨before, since, he, hlasts⟩
    rcases concat_eq_split he with ⟨-, -, rfl⟩ | ⟨rest, rfl, rfl⟩
    · exact .inl rfl
    · exact .inr ⟨⟨before, rest, rfl, fun event hm => hlasts event (List.mem_append_left _ hm)⟩, hlasts event (by simp)⟩
  · rintro (rfl | ⟨⟨before, since, rfl, hlasts⟩, hends⟩)
    · exact ⟨events, [], rfl, nofun⟩
    · refine ⟨before, since ++ [event], by rw [List.append_assoc, List.cons_append], fun other hm => ?_⟩
      rcases List.mem_append.1 hm with hm | hm
      · exact hlasts other hm
      · rwa [List.mem_singleton.1 hm]

end Journals

/-! ## Where the linear id and the slot come from -/

/-- The linear id after so many handles. -/
theorem succLinearId_mod (n : Nat) : succLinearId (n % maxLinearId + 1) = (n + 1) % maxLinearId + 1 := by
  have hperiod : maxLinearId = 32767 := rfl
  unfold succLinearId
  rw [hperiod]
  split <;> omega

section Issue

variable {t t' : HandleTable α} {handle : Handle} {object : α}

/-- A handle is made of the next linear id and a slot, the one that was freed last if there is one. -/
theorem Sound.compose_of_generate (hs : t.Sound) (hg : t.generate object = .ok (handle, t')) :
    t'.nextLinearId = succLinearId t.nextLinearId ∧ ∃ index < Handle.indexRange, handle = .compose t.nextLinearId index ∧
      ∀ freed ∈ t.free.head?, index = freed := by
  have hroom : t.count < t.capacity := by
    by_contra hfull
    cases hg.symm.trans (generate_of_full (Nat.le_of_not_lt hfull) object)
  rw [HandleTable.generate, if_neg (Nat.not_le.2 hroom)] at hg
  cases hf : t.free with
  | cons freed rest =>
    rw [hf] at hg
    cases hg
    have hempty := (hs.mem_free freed).1 (by rw [hf]; exact List.mem_cons_self)
    exact ⟨rfl, freed, hs.index_lt hempty, rfl, fun _ h => Option.some.inj h⟩
  | nil =>
    rw [hf] at hg
    cases hg
    have hadd := hs.count_add
    rw [hf, List.length_nil, Nat.add_zero] at hadd
    have hle : t.capacity ≤ Handle.indexRange := hs.capacity_le
    exact ⟨rfl, t.slots.size, by omega, rfl, by simp⟩

/-- A handle that is issued has the linear id that was next. -/
theorem Sound.linearId_of_generate (hs : t.Sound) (hg : t.generate object = .ok (handle, t')) : handle.linearId = t.nextLinearId := by
  obtain ⟨-, index, hindex, rfl, -⟩ := hs.compose_of_generate hg
  exact Handle.linearId_compose hs.nextLinearId_lt hindex

/-- Closing a handle puts its slot in front of the freed ones; no linear id is used up. -/
theorem free_of_close (hc : t.close handle = .ok (object, t')) :
    t'.free = handle.index :: t.free ∧ t'.nextLinearId = t.nextLinearId := by
  unfold HandleTable.close at hc
  split at hc
  · cases hc
  · cases hc
    exact ⟨rfl, rfl⟩

/-- A handle that names an object is made of its linear id and its slot. -/
theorem compose_of_resolve (hr : t.resolve handle = some object) : Handle.compose handle.linearId handle.index = handle := by
  unfold HandleTable.resolve at hr
  split at hr
  · next hissuable => exact Handle.compose_of_isIssuable hissuable
  · cases hr

/-- A handle that can be closed resolved to what it was closed for. -/
theorem resolve_of_close (hc : t.close handle = .ok (object, t')) : t.resolve handle = some object := by
  cases hr : t.resolve handle with
  | none => cases hc.symm.trans (close_of_none hr)
  | some other =>
    rw [HandleTable.close, hr] at hc
    cases hc
    rfl

end Issue

/-! ## A table and its journal -/

/-- The journal is that of the table. -/
structure Recorded (t : HandleTable α) (events : List Event) : Prop where
  sound : t.Sound
  nextLinearId : t.nextLinearId = (issuedOf events).length % maxLinearId + 1
  linearId : ∀ (i : Nat) handle, (issuedOf events)[i]? = some handle → handle.linearId = i % maxLinearId + 1
  inUse : ∀ handle, t.resolve handle ≠ none ↔ InUse events handle
  /-- What is issued was not in use. -/
  fresh : ∀ before handle after, events = before ++ .issued handle :: after → ¬InUse before handle

namespace Recorded

variable {t t' : HandleTable α} {events : List Event} {handle : Handle} {object : α}

/-- The journal of a new table is empty. -/
theorem new (capacity : Nat) : (HandleTable.new capacity : HandleTable α).Recorded [] where
  sound := sound_new capacity
  nextLinearId := rfl
  linearId i handle h := by simp [issuedOf] at h
  inUse handle := by
    have hnone : (HandleTable.new capacity : HandleTable α).resolve handle = none := by
      rw [(Represents.new capacity).resolve, Finmap.lookup_empty]
    refine iff_of_false (fun h => h hnone) ?_
    rintro ⟨before, since, he, -⟩
    simp at he
  fresh before handle after he := by simp at he

/-- The journal of a table in which an object was bound ends with the handle that was issued. -/
theorem generate (h : t.Recorded events) (hg : t.generate object = .ok (handle, t')) :
    t'.Recorded (events ++ [.issued handle]) := by
  have hb := h.sound.bound_of_generate hg
  have hissued : issuedOf (events ++ [.issued handle]) = issuedOf events ++ [handle] := issuedOf_append _ _
  constructor
  case sound => exact hb.sound
  case nextLinearId =>
    rw [(h.sound.compose_of_generate hg).1, h.nextLinearId, succLinearId_mod, hissued, List.length_append, List.length_singleton]
  case linearId =>
    intro i other ho
    rw [hissued, List.getElem?_append] at ho
    split at ho
    · exact h.linearId i other ho
    · next hi =>
      obtain ⟨hlast, rfl⟩ : i = (issuedOf events).length ∧ handle = other := by
        rw [List.getElem?_singleton] at ho
        split at ho
        · next hz => exact ⟨by omega, Option.some.inj ho⟩
        · cases ho
      rw [h.sound.linearId_of_generate hg, h.nextLinearId, hlast]
  case inUse =>
    intro other
    rw [inUse_concat, hb.resolve h.sound, ← h.inUse]
    by_cases ho : other = handle
    · simp [ho]
    · simp [ho, Ne.symm ho, Event.Ends]
  case fresh =>
    intro before other after he
    rcases concat_eq_split he with ⟨-, rfl, hevent⟩ | ⟨rest, -, hevents⟩
    · cases hevent
      rw [← h.inUse, not_not]
      exact hb.fresh h.sound
    · exact h.fresh before other rest hevents

/-- An event that issues nothing changes only what is in use. -/
theorem concat (h : t.Recorded events) {event : Event} (hs : t'.Sound) (hid : t'.nextLinearId = t.nextLinearId)
    (hevent : event.issue? = none) (hends : ∀ handle, t'.resolve handle ≠ none ↔ t.resolve handle ≠ none ∧ ¬event.Ends handle) :
    t'.Recorded (events ++ [event]) := by
  have hissued : issuedOf (events ++ [event]) = issuedOf events := by
    rw [issuedOf_append, issuedOf, issuedOf, List.filterMap_cons_none hevent, List.filterMap_nil, List.append_nil]
  have hne (handle : Handle) : event ≠ .issued handle := by
    rintro rfl
    cases hevent
  constructor
  case sound => exact hs
  case nextLinearId => rw [hid, h.nextLinearId, hissued]
  case linearId => rw [hissued]; exact h.linearId
  case inUse => exact fun handle => by rw [hends, h.inUse, inUse_concat, or_iff_right (hne handle)]
  case fresh =>
    intro before handle after he
    rcases concat_eq_split he with ⟨-, -, hissue⟩ | ⟨rest, -, hevents⟩
    · exact absurd hissue (hne handle)
    · exact h.fresh before handle rest hevents

/-- The journal of a table in which a handle was closed ends with that. -/
theorem close (h : t.Recorded events) (hc : t.close handle = .ok (object, t')) : t'.Recorded (events ++ [.closed handle]) := by
  have hu := h.sound.unbound_of_close hc
  refine h.concat hu.sound (free_of_close hc).2 rfl fun other => ?_
  rw [hu.resolve h.sound]
  by_cases ho : other = handle
  · simp [ho, Event.Ends]
  · simp [ho, Ne.symm ho, Event.Ends]

/-- The journal of a drained table ends with all handles that were in use. -/
theorem drain (h : t.Recorded events) : t.drain.2.Recorded (events ++ [.drained (t.drain.1.map (·.1))]) := by
  refine h.concat h.sound.drain rfl rfl fun handle => iff_of_false (fun hr => hr ?_) ?_
  · refine Option.eq_none_iff_forall_ne_some.2 fun object hr => ?_
    rw [h.sound.drain.resolve_eq_some_iff] at hr
    cases hr
  · rintro ⟨hr, hends⟩
    obtain ⟨object, ho⟩ := Option.ne_none_iff_exists'.1 hr
    exact hends (List.mem_map_of_mem ((h.sound.resolve_eq_some_iff handle object).1 ho))

/-- Every operation keeps the table and its journal together. -/
theorem apply {state : HandleTable α × Live α} (h : state.1.Recorded events) (operation : Operation α) :
    (operation.apply state).1.Recorded (events ++ (operation.event? state.1).toList) := by
  cases he : operation.event? state.1 with
  | none => rwa [apply_of_event?_eq_none he, Option.toList_none, List.append_nil]
  | some event =>
    cases operation with
    | generate object =>
      cases hg : state.1.generate object with
      | error e => simp [Operation.event?, hg] at he
      | ok issue =>
        obtain rfl := Option.some.inj ((event?_generate hg).symm.trans he)
        rw [apply_generate hg]
        exact h.generate hg
    | close handle =>
      cases hc : state.1.close handle with
      | error e => simp [Operation.event?, hc] at he
      | ok closed =>
        obtain rfl := Option.some.inj ((event?_close hc).symm.trans he)
        rw [apply_close hc]
        exact h.close hc
    | drain =>
      obtain rfl := Option.some.inj he
      exact h.drain
    | resolve handle => cases he
    | iterate => cases he

/-- A handle in use has a last issue. -/
theorem exists_last_issue (h : t.Recorded events) (hr : t.resolve handle ≠ none) :
    ∃ before since, events = before ++ .issued handle :: since ∧ .issued handle ∉ since := by
  obtain ⟨before, since, he, hlasts⟩ := (h.inUse handle).1 hr
  refine ⟨before, since, he, fun hm => ?_⟩
  obtain ⟨between, after, rfl⟩ := List.append_of_mem hm
  rw [← List.cons_append, ← List.append_assoc] at he
  exact h.fresh _ handle after he ⟨before, between, rfl, fun event hb => hlasts event (List.mem_append_left _ hb)⟩

/-- A handle that comes back has seen a whole number of periods of handles issued, itself included, and was ended meanwhile. -/
theorem period (h : t.Recorded events) {before between after : List Event}
    (he : events = before ++ .issued handle :: between ++ .issued handle :: after) :
    32767 ∣ (issuedOf between).length + 1 ∧ ∃ event ∈ between, event.Ends handle := by
  have hperiod : maxLinearId = 32767 := rfl
  constructor
  · have hissued : issuedOf events = issuedOf before ++ handle :: (issuedOf between ++ handle :: issuedOf after) := by
      rw [he, issuedOf_split, issuedOf_split, List.append_assoc, List.cons_append]
    have hfirst := h.linearId (issuedOf before).length handle (by rw [hissued]; simp)
    have hsecond := h.linearId ((issuedOf before).length + ((issuedOf between).length + 1)) handle (by rw [hissued]; simp)
    rw [hperiod] at hfirst hsecond
    omega
  · by_contra hnone
    push Not at hnone
    exact h.fresh _ handle after he ⟨before, between, rfl, hnone⟩

end Recorded

/-- A run keeps the table and its journal together. -/
theorem recorded_run (capacity : Nat) (operations : List (Operation α)) :
    (run capacity operations).1.Recorded (journal capacity operations) := by
  have h : ∀ (state : HandleTable α × Live α) (events : List Event), state.1.Recorded events →
      (operations.foldl (fun state operation => operation.apply state) state).1.Recorded (events ++ eventsFrom state operations) := by
    induction operations with
    | nil =>
      intro state events hr
      simpa [eventsFrom] using hr
    | cons operation rest ih =>
      intro state events hr
      rw [List.foldl_cons, eventsFrom, ← List.append_assoc]
      exact ih _ _ (hr.apply operation)
  exact h (new capacity, ∅) [] (.new capacity)

/-! ## A handle that outlives a period -/

/-- One object stays bound while a second handle is issued and closed over and over. -/
def outliving (rounds : Nat) : List (Operation Nat) :=
  .generate 1 :: (List.range rounds).flatMap fun k => [.generate k, .close (.compose (k + 2) 1)]

/-- The table between two rounds. -/
def holding (nextLinearId : Nat) : HandleTable Nat :=
  { slots := #[some ⟨1, 1⟩, none], free := [1], capacity := 2, nextLinearId, count := 1 }

/-- A round more binds and closes one more handle in the second slot. -/
theorem outliving_succ (rounds : Nat) :
    outliving (rounds + 1) = outliving rounds ++ [.generate rounds, .close (.compose (rounds + 2) 1)] := by
  unfold outliving
  rw [List.range_succ, List.flatMap_append, List.flatMap_singleton, List.cons_append]

/-- What a round does: the second slot is taken and freed, with the next linear id. -/
theorem round_of_holding {state : HandleTable Nat × Live Nat} {id : Nat} (hstate : state.1 = holding id) (h0 : 0 < id)
    (hid : id < Handle.linearIdRange) (object : Nat) :
    ([Operation.generate object, .close (.compose id 1)].foldl (fun state operation => operation.apply state) state).1 =
      holding (succLinearId id) ∧
    eventsFrom state [.generate object, .close (.compose id 1)] = [.issued (.compose id 1), .closed (.compose id 1)] := by
  have hindex : 1 < Handle.indexRange := by decide
  have hg : state.1.generate object = .ok (.compose id 1,
      { holding (succLinearId id) with slots := #[some ⟨1, 1⟩, some ⟨id, object⟩], free := [], count := 2 }) := by
    rw [hstate]
    rfl
  have hc : HandleTable.close
      { holding (succLinearId id) with slots := #[some ⟨1, 1⟩, some ⟨id, object⟩], free := [], count := 2 } (.compose id 1) =
        .ok (object, holding (succLinearId id)) := by
    unfold HandleTable.close HandleTable.resolve entry?
    rw [if_pos (Handle.isIssuable_compose hid hindex h0), Handle.index_compose hid hindex, Handle.linearId_compose hid hindex]
    simp [holding]
  simp only [List.foldl_cons, List.foldl_nil, eventsFrom, event?_generate hg, apply_generate hg]
  rw [event?_close hc, apply_close hc]
  exact ⟨rfl, rfl⟩

/-- Up to the end of the period the second slot gets one linear id after the other. -/
theorem run_outliving {rounds : Nat} (hr : rounds < 32766) :
    (run 2 (outliving (rounds + 1))).1 = holding ((rounds + 2) % maxLinearId + 1) ∧
      (issuedOf (journal 2 (outliving (rounds + 1)))).length = rounds + 2 := by
  induction rounds with
  | zero => exact ⟨rfl, rfl⟩
  | succ rounds ih =>
    obtain ⟨htable, hissued⟩ := ih (by omega)
    have hid : (rounds + 2) % maxLinearId + 1 = rounds + 1 + 2 := by
      have hperiod : maxLinearId = 32767 := rfl
      rw [hperiod]
      omega
    rw [hid] at htable
    have hlimit : rounds + 1 + 2 < Handle.linearIdRange := by
      have hrange : Handle.linearIdRange = 32768 := rfl
      omega
    obtain ⟨hround, hevents⟩ := round_of_holding htable (Nat.succ_pos _) hlimit (rounds + 1)
    rw [outliving_succ, run_append, hround, ← succLinearId_mod, hid, journal_append, issuedOf_append, hevents, List.length_append,
      hissued]
    exact ⟨rfl, rfl⟩

/-- A second object is bound as soon as the first handle has been closed, a period after it was issued. -/
def reissuing : List (Operation Nat) := outliving 32766 ++ [.close (.compose 1 0), .generate 2]

/-- At the end of the period the linear ids begin again with that of the first handle. -/
theorem close_outliving : ∃ t t', (run 2 (outliving 32766)).1.close (.compose 1 0) = .ok (1, t) ∧
    t.generate 2 = .ok (.compose 1 0, t') := by
  have htable : (run 2 (outliving 32766)).1 = holding 1 := (run_outliving (by decide)).1
  rw [htable]
  exact ⟨_, _, rfl, rfl⟩

/-- The value that was issued first is issued again a period later. -/
theorem issuedOf_reissuing : (issuedOf (journal 2 reissuing))[0]? = some (.compose 1 0) ∧
    (issuedOf (journal 2 reissuing))[32767]? = some (.compose 1 0) := by
  obtain ⟨t, t', hc, hg⟩ := close_outliving
  have hissued : (issuedOf (journal 2 (outliving 32766))).length = 32767 := (run_outliving (by decide)).2
  have hfirst : (issuedOf (journal 2 (outliving 32766)))[0]? = some (.compose 1 0) := by
    unfold journal outliving
    rw [eventsFrom, issuedOf_append]
    rfl
  have hlast : issuedOf (eventsFrom (run 2 (outliving 32766)) [.close (.compose 1 0), .generate 2]) = [.compose 1 0] := by
    simp only [eventsFrom, event?_close hc, apply_close hc, event?_generate hg]
    rfl
  rw [reissuing, journal_append, issuedOf_append, hlast]
  exact ⟨by rw [List.getElem?_append_left (by omega), hfirst], by rw [List.getElem?_append_right (by omega), hissued]; rfl⟩

/-! ## The period -/

/-- Number the handles that a run issues: one that is issued again has been ended in between, and its two numbers are a whole number of
periods apart. No linear id is zero or too large, however often they have begun again. -/
theorem handles_repeat_with_period (capacity : Nat) (operations : List (Operation α)) :
    (∀ handle ∈ issuedOf (journal capacity operations), 1 ≤ handle.linearId ∧ handle.linearId ≤ 32767) ∧
    ∀ (i j : Nat) handle, i < j → (issuedOf (journal capacity operations))[i]? = some handle →
      (issuedOf (journal capacity operations))[j]? = some handle →
      (∃ periods, 0 < periods ∧ j - i = periods * 32767) ∧
      ∃ before between after, journal capacity operations = before ++ .issued handle :: between ++ .issued handle :: after ∧
        (issuedOf before).length = i ∧ (issuedOf between).length + 1 = j - i ∧ ∃ event ∈ between, event.Ends handle := by
  have hr := recorded_run capacity operations
  constructor
  · intro handle hm
    obtain ⟨i, hi⟩ := List.getElem?_of_mem hm
    have hperiod : maxLinearId = 32767 := rfl
    have hid := hr.linearId i handle hi
    rw [hperiod] at hid
    omega
  · intro i j handle hij hi hj
    obtain ⟨before, between, after, hsplit, hbefore, hbetween⟩ := exists_split_twice hij hi hj
    obtain ⟨⟨periods, hp⟩, hends⟩ := hr.period hsplit
    exact ⟨⟨periods, by omega, by omega⟩, before, between, after, hsplit, hbefore, hbetween, hends⟩

/-- The first handle of the long run comes back with number 32767, after it was closed. -/
theorem handles_repeat_with_period_reissuing : 0 < 32767 ∧ (issuedOf (journal 2 reissuing))[0]? = some (.compose 1 0) ∧
    (issuedOf (journal 2 reissuing))[32767]? = some (.compose 1 0) ∧ ∃ before between after,
      journal 2 reissuing = before ++ .issued (.compose 1 0) :: between ++ .issued (.compose 1 0) :: after ∧
        (issuedOf before).length = 0 ∧ (issuedOf between).length + 1 = 32767 ∧ ∃ event ∈ between, event.Ends (.compose 1 0) := by
  obtain ⟨hfirst, hagain⟩ := issuedOf_reissuing
  have hpositive : 0 < 32767 := by decide
  exact ⟨hpositive, hfirst, hagain, ((handles_repeat_with_period 2 reissuing).2 0 32767 _ hpositive hfirst hagain).2⟩

/-! ## The slot that was freed last -/

/-- A closed handle and what was refused behind it: the table that closing left. -/
theorem run_close {capacity : Nat} {operations idle : List (Operation α)} {handle : Handle} {object : α} {t : HandleTable α}
    (hc : (run capacity operations).1.close handle = .ok (object, t)) (hidle : ∀ operation ∈ idle, operation.event? t = none) :
    (run capacity (operations ++ .close handle :: idle)).1 = t := by
  rw [run_append, List.foldl_cons, apply_close hc, foldl_apply_of_event?_eq_none hidle]

/-- A table that a handle was closed in has room. -/
theorem Sound.generate_of_close {t t' : HandleTable α} {handle : Handle} {object : α} (hs : t.Sound)
    (hc : t.close handle = .ok (object, t')) (next : α) :
    ∃ handle' t'', t'.generate next = .ok (handle', t'') ∧ t'.Bound next handle' t'' := by
  have hu := hs.unbound_of_close hc
  have hlength := hu.bindings.length_eq
  rw [List.length_cons] at hlength
  have hroom := hs.length_bindings_le
  refine hu.sound.generate ?_ next
  rw [hu.sound.count_eq, hu.capacity]
  omega

/-- The handle that takes the place of a closed one is the same value exactly if a whole number of periods of handles was issued since. -/
theorem Recorded.eq_of_close_iff {t t' t'' : HandleTable α} {events before since : List Event} {handle handle' : Handle}
    {object next : α} (h : t.Recorded events) (hc : t.close handle = .ok (object, t')) (hg : t'.generate next = .ok (handle', t''))
    (he : events = before ++ .issued handle :: since) : handle' = handle ↔ 32767 ∣ (issuedOf since).length + 1 := by
  have hperiod : maxLinearId = 32767 := rfl
  have hs := (h.sound.unbound_of_close hc).sound
  obtain ⟨hfree, hnext⟩ := free_of_close hc
  obtain ⟨-, index, hindex, hnew, hfreed⟩ := hs.compose_of_generate hg
  obtain rfl : index = handle.index := hfreed _ (by rw [hfree]; rfl)
  have hold := compose_of_resolve (resolve_of_close hc)
  -- the slot is the same, so the values differ in the linear id or not at all
  have hids : handle' = handle ↔ t'.nextLinearId = handle.linearId := by
    constructor
    · rintro rfl
      exact (hs.linearId_of_generate hg).symm
    · intro hid
      rw [hnew, hid, hold]
  have hissued : issuedOf events = issuedOf before ++ handle :: issuedOf since := by rw [he, issuedOf_split]
  have hid := h.linearId (issuedOf before).length handle (by rw [hissued]; simp)
  have hlength : (issuedOf events).length = (issuedOf before).length + ((issuedOf since).length + 1) := by
    rw [hissued, List.length_append, List.length_cons]
  have hcurrent := h.nextLinearId
  rw [hperiod] at hid hcurrent
  rw [hids, hnext]
  omega

/-- Whatever a run was, a handle is closed, and nothing but refused calls and looks follow: the next object is bound. Its handle
differs from the closed one exactly if the number of handles issued since that one was, itself included, is no multiple of the period;
then the closed handle names nothing. -/
theorem recycled_differs_iff (capacity : Nat) (operations idle : List (Operation α)) {handle : Handle} {object : α}
    {t : HandleTable α} (hclose : (run capacity operations).1.close handle = .ok (object, t))
    (hidle : ∀ operation ∈ idle, operation.event? t = none) (next : α) :
    ∃ before since handle' t', journal capacity operations = before ++ .issued handle :: since ∧ .issued handle ∉ since ∧
      (run capacity (operations ++ .close handle :: idle)).1.generate next = .ok (handle', t') ∧
      (handle' ≠ handle ↔ ¬32767 ∣ (issuedOf since).length + 1) ∧
      t'.resolve handle = if handle' = handle then some next else none := by
  have hr := recorded_run capacity operations
  obtain ⟨before, since, hsplit, hlast⟩ := hr.exists_last_issue (by rw [resolve_of_close hclose]; nofun)
  obtain ⟨handle', t', hg, hb⟩ := hr.sound.generate_of_close hclose next
  have hu := hr.sound.unbound_of_close hclose
  refine ⟨before, since, handle', t', hsplit, hlast, ?_, not_congr (hr.eq_of_close_iff hclose hg hsplit), ?_⟩
  · rw [run_close hclose hidle, hg]
  · rw [hb.resolve hu.sound, hu.resolve hr.sound, if_pos rfl]
    exact if_congr eq_comm rfl rfl

/-- The first slot is taken twice. -/
def retaking : List (Operation Nat) := [.generate 1, .generate 2, .close ⟨0x8000⟩, .generate 3]

/-- The slot is taken a third time; before that, the handle that it had first is refused, and the one that it had then is looked up. -/
theorem recycled_differs_iff_retaking :
    ∃ t, (run 4 retaking).1.close ⟨0x18000⟩ = .ok (3, t) ∧
      (∀ operation ∈ [Operation.close ⟨0x8000⟩, .resolve ⟨0x18000⟩], operation.event? t = none) ∧
      ∃ t', (run 4 (retaking ++ [.close ⟨0x18000⟩, .close ⟨0x8000⟩, .resolve ⟨0x18000⟩])).1.generate 4 = .ok (⟨0x20000⟩, t') ∧
        t'.resolve ⟨0x18000⟩ = none := by
  obtain ⟨t, hclose, hidle⟩ : ∃ t, (run 4 retaking).1.close ⟨0x18000⟩ = .ok (3, t) ∧
      ∀ operation ∈ [Operation.close ⟨0x8000⟩, .resolve ⟨0x18000⟩], operation.event? t = none :=
    ⟨_, rfl, by simpa using ⟨rfl, rfl⟩⟩
  obtain ⟨-, -, handle, t', -, -, hg, -, hresolve⟩ := recycled_differs_iff 4 retaking _ hclose hidle 4
  obtain ⟨last, hnew⟩ : ∃ last, (run 4 (retaking ++ [.close ⟨0x18000⟩, .close ⟨0x8000⟩, .resolve ⟨0x18000⟩])).1.generate 4 =
    .ok (⟨0x20000⟩, last) := ⟨_, rfl⟩
  obtain ⟨rfl, rfl⟩ := Prod.mk.inj (Except.ok.inj (hg.symm.trans hnew))
  exact ⟨t, hclose, hidle, t', hnew, hresolve⟩

/-- A handle that has seen a whole period of handles issued is given out again right after it was closed. -/
theorem recycled_differs_false :
    ¬∀ (capacity : Nat) (operations : List (Operation Nat)) (handle handle' : Handle) (object next : Nat) (t t' : HandleTable Nat),
      (run capacity operations).1.close handle = .ok (object, t) → t.generate next = .ok (handle', t') → handle' ≠ handle := by
  intro h
  obtain ⟨t, t', hc, hg⟩ := close_outliving
  exact h 2 (outliving 32766) _ _ 1 2 t t' hc hg rfl

end Microkernel.HandleTable
