import Microkernel.Handle.Table

/-!
# Sound handle tables

`HandleTable.Sound` is what ties the parts of a table together: the freed slots are exactly the empty ones, the count is the number of
taken ones, and every number is within its range. It holds of a new table and is kept by every operation. In a sound table a handle
resolves exactly if it is bound (`resolve_eq_some_iff`), and each operation changes what handles resolve to in one place.
-/

namespace Microkernel

namespace Handle

section Compose

variable {linearId index : Nat} (hl : linearId < linearIdRange) (hi : index < indexRange)
include hl hi

/-- The value of a handle is its linear id, shifted by the width of an index, and its index. -/
theorem toNat_compose : (compose linearId index).raw.toNat = linearId * indexRange + index := by
  apply UInt32.toNat_ofNat_of_lt'
  unfold UInt32.size indexRange linearIdRange at *
  omega

/-- The handle of a slot points to it. -/
theorem index_compose : (compose linearId index).index = index := by
  rw [Handle.index, toNat_compose hl hi]
  unfold indexRange at *
  omega

/-- The handle of a slot carries the linear id it was made with. -/
theorem linearId_compose : (compose linearId index).linearId = linearId := by
  rw [Handle.linearId, toNat_compose hl hi]
  unfold indexRange linearIdRange at *
  omega

/-- A handle with a linear id above zero is one that a table can have issued. -/
theorem isIssuable_compose (h0 : 0 < linearId) : (compose linearId index).isIssuable = true := by
  have hr := toNat_compose hl hi
  have hv {h : Handle} (hn : h.raw.toNat = 0 ∨ linearIdRange * indexRange ≤ h.raw.toNat) : compose linearId index ≠ h := by
    intro he
    rw [he] at hr
    unfold indexRange linearIdRange at *
    omega
  have hlt : (compose linearId index).raw.toNat < linearIdRange * indexRange := by
    rw [hr]
    unfold indexRange linearIdRange at *
    omega
  simp only [isIssuable, isPseudo, hv (h := invalid) (by decide), hv (h := currentProcess) (by decide),
    hv (h := currentThread) (by decide), hlt, decide_false, Bool.or_self, Bool.not_false, ne_eq, not_false_eq_true, decide_true,
    Bool.and_self]

end Compose

/-- A handle that can have been issued is made of its slot and its linear id. -/
theorem compose_of_isIssuable {h : Handle} (hh : h.isIssuable = true) : compose h.linearId h.index = h := by
  have hlt : h.raw.toNat < linearIdRange * indexRange := by
    simp only [isIssuable, Bool.and_eq_true, decide_eq_true_eq] at hh
    exact hh.2
  have hr : h.raw.toNat / indexRange % linearIdRange * indexRange + h.raw.toNat % indexRange = h.raw.toNat := by
    unfold indexRange linearIdRange at *
    omega
  rw [compose, linearId, index, hr, UInt32.ofNat_toNat]

end Handle

namespace HandleTable

variable {α : Type}

/-- The parts of a table fit together. -/
structure Sound (t : HandleTable α) : Prop where
  capacity_le : t.capacity ≤ maxCapacity
  size_le : t.slots.size ≤ t.capacity
  /-- A slot is in the list of freed slots exactly if it is empty. -/
  mem_free : ∀ i, i ∈ t.free ↔ t.slots[i]? = some none
  nodup_free : t.free.Nodup
  /-- Every slot is taken or freed. -/
  count_add : t.count + t.free.length = t.slots.size
  /-- The count is the number of bindings. -/
  count_eq : t.count = t.bindings.length
  nextLinearId_pos : 0 < t.nextLinearId
  nextLinearId_lt : t.nextLinearId < Handle.linearIdRange
  linearId_range : ∀ (i : Nat) (e : Entry α), t.slots[i]? = some (some e) → 0 < e.linearId ∧ e.linearId < Handle.linearIdRange

/-! ## Bindings -/

/-- The bindings of slots that begin with slot `first`. -/
def bindingsFrom (first : Nat) : List (Option (Entry α)) → List (Handle × α)
  | [] => []
  | none :: rest => bindingsFrom (first + 1) rest
  | some e :: rest => (Handle.compose e.linearId first, e.object) :: bindingsFrom (first + 1) rest

/-- The bindings of a table are those of its slots, from the first one on. -/
theorem bindings_eq (t : HandleTable α) : t.bindings = bindingsFrom 0 t.slots.toList := by
  have h : ∀ (slots : List (Option (Entry α))) (first : Nat), (slots.zipIdx first).filterMap (fun p =>
      p.1.map fun entry => (Handle.compose entry.linearId p.2, entry.object)) = bindingsFrom first slots := by
    intro slots
    induction slots with
    | nil => intro first; rfl
    | cons slot rest ih =>
      intro first
      cases slot <;> simp [bindingsFrom, ih]
  exact h _ 0

/-- The bindings of slots in a row are those of the first ones, and then those of the others at their places. -/
theorem bindingsFrom_append (first : Nat) (slots slots' : List (Option (Entry α))) :
    bindingsFrom first (slots ++ slots') = bindingsFrom first slots ++ bindingsFrom (first + slots.length) slots' := by
  induction slots generalizing first with
  | nil => rfl
  | cons slot rest ih =>
    have hn : first + 1 + rest.length = first + (rest.length + 1) := by omega
    cases slot <;> simp [bindingsFrom, ih, hn]

/-- What taking an empty slot adds to the bindings. -/
theorem bindingsFrom_set (slots : List (Option (Entry α))) (i first : Nat) (e : Entry α) (h : slots[i]? = some none) :
    (bindingsFrom first (slots.set i (some e))).Perm
      ((Handle.compose e.linearId (first + i), e.object) :: bindingsFrom first slots) := by
  induction slots generalizing i first with
  | nil => simp at h
  | cons slot rest ih =>
    cases i with
    | zero =>
      obtain rfl : slot = none := by simpa using h
      exact List.Perm.refl _
    | succ i =>
      have hr := ih i (first + 1) (by simpa using h)
      have hn : first + 1 + i = first + (i + 1) := by omega
      rw [hn] at hr
      cases slot with
      | none => exact hr
      | some e' => exact (hr.cons _).trans (List.Perm.swap _ _ _)

/-- What a binding is: a taken slot. -/
theorem mem_bindingsFrom (slots : List (Option (Entry α))) (first : Nat) (b : Handle × α) : b ∈ bindingsFrom first slots ↔
    ∃ i e, slots[i]? = some (some e) ∧ b = (Handle.compose e.linearId (first + i), e.object) := by
  induction slots generalizing first with
  | nil => simp [bindingsFrom]
  | cons slot rest ih =>
    have hn : ∀ i, first + 1 + i = first + (i + 1) := by omega
    constructor
    · intro h
      cases slot with
      | none =>
        obtain ⟨i, e, he, rfl⟩ := (ih _).1 h
        exact ⟨i + 1, e, he, by rw [hn]⟩
      | some e' =>
        rcases List.mem_cons.1 h with rfl | h
        · exact ⟨0, e', rfl, rfl⟩
        · obtain ⟨i, e, he, rfl⟩ := (ih _).1 h
          exact ⟨i + 1, e, he, by rw [hn]⟩
    · rintro ⟨i, e, he, rfl⟩
      cases i with
      | zero =>
        obtain rfl : slot = some e := by simpa using he
        exact List.mem_cons_self
      | succ i =>
        have hm := (ih (first + 1)).2 ⟨i, e, by simpa using he, by rw [hn]⟩
        cases slot with
        | none => exact hm
        | some e' => exact List.mem_cons_of_mem _ hm

/-- A binding is an occupied slot under the handle of its linear id and its place. -/
theorem mem_bindings (t : HandleTable α) (b : Handle × α) : b ∈ t.bindings ↔
    ∃ i e, t.slots[i]? = some (some e) ∧ b = (Handle.compose e.linearId i, e.object) := by
  simp only [bindings_eq, mem_bindingsFrom, Array.getElem?_toList, Nat.zero_add]

/-! ## What a sound table resolves -/

namespace Sound

variable {t : HandleTable α}

/-- Every slot of a sound table has an index that fits into a handle. -/
theorem index_lt (hs : t.Sound) {i : Nat} {slot : Option (Entry α)} (h : t.slots[i]? = some slot) : i < Handle.indexRange := by
  obtain ⟨hi, -⟩ := Array.getElem?_eq_some_iff.1 h
  exact Nat.lt_of_lt_of_le hi (Nat.le_trans hs.size_le hs.capacity_le)

/-- A handle resolves exactly to what it is bound to. -/
theorem resolve_eq_some_iff (hs : t.Sound) (h : Handle) (o : α) : t.resolve h = some o ↔ (h, o) ∈ t.bindings := by
  rw [mem_bindings]
  constructor
  · intro hr
    unfold resolve entry? at hr
    split at hr
    · next hi =>
      split at hr
      · next e he =>
        split at hr
        · next hl =>
          refine ⟨h.index, e, Option.join_eq_some_iff.1 he, ?_⟩
          rw [hl, Handle.compose_of_isIssuable hi, Option.some.inj hr]
        · simp at hr
      · simp at hr
    · simp at hr
  · rintro ⟨i, e, he, hb⟩
    obtain ⟨rfl, rfl⟩ := Prod.mk.inj hb
    obtain ⟨h0, hl⟩ := hs.linearId_range i e he
    have hi := hs.index_lt he
    unfold resolve entry?
    rw [if_pos (Handle.isIssuable_compose hl hi h0), Handle.index_compose hl hi, he, Handle.linearId_compose hl hi]
    simp

/-- Bindings stand in the order of their slots. -/
theorem pairwise_bindings (hs : t.Sound) : t.bindings.Pairwise fun b b' => b.1.index < b'.1.index := by
  have h : ∀ (slots : List (Option (Entry α))) (first : Nat), first + slots.length ≤ Handle.indexRange →
      (∀ (i : Nat) (e : Entry α), slots[i]? = some (some e) → e.linearId < Handle.linearIdRange) →
      (bindingsFrom first slots).Pairwise fun b b' => b.1.index < b'.1.index := by
    intro slots
    induction slots with
    | nil => exact fun _ _ _ => List.Pairwise.nil
    | cons slot rest ih =>
      intro first hlen hid
      rw [List.length_cons] at hlen
      have hrest := ih (first + 1) (by omega) fun i e he => hid (i + 1) e (by simpa using he)
      cases slot with
      | none => exact hrest
      | some e =>
        refine List.pairwise_cons.2 ⟨fun b hb => ?_, hrest⟩
        obtain ⟨i, e', he', rfl⟩ := (mem_bindingsFrom _ _ _).1 hb
        have hi : i < rest.length := (List.getElem?_eq_some_iff.1 he').1
        rw [Handle.index_compose (hid 0 e rfl) (by omega), Handle.index_compose (hid (i + 1) e' (by simpa using he')) (by omega)]
        omega
  rw [bindings_eq]
  refine h _ 0 ?_ fun i e he => (hs.linearId_range i e (by simpa using he)).2
  have := Nat.le_trans hs.size_le hs.capacity_le
  rw [Array.length_toList]
  unfold maxCapacity at this
  omega

/-- No handle is bound twice. -/
theorem nodup_handles (hs : t.Sound) : (t.bindings.map (·.1)).Nodup := by
  rw [List.Nodup, List.pairwise_map]
  refine hs.pairwise_bindings.imp ?_
  intro b b' hlt he
  rw [he] at hlt
  exact Nat.lt_irrefl _ hlt

/-- If one table has one binding more than the other, that handle names nothing in the other. -/
theorem resolve_eq_none_of_perm {t' : HandleTable α} (hs : t.Sound) (hs' : t'.Sound) {h : Handle} {o : α}
    (hp : t'.bindings.Perm ((h, o) :: t.bindings)) : t.resolve h = none := by
  have hnd := (hp.map (·.1)).nodup_iff.1 hs'.nodup_handles
  rw [List.map_cons, List.nodup_cons] at hnd
  cases hr : t.resolve h with
  | none => rfl
  | some o' => exact absurd (List.mem_map_of_mem ((hs.resolve_eq_some_iff h o').1 hr)) hnd.1

/-- If one table has one binding more than the other, they differ in what that handle resolves to. -/
theorem resolve_of_perm {t' : HandleTable α} (hs : t.Sound) (hs' : t'.Sound) {h : Handle} {o : α}
    (hp : t'.bindings.Perm ((h, o) :: t.bindings)) (h' : Handle) : t'.resolve h' = if h' = h then some o else t.resolve h' := by
  by_cases hh : h' = h
  · rw [if_pos hh, hh, hs'.resolve_eq_some_iff, hp.mem_iff]
    exact List.mem_cons_self
  · rw [if_neg hh]
    apply Option.ext
    intro o'
    rw [hs'.resolve_eq_some_iff, hs.resolve_eq_some_iff, hp.mem_iff, List.mem_cons, Prod.mk.injEq]
    simp [hh]

/-- A sound table has at most as many bindings as its capacity. -/
theorem length_bindings_le (hs : t.Sound) : t.bindings.length ≤ t.capacity := by
  have := hs.count_eq
  have := hs.count_add
  have := hs.size_le
  omega

end Sound

/-! ## The operations keep a table sound -/

/-- A new table is sound. -/
theorem sound_new (capacity : Nat) : (new capacity : HandleTable α).Sound where
  capacity_le := by
    unfold new maxCapacity Handle.indexRange
    dsimp only
    omega
  size_le := Nat.zero_le _
  mem_free := by simp [new]
  nodup_free := List.nodup_nil
  count_add := rfl
  count_eq := rfl
  nextLinearId_pos := Nat.one_pos
  nextLinearId_lt := show 1 < Handle.linearIdRange by decide
  linearId_range := by simp [new]

/-- A new table has no bindings. -/
theorem bindings_new (capacity : Nat) : (new capacity : HandleTable α).bindings = [] := rfl

/-- No linear id is zero. -/
theorem succLinearId_pos (id : Nat) : 0 < succLinearId id := by
  unfold succLinearId
  split <;> omega

/-- Every linear id fits into a handle. -/
theorem succLinearId_lt (id : Nat) : succLinearId id < Handle.linearIdRange := by
  unfold succLinearId maxLinearId Handle.linearIdRange
  split <;> omega

/-- A full table refuses. -/
theorem generate_of_full {t : HandleTable α} (h : t.capacity ≤ t.count) (o : α) :
    t.generate o = .error (.outOfHandles t.capacity) := by
  unfold generate
  exact if_pos h

/-- What binding an object does: the handle is one that can be issued, and its binding is all that is new. -/
structure Bound (t : HandleTable α) (o : α) (h : Handle) (t' : HandleTable α) : Prop where
  sound : t'.Sound
  issuable : h.isIssuable = true
  bindings : t'.bindings.Perm ((h, o) :: t.bindings)
  capacity : t'.capacity = t.capacity

namespace Sound

variable {t : HandleTable α}

/-- Taking the slot that was freed last. -/
theorem bound_of_freed (hs : t.Sound) (o : α) {index : Nat} {free : List Nat} (hf : t.free = index :: free) :
    t.Bound o (Handle.compose t.nextLinearId index)
      { t with
        slots := t.slots.set! index (some { linearId := t.nextLinearId, object := o }), free
        nextLinearId := succLinearId t.nextLinearId, count := t.count + 1 } := by
  have he : t.slots[index]? = some none := (hs.mem_free index).1 (by rw [hf]; exact List.mem_cons_self)
  have hi : index < t.slots.size := (Array.getElem?_eq_some_iff.1 he).1
  have hperm := bindingsFrom_set t.slots.toList index 0 { linearId := t.nextLinearId, object := o } (by simpa using he)
  have hnd := hs.nodup_free
  rw [hf, List.nodup_cons] at hnd
  rw [Nat.zero_add, ← bindings_eq] at hperm
  have hb : HandleTable.bindings { t with
        slots := t.slots.set! index (some { linearId := t.nextLinearId, object := o }), free
        nextLinearId := succLinearId t.nextLinearId, count := t.count + 1 } =
      bindingsFrom 0 (t.slots.toList.set index (some { linearId := t.nextLinearId, object := o })) := by
    rw [bindings_eq]
    simp
  have hadd := hs.count_add
  rw [hf, List.length_cons] at hadd
  constructor
  case issuable => exact Handle.isIssuable_compose hs.nextLinearId_lt (hs.index_lt he) hs.nextLinearId_pos
  case bindings => rw [hb]; exact hperm
  case capacity => rfl
  case sound =>
    constructor
    case capacity_le => exact hs.capacity_le
    case size_le => simpa using hs.size_le
    case mem_free =>
      intro i
      have hm := hs.mem_free i
      rw [hf, List.mem_cons] at hm
      by_cases hii : i = index
      · subst hii
        simp [hnd.1, hi]
      · simp only [Array.set!_eq_setIfInBounds, Array.getElem?_setIfInBounds, Ne.symm hii, if_false]
        rw [← hm]
        simp [hii]
    case nodup_free => exact hnd.2
    case count_add => simp; omega
    case count_eq =>
      rw [hb, hperm.length_eq, List.length_cons, hs.count_eq]
    case nextLinearId_pos => exact succLinearId_pos _
    case nextLinearId_lt => exact succLinearId_lt _
    case linearId_range =>
      intro i e h
      by_cases hii : index = i
      · subst hii
        simp [hi] at h
        rw [← h]
        exact ⟨hs.nextLinearId_pos, hs.nextLinearId_lt⟩
      · simp only [Array.set!_eq_setIfInBounds, Array.getElem?_setIfInBounds, hii, if_false] at h
        exact hs.linearId_range i e h

/-- An empty slot behind the others binds nothing. -/
theorem bindings_push_none (t : HandleTable α) (free : List Nat) :
    HandleTable.bindings { t with slots := t.slots.push none, free } = t.bindings := by
  rw [bindings_eq, bindings_eq, Array.toList_push, bindingsFrom_append]
  exact List.append_nil _

/-- A table without a freed slot that is not full may open one. -/
theorem opened (hs : t.Sound) (hc : t.count < t.capacity) (hf : t.free = []) :
    Sound { t with slots := t.slots.push none, free := [t.slots.size] } := by
  have hadd := hs.count_add
  rw [hf, List.length_nil, Nat.add_zero] at hadd
  constructor
  case capacity_le => exact hs.capacity_le
  case size_le =>
    change (t.slots.push none).size ≤ t.capacity
    rw [Array.size_push]
    omega
  case mem_free =>
    intro i
    have hm := hs.mem_free i
    rw [hf] at hm
    rw [List.mem_singleton, Array.getElem?_push]
    by_cases hi : i = t.slots.size
    · simp [hi]
    · rw [if_neg hi, ← hm]
      simp [hi]
  case nodup_free => exact List.nodup_cons.2 ⟨List.not_mem_nil, List.nodup_nil⟩
  case count_add => simp; omega
  case count_eq => rw [bindings_push_none, hs.count_eq]
  case nextLinearId_pos => exact hs.nextLinearId_pos
  case nextLinearId_lt => exact hs.nextLinearId_lt
  case linearId_range =>
    intro i e h
    rw [Array.getElem?_push] at h
    by_cases hi : i = t.slots.size
    · simp [hi] at h
    · rw [if_neg hi] at h
      exact hs.linearId_range i e h

/-- A table that is not full takes the slot that was freed last, or opens one and takes that. -/
theorem generate (hs : t.Sound) (hc : t.count < t.capacity) (o : α) : ∃ h t', t.generate o = .ok (h, t') ∧ t.Bound o h t' := by
  cases hf : t.free with
  | cons index free =>
    refine ⟨_, _, ?_, hs.bound_of_freed o hf⟩
    rw [HandleTable.generate, if_neg (Nat.not_le.2 hc), hf]
  | nil =>
    have ho := hs.opened hc hf
    have hb := ho.bound_of_freed o rfl
    have hslots : (t.slots.push none).set! t.slots.size (some { linearId := t.nextLinearId, object := o }) =
        t.slots.push (some { linearId := t.nextLinearId, object := o }) := by
      apply Array.toList_inj.1
      simp
    refine ⟨Handle.compose t.nextLinearId t.slots.size, _, ?_, hb.sound, hb.issuable, ?_, hb.capacity⟩
    · rw [HandleTable.generate, if_neg (Nat.not_le.2 hc), hf, hslots]
    · rw [← bindings_push_none t [t.slots.size]]
      exact hb.bindings

end Sound

/-- The new handle named nothing before. -/
theorem Bound.fresh {t t' : HandleTable α} {o : α} {h : Handle} (hb : t.Bound o h t') (hs : t.Sound) : t.resolve h = none :=
  hs.resolve_eq_none_of_perm hb.sound hb.bindings

/-- Only the new handle resolves to something else than before. -/
theorem Bound.resolve {t t' : HandleTable α} {o : α} {h : Handle} (hb : t.Bound o h t') (hs : t.Sound) (h' : Handle) :
    t'.resolve h' = if h' = h then some o else t.resolve h' := hs.resolve_of_perm hb.sound hb.bindings h'

/-- What closing a handle does: its binding is all that goes. -/
structure Unbound (t : HandleTable α) (h : Handle) (o : α) (t' : HandleTable α) : Prop where
  sound : t'.Sound
  bindings : t.bindings.Perm ((h, o) :: t'.bindings)
  capacity : t'.capacity = t.capacity

/-- Only the closed handle resolves to something else than before, to nothing. -/
theorem Unbound.resolve {t t' : HandleTable α} {h : Handle} {o : α} (hu : t.Unbound h o t') (hs : t.Sound) (h' : Handle) :
    t'.resolve h' = if h' = h then none else t.resolve h' := by
  have hr := hu.sound.resolve_of_perm hs hu.bindings h'
  by_cases hh : h' = h
  · rw [if_pos hh, hh]
    exact hu.sound.resolve_eq_none_of_perm hs hu.bindings
  · rw [if_neg hh] at hr ⊢
    exact hr.symm

/-- Closing a handle that names nothing is refused. -/
theorem close_of_none {t : HandleTable α} {h : Handle} (hr : t.resolve h = none) : t.close h = .error (.invalidHandle h) := by
  unfold close
  rw [hr]

namespace Sound

variable {t : HandleTable α}

/-- Closing a handle that names an object gives the object back. -/
theorem close (hs : t.Sound) {h : Handle} {o : α} (hr : t.resolve h = some o) :
    ∃ t', t.close h = .ok (o, t') ∧ t.Unbound h o t' := by
  obtain ⟨i, e, he, hb⟩ := (mem_bindings _ _).1 ((hs.resolve_eq_some_iff h o).1 hr)
  obtain ⟨rfl, rfl⟩ := Prod.mk.inj hb
  obtain ⟨hi, hget⟩ := Array.getElem?_eq_some_iff.1 he
  have hidx := Handle.index_compose (hs.linearId_range i e he).2 (hs.index_lt he)
  -- putting the entry back gives the table that was closed
  have hset : (t.slots.toList.set i none).set i (some e) = t.slots.toList := by
    rw [List.set_set, ← hget, ← Array.getElem_toList, List.set_getElem_self]
  have hperm := bindingsFrom_set (t.slots.toList.set i none) i 0 e (by simp [hi])
  rw [hset, Nat.zero_add, ← bindings_eq] at hperm
  have hb' : HandleTable.bindings { t with slots := t.slots.set! i none, free := i :: t.free, count := t.count - 1 } =
      bindingsFrom 0 (t.slots.toList.set i none) := by
    rw [bindings_eq]
    simp
  have hlen := hperm.length_eq
  rw [← hb', List.length_cons, ← hs.count_eq] at hlen
  have hfree : i ∉ t.free := by
    intro hm
    rw [hs.mem_free, he] at hm
    simp at hm
  refine ⟨{ t with slots := t.slots.set! i none, free := i :: t.free, count := t.count - 1 }, ?_, ?_, ?_, rfl⟩
  · unfold HandleTable.close
    rw [hr, hidx]
  · have hadd := hs.count_add
    constructor
    case capacity_le => exact hs.capacity_le
    case size_le => simpa using hs.size_le
    case mem_free =>
      intro j
      have hm := hs.mem_free j
      rw [List.mem_cons, hm]
      by_cases hij : j = i
      · subst hij
        simp [hi]
      · simp [hij, Ne.symm hij]
    case nodup_free => exact List.nodup_cons.2 ⟨hfree, hs.nodup_free⟩
    case count_add => simp; omega
    case count_eq =>
      change t.count - 1 = _
      omega
    case nextLinearId_pos => exact hs.nextLinearId_pos
    case nextLinearId_lt => exact hs.nextLinearId_lt
    case linearId_range =>
      intro j e' h
      by_cases hij : i = j
      · subst hij
        simp [hi] at h
      · simp only [Array.set!_eq_setIfInBounds, Array.getElem?_setIfInBounds, hij, if_false] at h
        exact hs.linearId_range j e' h
  · rw [hb']
    exact hperm

/-- Draining keeps the capacity and forgets every binding. -/
theorem drain (hs : t.Sound) : t.drain.2.Sound where
  capacity_le := hs.capacity_le
  size_le := Nat.zero_le _
  mem_free := by simp [HandleTable.drain]
  nodup_free := List.nodup_nil
  count_add := rfl
  count_eq := rfl
  nextLinearId_pos := hs.nextLinearId_pos
  nextLinearId_lt := hs.nextLinearId_lt
  linearId_range := by simp [HandleTable.drain]

end Sound

end HandleTable

end Microkernel
