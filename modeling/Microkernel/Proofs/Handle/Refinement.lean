import Mathlib.Data.Finmap
import Microkernel.Proofs.Handle.Soundness

/-!
# A handle table is a finite map

`HandleTable.run` performs operations on a new table and keeps beside it the map that their answers describe: a handle that was given
out is bound to its object until it is closed or the table is drained. `refines_map` says that after every run the table answers every
question as this map does (`Refines`), so slots, freed slots and linear ids are never seen.
-/

namespace Microkernel.HandleTable

variable {α : Type}

/-- The objects that handles are bound to. -/
abbrev Live (α : Type) := Finmap fun _ : Handle => α

/-- What can be done with a table. -/
inductive Operation (α : Type)
  | generate (object : α)
  | close (handle : Handle)
  | resolve (handle : Handle)
  | drain
  | iterate

/-- An operation on a table, and what its answer says about the bindings. An operation that is refused changes nothing. -/
def Operation.apply : Operation α → HandleTable α × Live α → HandleTable α × Live α
  | generate object, (t, live) =>
    match t.generate object with
    | .ok (handle, t) => (t, live.insert handle object)
    | .error _ => (t, live)
  | close handle, (t, live) =>
    match t.close handle with
    | .ok (_, t) => (t, live.erase handle)
    | .error _ => (t, live)
  | resolve _, state => state
  | drain, (t, _) => (t.drain.2, ∅)
  | iterate, state => state

/-- A run from a new table without bindings. -/
def run (capacity : Nat) (operations : List (Operation α)) : HandleTable α × Live α :=
  operations.foldl (fun state operation => operation.apply state) (new capacity, ∅)

/-- The bindings of a list as the entries of a map. -/
def entriesOf (bindings : List (Handle × α)) : List (Sigma fun _ : Handle => α) := bindings.map fun b => ⟨b.1, b.2⟩

/-- The table answers as the map says. -/
structure Refines (capacity : Nat) (t : HandleTable α) (live : Live α) : Prop where
  /-- As many bindings as the capacity allows, and the table is full. -/
  generate_full : live.keys.card = capacity → ∀ object, t.generate object = .error (.outOfHandles capacity)
  /-- Otherwise it binds the object to a handle that is not in use and not reserved. -/
  generate_free : live.keys.card ≠ capacity → ∀ object, ∃ handle t', t.generate object = .ok (handle, t') ∧ handle ∉ live ∧
    handle ≠ .invalid ∧ handle.isPseudo = false ∧ handle.raw.toNat < 2 ^ 30
  /-- Every value is looked up in the map. -/
  resolve : ∀ handle, t.resolve handle = live.lookup handle
  /-- A handle in use can be closed; only it is gone then. -/
  close_live : ∀ handle object, live.lookup handle = some object → ∃ t', t.close handle = .ok (object, t') ∧
    ∀ other, t'.resolve other = (live.erase handle).lookup other
  /-- No other value can be closed. -/
  close_dead : ∀ handle, handle ∉ live → t.close handle = .error (.invalidHandle handle)
  /-- Iterating gives every binding once, in the order of the slots. -/
  bindings : (entriesOf t.bindings : Multiset (Sigma fun _ : Handle => α)) = live.entries
  bindings_sorted : t.bindings.Pairwise fun b b' => b.1.index < b'.1.index
  /-- Draining gives the same and leaves nothing. -/
  drain : t.drain.1 = t.bindings ∧ ∀ handle, t.drain.2.resolve handle = none
  count : t.count = live.keys.card
  violations : t.violations = []

/-! ## The map of a sound table -/

/-- A sound table and the map of what its handles resolve to. -/
structure Represents (t : HandleTable α) (live : Live α) : Prop where
  sound : t.Sound
  resolve : ∀ handle, t.resolve handle = live.lookup handle

namespace Represents

variable {t : HandleTable α} {live : Live α}

/-- The bindings of the table are the entries of the map. -/
theorem entries_eq (h : t.Represents live) : (entriesOf t.bindings : Multiset (Sigma fun _ : Handle => α)) = live.entries := by
  have hnd : (entriesOf t.bindings).Nodup := by
    refine List.Nodup.map ?_ h.sound.nodup_handles.of_map
    intro b b' he
    exact Prod.ext (congrArg Sigma.fst he) (eq_of_heq (Sigma.mk.inj he).2)
  refine (Multiset.Nodup.ext (Multiset.coe_nodup.2 hnd) live.nodup_entries).2 ?_
  rintro ⟨handle, object⟩
  rw [Multiset.mem_coe, ← Finmap.lookup_eq_some_iff, ← h.resolve, h.sound.resolve_eq_some_iff, entriesOf, List.mem_map]
  constructor
  · rintro ⟨b, hb, he⟩
    obtain ⟨rfl, ho⟩ := Sigma.mk.inj he
    obtain rfl := eq_of_heq ho
    exact hb
  · intro hb
    exact ⟨_, hb, rfl⟩

/-- The table counts the handles of the map. -/
theorem count_eq (h : t.Represents live) : t.count = live.keys.card := by
  have hc := congrArg Multiset.card h.entries_eq
  rw [Multiset.coe_card, entriesOf, List.length_map] at hc
  rw [h.sound.count_eq, hc]
  exact (Multiset.card_map _ _).symm

/-- A handle is in the map exactly if it resolves in the table. -/
theorem mem_iff (h : t.Represents live) (handle : Handle) : handle ∈ live ↔ t.resolve handle ≠ none := by
  rw [h.resolve, ne_eq, Finmap.lookup_eq_none, not_not]

/-! ### Steps -/

/-- A new table stands for the empty map. -/
theorem new (capacity : Nat) : (HandleTable.new capacity : HandleTable α).Represents ∅ where
  sound := sound_new capacity
  resolve handle := by
    rw [Finmap.lookup_empty]
    rcases hr : (HandleTable.new capacity : HandleTable α).resolve handle with _ | object
    · rfl
    · rw [(sound_new capacity).resolve_eq_some_iff, bindings_new] at hr
      exact absurd hr List.not_mem_nil

/-- Binding an object inserts its handle. -/
theorem bound (h : t.Represents live) {object : α} {handle : Handle} {t' : HandleTable α} (hb : t.Bound object handle t') :
    t'.Represents (live.insert handle object) := by
  refine ⟨hb.sound, fun other => ?_⟩
  rw [hb.resolve h.sound]
  split
  · next ho => rw [ho, Finmap.lookup_insert]
  · next ho => rw [Finmap.lookup_insert_of_ne _ ho, h.resolve]

/-- Closing a handle erases it. -/
theorem unbound (h : t.Represents live) {object : α} {handle : Handle} {t' : HandleTable α} (hu : t.Unbound handle object t') :
    t'.Represents (live.erase handle) := by
  refine ⟨hu.sound, fun other => ?_⟩
  rw [hu.resolve h.sound]
  split
  · next ho => rw [ho, Finmap.lookup_erase]
  · next ho => rw [Finmap.lookup_erase_ne ho, h.resolve]

/-- Draining erases every handle. -/
theorem drained (h : t.Represents live) : t.drain.2.Represents ∅ where
  sound := h.sound.drain
  resolve handle := by
    rw [Finmap.lookup_empty]
    rcases hr : t.drain.2.resolve handle with _ | object
    · rfl
    · rw [h.sound.drain.resolve_eq_some_iff] at hr
      exact absurd hr List.not_mem_nil

/-- Every operation keeps the table and the map together. -/
theorem apply (h : t.Represents live) (operation : Operation α) :
    (operation.apply (t, live)).1.Represents (operation.apply (t, live)).2 ∧ (operation.apply (t, live)).1.capacity = t.capacity := by
  cases operation with
  | generate object =>
    by_cases hc : t.capacity ≤ t.count
    · simp only [Operation.apply, generate_of_full hc]
      exact ⟨h, trivial⟩
    · obtain ⟨handle, t', he, hb⟩ := h.sound.generate (Nat.not_le.1 hc) object
      simp only [Operation.apply, he]
      exact ⟨h.bound hb, hb.capacity⟩
  | close handle =>
    cases hr : t.resolve handle with
    | none =>
      simp only [Operation.apply, close_of_none hr]
      exact ⟨h, trivial⟩
    | some object =>
      obtain ⟨t', he, hu⟩ := h.sound.close hr
      simp only [Operation.apply, he]
      exact ⟨h.unbound hu, hu.capacity⟩
  | resolve handle => exact ⟨h, rfl⟩
  | drain => exact ⟨h.drained, rfl⟩
  | iterate => exact ⟨h, rfl⟩

end Represents

/-- A run keeps the table and the map together. -/
theorem represents_run (capacity : Nat) (operations : List (Operation α)) :
    (run capacity operations).1.Represents (run capacity operations).2 ∧
      (run capacity operations).1.capacity = max 1 (min capacity maxCapacity) := by
  have h : ∀ state : HandleTable α × Live α, state.1.Represents state.2 →
      let after := operations.foldl (fun state operation => operation.apply state) state
      after.1.Represents after.2 ∧ after.1.capacity = state.1.capacity := by
    induction operations with
    | nil => exact fun state hr => ⟨hr, rfl⟩
    | cons operation rest ih =>
      intro state hr
      obtain ⟨hstep, hcap⟩ := hr.apply operation
      obtain ⟨hrest, hcap'⟩ := ih _ hstep
      exact ⟨hrest, hcap'.trans hcap⟩
  exact h _ (Represents.new capacity)

/-! ## Violations -/

/-- An ascending list without repetitions repeats no value. -/
theorem repeats_of_nodup (l : List Nat) (h : l.Nodup) : repeats l = 0 := by
  induction l with
  | nil => rfl
  | cons a rest ih =>
    rw [List.nodup_cons] at h
    cases rest with
    | nil => rfl
    | cons b rest =>
      have hab : a ≠ b := fun he => h.1 (by rw [he]; exact List.mem_cons_self)
      rw [repeats, if_neg hab, ih h.2]

/-- A sound table breaks no invariant. -/
theorem Sound.violations_eq_nil {t : HandleTable α} (hs : t.Sound) : t.violations = [] := by
  have hcount : ¬((t.bindings.map (·.1)).length ≠ t.count ∨ t.capacity < t.count) := by
    have := hs.count_eq
    have := hs.length_bindings_le
    rw [List.length_map]
    omega
  have hraw : ((t.bindings.map (·.1)).map (·.raw.toNat)).Nodup := by
    refine hs.nodup_handles.map ?_
    rintro ⟨raw⟩ ⟨raw'⟩ he
    exact congrArg Handle.mk (UInt32.toNat_inj.1 he)
  have hrepeats := repeats_of_nodup _ (((List.mergeSort_perm _ (· ≤ ·)).nodup_iff).2 hraw)
  have hall : (t.bindings.map (·.1)).filter (fun h => !t.contains h) = [] := by
    rw [List.filter_eq_nil_iff]
    intro h hm
    obtain ⟨⟨h, o⟩, hb, rfl⟩ := List.mem_map.1 hm
    simp [contains, (hs.resolve_eq_some_iff h o).2 hb]
  unfold violations
  simp only [if_neg hcount, hrepeats, Nat.lt_irrefl, if_false, hall, List.map_nil, List.append_nil]

/-! ## The refinement -/

/-- A table and its map answer alike. -/
theorem Represents.refines {t : HandleTable α} {live : Live α} (h : t.Represents live) : Refines t.capacity t live where
  generate_full hcard object := generate_of_full (by rw [h.count_eq, hcard]) object
  generate_free hcard object := by
    have hle : t.count ≤ t.capacity := by
      rw [h.sound.count_eq]
      exact h.sound.length_bindings_le
    have hlt : t.count < t.capacity := lt_of_le_of_ne hle fun he => hcard (by rw [← h.count_eq, he])
    obtain ⟨handle, t', he, hb⟩ := h.sound.generate hlt object
    have hi := hb.issuable
    simp only [Handle.isIssuable, Bool.and_eq_true, Bool.not_eq_true', decide_eq_true_eq] at hi
    exact ⟨handle, t', he, fun hm => (h.mem_iff handle).1 hm (hb.fresh h.sound), hi.1.2, hi.1.1, hi.2⟩
  resolve := h.resolve
  close_live handle object hl := by
    obtain ⟨t', he, hu⟩ := h.sound.close ((h.resolve handle).trans hl)
    exact ⟨t', he, (h.unbound hu).resolve⟩
  close_dead handle hm := close_of_none (by_contra fun hr => hm ((h.mem_iff handle).2 hr))
  bindings := h.entries_eq
  bindings_sorted := h.sound.pairwise_bindings
  drain := ⟨rfl, fun handle => by rw [h.drained.resolve, Finmap.lookup_empty]⟩
  count := h.count_eq
  violations := h.sound.violations_eq_nil

/-- After every run from a new table, the table answers every question as the finite map of the bindings does. -/
theorem refines_map (capacity : Nat) (operations : List (Operation α)) :
    Refines (max 1 (min capacity maxCapacity)) (run capacity operations).1 (run capacity operations).2 := by
  obtain ⟨hr, hc⟩ := represents_run capacity operations
  rw [← hc]
  exact hr.refines

end Microkernel.HandleTable
