import Microkernel.Proofs.Memory.Pages

/-!
# Address spaces in order

The mappings of an address space stand in ascending order, are not empty and do not overlap (`AddressSpace.Ordered`): mapping,
unmapping and changing permissions keep it so. Then an address lies in at most one mapping, and `mappingAt` finds it.
-/

namespace Microkernel

/-- A mapping covers the addresses from its own up to its limit. -/
theorem Mapping.covers_iff {m : Mapping} {address : Nat} :
    m.covers address = true ↔ m.address ≤ address ∧ address < m.limit := by
  simp [covers]

/-- Whatever else is in an ascending list comes before its last member. -/
theorem eq_or_of_getLast? {α : Type} {r : α → α → Prop} {l : List α} {last a : α} (h : l.Pairwise r) (hl : l.getLast? = some last)
    (ha : a ∈ l) : a = last ∨ r a last := by
  obtain ⟨before, rfl⟩ := List.getLast?_eq_some_iff.1 hl
  rcases List.mem_append.1 ha with ha | ha
  · exact .inr ((List.pairwise_append.1 h).2.2 a ha last (List.mem_singleton_self _))
  · exact .inl (List.mem_singleton.1 ha)

namespace AddressSpace

/-- The mappings are in ascending order, are not empty, do not overlap and lie below the word limit. -/
structure Ordered (s : AddressSpace) : Prop where
  apart : s.mappings.Pairwise fun m m' => m.limit ≤ m'.address
  positive : ∀ m ∈ s.mappings, 0 < m.size
  below : ∀ m ∈ s.mappings, m.limit < wordLimit

variable {s s' : AddressSpace} {m m' : Mapping} {address size : Nat}

theorem ordered_empty : Ordered {} := ⟨List.Pairwise.nil, fun _ hm => (nomatch hm), fun _ hm => (nomatch hm)⟩

namespace Ordered

/-! ## Finding a mapping -/

/-- What begins before an address comes before the last mapping that does. -/
theorem eq_or_limit_le (h : s.Ordered) {last : Mapping} (hl : s.lastBefore address = some last) (hm : m ∈ s.mappings)
    (ha : m.address < address) : m = last ∨ m.limit ≤ last.address :=
  eq_or_of_getLast? (h.apart.filter _) hl (List.mem_filter.2 ⟨hm, decide_eq_true ha⟩)

/-- An address lies in the mapping that is found for it, and in no other. -/
theorem mappingAt_iff (h : s.Ordered) : s.mappingAt address = some m ↔ m ∈ s.mappings ∧ m.covers address = true := by
  constructor
  · exact fun hm => ⟨mem_of_mappingAt hm, covers_of_mappingAt hm⟩
  · rintro ⟨hm, hc⟩
    obtain ⟨hle, hlt⟩ := Mapping.covers_iff.1 hc
    have hbefore : m.address < address + 1 := Nat.lt_succ_of_le hle
    cases hl : s.lastBefore (address + 1) with
    | none =>
      rw [lastBefore, List.getLast?_eq_none_iff, List.filter_eq_nil_iff] at hl
      exact absurd (decide_eq_true hbefore) (hl m hm)
    | some last =>
      rcases h.eq_or_limit_le hl hm hbefore with rfl | hlimit
      · rw [mappingAt, hl]
        exact Option.filter_eq_some_iff.2 ⟨rfl, hc⟩
      · have hlast := (List.mem_filter.1 (List.mem_of_getLast? hl)).2
        rw [decide_eq_true_eq] at hlast
        omega

/-- Two mappings that cover one address are the same. -/
theorem eq_of_covers (h : s.Ordered) (hm : m ∈ s.mappings) (hm' : m' ∈ s.mappings) (hc : m.covers address = true)
    (hc' : m'.covers address = true) : m = m' :=
  Option.some.inj ((h.mappingAt_iff.2 ⟨hm, hc⟩).symm.trans (h.mappingAt_iff.2 ⟨hm', hc'⟩))

/-- A mapping is known by its address. -/
theorem eq_of_address (h : s.Ordered) (hm : m ∈ s.mappings) (hm' : m' ∈ s.mappings) (ha : m.address = m'.address) : m = m' := by
  have hfirst {m : Mapping} (hm : m ∈ s.mappings) : m.covers m.address = true :=
    Mapping.covers_iff.2 ⟨Nat.le_refl _, Nat.lt_add_of_pos_right (h.positive m hm)⟩
  exact h.eq_of_covers hm hm' (hfirst hm) (ha ▸ hfirst hm')

/-- What begins before the end of a free range ends before its start. -/
theorem limit_le_of_isFree (h : s.Ordered) (hfree : s.isFree address size = true) (hm : m ∈ s.mappings)
    (ha : m.address < min (address + size) (wordLimit - 1)) : m.limit ≤ address := by
  unfold isFree at hfree
  cases hl : s.lastBefore (min (address + size) (wordLimit - 1)) with
  | none =>
    rw [lastBefore, List.getLast?_eq_none_iff, List.filter_eq_nil_iff] at hl
    exact absurd (decide_eq_true ha) (hl m hm)
  | some last =>
    rw [hl] at hfree
    have hlast : last.limit ≤ address := of_decide_eq_true hfree
    rcases h.eq_or_limit_le hl hm ha with rfl | hlimit
    · exact hlast
    · have : last.limit = last.address + last.size := rfl
      omega

end Ordered

/-! ## Mapping -/

/-- A mapping that is beside all others finds its place among them. -/
theorem pairwise_insert {mappings : List Mapping} (h : mappings.Pairwise fun m m' => m.limit ≤ m'.address)
    (hpositive : ∀ m ∈ mappings, 0 < m.size) (hm : 0 < m.size)
    (hbeside : ∀ m' ∈ mappings, m'.limit ≤ m.address ∨ m.limit ≤ m'.address) :
    (insert m mappings).Pairwise fun m m' => m.limit ≤ m'.address := by
  have hlimit (m : Mapping) : m.limit = m.address + m.size := rfl
  induction mappings with
  | nil => exact List.pairwise_singleton _ _
  | cons next rest ih =>
    obtain ⟨hfirst, hrest⟩ := List.pairwise_cons.1 h
    have hnext := hbeside next List.mem_cons_self
    have hsize := hpositive next List.mem_cons_self
    unfold insert
    split
    · next hlt =>
      have hle : m.limit ≤ next.address := by
        have := hlimit next
        omega
      refine List.pairwise_cons.2 ⟨fun m' hm' => ?_, h⟩
      rcases List.mem_cons.1 hm' with rfl | hm'
      · exact hle
      · have := hfirst m' hm'
        have := hlimit next
        omega
    · next hge =>
      refine List.pairwise_cons.2 ⟨fun m' hm' => ?_, ?_⟩
      · rcases mem_insert.1 hm' with rfl | hm'
        · have := hlimit m'
          omega
        · exact hfirst m' hm'
      · exact ih hrest (fun m' hm' => hpositive m' (List.mem_cons_of_mem _ hm'))
          fun m' hm' => hbeside m' (List.mem_cons_of_mem _ hm')

/-- A mapping that is made is not empty, lies below the word limit and overlaps no other. -/
theorem Ordered.map_ok (h : s.Ordered) (hmap : s.map m = .ok s') : 0 < m.size ∧ m.limit < wordLimit ∧
    ∀ m' ∈ s.mappings, m'.limit ≤ m.address ∨ m.limit ≤ m'.address := by
  unfold AddressSpace.map at hmap
  split at hmap
  · cases hmap
  · split at hmap
    · cases hmap
    · next hsize =>
      split at hmap
      · cases hmap
      · next hword =>
        rw [Bool.or_eq_true, decide_eq_true_eq, Bool.not_eq_true', not_or, Nat.not_le, Bool.not_eq_false] at hword
        obtain ⟨hlt, hfree⟩ := hword
        refine ⟨Nat.pos_of_ne_zero hsize, hlt, fun m' hm' => ?_⟩
        by_cases hbefore : m'.address < m.limit
        · refine .inl (h.limit_le_of_isFree hfree hm' ?_)
          have : m.limit = m.address + m.size := rfl
          omega
        · exact .inr (Nat.le_of_not_lt hbefore)

/-- Mapping keeps a space in order. -/
theorem Ordered.map (h : s.Ordered) (hmap : s.map m = .ok s') : s'.Ordered := by
  obtain ⟨hsize, hbelow, hbeside⟩ := h.map_ok hmap
  have hmem {m' : Mapping} (hm' : m' ∈ s'.mappings) : m' = m ∨ m' ∈ s.mappings := by
    rw [(AddressSpace.map_ok hmap).2] at hm'
    exact mem_insert.1 hm'
  constructor
  case apart =>
    rw [(AddressSpace.map_ok hmap).2]
    exact pairwise_insert h.apart h.positive hsize hbeside
  case positive => exact fun m' hm' => (hmem hm').elim (fun heq => heq ▸ hsize) (h.positive m')
  case below => exact fun m' hm' => (hmem hm').elim (fun heq => heq ▸ hbelow) (h.below m')

/-! ## Unmapping -/

/-- What is unmapped stood at exactly this address, with this size and for this object; the rest stays. -/
theorem unmap_spec {object : Option Nat} (h : s.unmap address size object = .ok (m, s')) :
    m ∈ s.mappings ∧ m.address = address ∧ m.object = object ∧ s'.mappings = s.mappings.filter (·.address ≠ address) := by
  unfold unmap at h
  split at h
  · next found hfind =>
    split at h
    · next hsame =>
      obtain ⟨rfl, rfl⟩ := Prod.mk.inj (Except.ok.inj h)
      have hat := List.find?_some hfind
      exact ⟨List.mem_of_find?_eq_some hfind, of_decide_eq_true hat, hsame.2, rfl⟩
    · cases h
  · cases h

/-- Unmapping keeps a space in order. -/
theorem Ordered.unmap {object : Option Nat} (h : s.Ordered) (hu : s.unmap address size object = .ok (m, s')) : s'.Ordered := by
  obtain ⟨-, -, -, hrest⟩ := unmap_spec hu
  constructor
  case apart => exact hrest ▸ h.apart.filter _
  case positive => exact fun m' hm' => h.positive m' (unmap_ok hu m' hm')
  case below => exact fun m' hm' => h.below m' (unmap_ok hu m' hm')

/-! ## Permissions -/

/-- Changing mappings where they stand. -/
theorem Ordered.of_map (h : s.Ordered) {f : Mapping → Mapping} (hf : ∀ m, (f m).address = m.address ∧ (f m).size = m.size) :
    Ordered ⟨s.mappings.map f⟩ := by
  have hlimit (m : Mapping) : (f m).limit = m.limit := by
    rw [Mapping.limit, (hf m).1, (hf m).2]
    rfl
  constructor
  case apart =>
    refine List.pairwise_map.2 (h.apart.imp fun {m m'} hle => ?_)
    rw [hlimit, (hf m').1]
    exact hle
  case positive =>
    intro m' hm'
    obtain ⟨m, hm, rfl⟩ := List.mem_map.1 hm'
    rw [(hf m).2]
    exact h.positive m hm
  case below =>
    intro m' hm'
    obtain ⟨m, hm, rfl⟩ := List.mem_map.1 hm'
    rw [hlimit]
    exact h.below m hm

end AddressSpace

end Microkernel
