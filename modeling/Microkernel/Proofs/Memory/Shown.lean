import Microkernel.Proofs.Memory.Places
import Microkernel.Proofs.Memory.Spaces

/-!
# What address spaces show

A space shows places from an address on if each place lies behind its address in the mapping that covers it (`AddressSpace.Shows`). A
mapping shows the places of its pages; a range that shows places is translated to them (`AddressSpace.Ordered.translate_ok`). Capturing
a range of heap memory gives the places that it shows (`AddressSpace.capture_chain`), none of them twice, and the same places as long as
the mappings of heap memory stay (`AddressSpace.capture_of_kept`).
-/

namespace Microkernel

namespace AddressSpace

/-- From the address on, the mappings that cover the addresses are of a kind and have the places behind them. -/
def Shows (s : AddressSpace) (kind : Mapping → Prop) (address : Nat) (places : List Nat) : Prop :=
  ∀ k place, places[k]? = some place →
    ∃ m, s.mappingAt (address + k) = some m ∧ kind m ∧ m.pages.places[address + k - m.address]? = some place

variable {s s' : AddressSpace} {kind : Mapping → Prop} {m : Mapping} {address size cursor length : Nat} {places : List Nat}

namespace Shows

/-- A range of what is shown is shown from so much later on. -/
theorem slice (h : s.Shows kind address places) (offset length : Nat) :
    s.Shows kind (address + offset) (slice places offset length) := by
  intro k place hk
  by_cases hlt : k < length
  · rw [getElem?_slice _ _ hlt] at hk
    rw [Nat.add_assoc]
    exact h _ _ hk
  · rw [Microkernel.slice, List.getElem?_take, if_neg hlt] at hk
    cases hk

/-- What is shown behind an offset is shown from so much later on. -/
theorem drop (h : s.Shows kind address places) (n : Nat) : s.Shows kind (address + n) (places.drop n) := by
  intro k place hk
  rw [List.getElem?_drop] at hk
  rw [Nat.add_assoc]
  exact h _ _ hk

/-- As far as one mapping reaches, its places are shown. -/
theorem take_eq (h : s.Shows kind address places) (ho : s.Ordered) (hm : s.mappingAt address = some m) {n : Nat}
    (hn : n ≤ places.length) (hlimit : address + n ≤ m.limit) :
    places.take n = Microkernel.slice m.pages.places (address - m.address) n := by
  refine List.ext_getElem? fun k => ?_
  by_cases hk : k < n
  · obtain ⟨place, hplace⟩ : ∃ place, places[k]? = some place := ⟨_, List.getElem?_eq_getElem (Nat.lt_of_lt_of_le hk hn)⟩
    obtain ⟨m', hm', -, hat⟩ := h k place hplace
    obtain ⟨hle, -⟩ := Mapping.covers_iff.1 (covers_of_mappingAt hm)
    have hsame : s.mappingAt (address + k) = some m :=
      ho.mappingAt_iff.2 ⟨mem_of_mappingAt hm, Mapping.covers_iff.2 (by omega)⟩
    obtain rfl := Option.some.inj (hsame.symm.trans hm')
    rw [List.getElem?_take, if_pos hk, getElem?_slice _ _ hk, hplace, ← hat]
    congr 1
    omega
  · rw [List.getElem?_take, if_neg hk, Microkernel.slice, List.getElem?_take, if_neg hk]

end Shows

/-- A mapping shows the places of its pages. -/
theorem Ordered.shows (ho : s.Ordered) (hm : m ∈ s.mappings) (hsize : m.size = m.pages.size) (hkind : kind m) :
    s.Shows kind m.address m.pages.places := by
  intro k place hk
  have hlt : k < m.size := by
    rw [hsize, ← m.pages.length_places]
    exact (List.getElem?_eq_some_iff.1 hk).1
  refine ⟨m, ho.mappingAt_iff.2 ⟨hm, Mapping.covers_iff.2 ?_⟩, hkind, by rwa [Nat.add_sub_cancel_left]⟩
  have : m.limit = m.address + m.size := rfl
  omega

/-! ## Translating -/

/-- Translating stops at an address that is not mapped. -/
theorem translateFrom_unmapped {access : Access} (h0 : length ≠ 0) (hm : s.mappingAt cursor = none) :
    s.translateFrom access cursor length = .error (.invalidAddress cursor) := by
  unfold translateFrom
  rw [if_neg h0]
  split
  · rfl
  · next hsome => cases hm.symm.trans hsome

/-- Translating stops at a mapping that does not permit the access. -/
theorem translateFrom_denied {access : Access} (h0 : length ≠ 0) (hm : s.mappingAt cursor = some m)
    (hdenied : m.permission.allows access = false) : s.translateFrom access cursor length = .error .invalidPermission := by
  unfold translateFrom
  rw [if_neg h0]
  split
  · next hnone => cases hnone.symm.trans hm
  · next m' hm' =>
    obtain rfl := Option.some.inj (hm.symm.trans hm')
    rw [hdenied, Bool.not_false, if_pos rfl]

/-- Where the first address may be accessed, translating goes on behind the piece of its run. -/
theorem translateFrom_step {access : Access} (h0 : length ≠ 0) (hm : s.mappingAt cursor = some m)
    (hallowed : m.permission.allows access = true) {physical contiguous : Nat}
    (hl : m.pages.locate (cursor - m.address) = some (physical, contiguous)) : s.translateFrom access cursor length = do
      let rest ← s.translateFrom access (cursor + min (min contiguous (m.limit - cursor)) length)
        (length - min (min contiguous (m.limit - cursor)) length)
      return (physical, min (min contiguous (m.limit - cursor)) length) :: rest := by
  conv_lhs => unfold translateFrom
  rw [if_neg h0]
  split
  · next hnone => cases hnone.symm.trans hm
  · next m' hm' =>
    obtain rfl := Option.some.inj (hm.symm.trans hm')
    rw [hallowed, Bool.not_true, if_neg Bool.false_ne_true]
    split
    · next hnone => cases hnone.symm.trans hl
    · next physical' contiguous' hl' =>
      obtain ⟨rfl, rfl⟩ := Prod.mk.inj (Option.some.inj (hl.symm.trans hl'))
      rfl

/-- A range that shows places to an access is translated to pieces of them. -/
theorem Ordered.translateFrom_ok (ho : s.Ordered) {access : Access} (h : s.Shows (·.permission.allows access = true) cursor places) :
    ∃ pieces, s.translateFrom access cursor places.length = .ok pieces ∧ Cuts pieces places := by
  generalize hlength : places.length = length
  induction cursor, length using translateFrom.induct s access generalizing places with
  | case1 cursor =>
    unfold translateFrom
    obtain rfl := List.length_eq_zero_iff.1 hlength
    exact ⟨[], if_pos rfl, .nil⟩
  | case2 cursor length h0 hnone =>
    obtain ⟨m, hm, -⟩ := h 0 _ (List.getElem?_eq_getElem (by omega))
    cases hnone.symm.trans hm
  | case3 cursor length h0 m hm hdenied =>
    obtain ⟨m', hm', hallowed, -⟩ := h 0 _ (List.getElem?_eq_getElem (by omega))
    obtain rfl := Option.some.inj (hm.symm.trans hm')
    rw [hallowed] at hdenied
    cases hdenied
  | case4 cursor length h0 m hm hallowed hnone =>
    obtain ⟨m', hm', -, hat⟩ := h 0 _ (List.getElem?_eq_getElem (by omega))
    obtain rfl := Option.some.inj (hm.symm.trans hm')
    obtain ⟨physical, contiguous, hsome⟩ := PageList.exists_locateIn (List.getElem?_eq_some_iff.1 hat).1
    cases hnone.symm.trans hsome
  | case5 cursor length h0 m hm hallowed physical contiguous hsome piece =>
    rename_i ih
    obtain ⟨hle, hlt⟩ := Mapping.covers_iff.1 (covers_of_mappingAt hm)
    have hpositive : 0 < piece := Nat.lt_min.2
      ⟨Nat.lt_min.2 ⟨PageList.locateIn_pos hsome, by omega⟩, Nat.pos_of_ne_zero h0⟩
    have hlimit : piece ≤ m.limit - cursor := Nat.le_trans (Nat.min_le_left _ _) (Nat.min_le_right _ _)
    have hcontiguous : piece ≤ contiguous := Nat.le_trans (Nat.min_le_left _ _) (Nat.min_le_left _ _)
    have hpiece : piece ≤ length := Nat.min_le_right _ _
    have hfirst : places.take piece = List.range' physical piece := by
      rw [h.take_eq ho hm (by omega) (by omega), ← take_slice _ _ hcontiguous, ← List.take_range'_of_length_ge hcontiguous]
      exact congrArg (List.take piece) (PageList.locateIn_places hsome).2
    obtain ⟨pieces, hrun, hcuts⟩ := ih (h.drop piece) (by rw [List.length_drop, hlength])
    refine ⟨(physical, piece) :: pieces, ?_, ?_⟩
    · rw [translateFrom_step h0 hm (by simpa using hallowed) hsome, hrun]
      rfl
    · have hcut := hcuts.cons physical hpositive
      rwa [← hfirst, List.take_append_drop] at hcut

/-- As far as a mapping and a run reach, physical addresses go up with addresses. -/
theorem Ordered.physicalAt_add (ho : s.Ordered) (hm : s.mappingAt cursor = some m) {physical contiguous : Nat}
    (hl : m.pages.locate (cursor - m.address) = some (physical, contiguous)) {k : Nat} (hc : k < contiguous)
    (hk : cursor + k < m.limit) : s.physicalAt (cursor + k) = some (physical + k) := by
  obtain ⟨hle, -⟩ := Mapping.covers_iff.1 (covers_of_mappingAt hm)
  have hcovers : s.mappingAt (cursor + k) = some m :=
    ho.mappingAt_iff.2 ⟨mem_of_mappingAt hm, Mapping.covers_iff.2 (by omega)⟩
  have hlocate : m.pages.locate (cursor + k - m.address) = some (physical + k, contiguous - k) := by
    rw [Nat.sub_add_comm hle]
    exact PageList.locateIn_add hl hc
  rw [physicalAt, hcovers, Option.bind_eq_bind, Option.bind_some, hlocate]
  rfl

/-- What translates begins with a piece of the run that the first address lies in. -/
theorem translateFrom_cases {access : Access} {pieces : List (Nat × Nat)} (h : s.translateFrom access cursor length = .ok pieces) :
    length = 0 ∧ pieces = [] ∨ ∃ m physical contiguous piece rest, s.mappingAt cursor = some m ∧
      m.pages.locate (cursor - m.address) = some (physical, contiguous) ∧ piece = min (min contiguous (m.limit - cursor)) length ∧
      0 < piece ∧ s.translateFrom access (cursor + piece) (length - piece) = .ok rest ∧ pieces = (physical, piece) :: rest := by
  unfold translateFrom at h
  split at h
  · next h0 => exact .inl ⟨h0, (Except.ok.inj h).symm⟩
  · next h0 =>
    right
    split at h
    · cases h
    · next m hm =>
      split at h
      · cases h
      · split at h
        · cases h
        · next physical contiguous hl =>
          obtain ⟨-, hlt⟩ := Mapping.covers_iff.1 (covers_of_mappingAt hm)
          have hpositive : 0 < min (min contiguous (m.limit - cursor)) length := Nat.lt_min.2
            ⟨Nat.lt_min.2 ⟨PageList.locateIn_pos hl, by omega⟩, Nat.pos_of_ne_zero h0⟩
          dsimp only at h
          cases hrest : s.translateFrom access (cursor + min (min contiguous (m.limit - cursor)) length)
            (length - min (min contiguous (m.limit - cursor)) length) with
          | error e =>
            rw [hrest] at h
            cases h
          | ok rest =>
            rw [hrest] at h
            exact ⟨m, physical, contiguous, _, rest, hm, hl, rfl, hpositive, hrest, (Except.ok.inj h).symm⟩

/-- A range is translated to the physical addresses of its bytes. -/
theorem Ordered.translateFrom_places (ho : s.Ordered) {access : Access} {pieces : List (Nat × Nat)}
    (h : s.translateFrom access cursor length = .ok pieces) :
    ∃ places, Cuts pieces places ∧ (List.range' cursor length).map s.physicalAt = places.map some := by
  induction length using Nat.strongRecOn generalizing cursor pieces with
  | ind length ih =>
    rcases translateFrom_cases h with ⟨rfl, rfl⟩ | ⟨m, physical, contiguous, piece, rest, hm, hl, hpiece, hpositive, hrest, rfl⟩
    · exact ⟨[], .nil, rfl⟩
    · obtain ⟨places, hcuts, hplaces⟩ := ih (length - piece) (by omega) hrest
      have hfirst : (List.range' cursor piece).map s.physicalAt = (List.range' physical piece).map some := by
        rw [List.range'_eq_map_range, List.range'_eq_map_range, List.map_map, List.map_map]
        refine List.map_congr_left fun k hk => ?_
        have hk := List.mem_range.1 hk
        exact ho.physicalAt_add hm hl (by omega) (by omega)
      refine ⟨_, hcuts.cons physical hpositive, ?_⟩
      rw [List.map_append, ← hfirst, ← hplaces, ← List.map_append, List.range'_append_1, Nat.add_sub_cancel' (by omega)]

/-- A range that allows the access is translated to the places that it shows. -/
theorem Ordered.translate_ok (ho : s.Ordered) {access : Access} (h : s.Shows (·.permission.allows access = true) address places)
    (hword : address + places.length < wordLimit) :
    ∃ pieces, s.translate address places.length access = .ok pieces ∧ Cuts pieces places := by
  rw [translate, if_neg (Nat.not_le.2 hword)]
  exact ho.translateFrom_ok h

/-! ## Capturing -/

/-- Heap memory one mapping behind the other: what is captured from a range. -/
inductive Chain (s : AddressSpace) : Nat → Nat → List Nat → Prop
  | nil (cursor : Nat) : Chain s cursor 0 []
  | cons {cursor length : Nat} {m : Mapping} {rest : List Nat} (h0 : length ≠ 0) (hm : s.mappingAt cursor = some m)
      (hstate : m.state = .normal)
      (hrest : Chain s (cursor + min (m.limit - cursor) length) (length - min (m.limit - cursor) length) rest) :
      Chain s cursor length (slice m.pages.places (cursor - m.address) (min (m.limit - cursor) length) ++ rest)

/-- What is captured begins with a piece of the mapping of heap memory that the first address lies in. -/
theorem captureFrom_cases {found result : PageList × List AllocationId} (h : s.captureFrom cursor length found = .ok result) :
    length = 0 ∧ result = found ∨ length ≠ 0 ∧ ∃ m, s.mappingAt cursor = some m ∧ m.state = .normal ∧
      s.captureFrom (cursor + min (m.limit - cursor) length) (length - min (m.limit - cursor) length)
        (found.1.extendFrom m.pages (cursor - m.address) (min (m.limit - cursor) length), addNew found.2 m.backing) = .ok result := by
  unfold captureFrom at h
  split at h
  · next h0 => exact .inl ⟨h0, (Except.ok.inj h).symm⟩
  · next h0 =>
    split at h
    · cases h
    · next m hm =>
      split at h
      · cases h
      · next hstate => exact .inr ⟨h0, m, hm, Decidable.not_not.1 hstate, h⟩

/-- Capturing stops at an address that is not mapped. -/
theorem captureFrom_unmapped (h0 : length ≠ 0) (hm : s.mappingAt cursor = none) (found : PageList × List AllocationId) :
    s.captureFrom cursor length found = .error .invalidMemoryState := by
  unfold captureFrom
  rw [if_neg h0]
  split
  · rfl
  · next hsome => cases hm.symm.trans hsome

/-- Capturing stops at a mapping that is not heap memory. -/
theorem captureFrom_foreign (h0 : length ≠ 0) (hm : s.mappingAt cursor = some m) (hstate : m.state ≠ .normal)
    (found : PageList × List AllocationId) : s.captureFrom cursor length found = .error .invalidMemoryState := by
  unfold captureFrom
  rw [if_neg h0]
  split
  · rfl
  · next m' hm' =>
    obtain rfl := Option.some.inj (hm.symm.trans hm')
    exact if_pos hstate

/-- Capturing goes on behind a mapping of heap memory with what it found there. -/
theorem captureFrom_step (h0 : length ≠ 0) (hm : s.mappingAt cursor = some m) (hstate : m.state = .normal)
    (found : PageList × List AllocationId) : s.captureFrom cursor length found =
      s.captureFrom (cursor + min (m.limit - cursor) length) (length - min (m.limit - cursor) length)
        (found.1.extendFrom m.pages (cursor - m.address) (min (m.limit - cursor) length), addNew found.2 m.backing) := by
  conv_lhs => unfold captureFrom
  rw [if_neg h0]
  split
  · next hnone => cases hnone.symm.trans hm
  · next m' hm' =>
    obtain rfl := Option.some.inj (hm.symm.trans hm')
    exact if_neg (not_not_intro hstate)

/-- A piece of a mapping is not empty. -/
theorem piece_pos (h0 : length ≠ 0) (hm : s.mappingAt cursor = some m) : 0 < min (m.limit - cursor) length := by
  obtain ⟨-, hlt⟩ := Mapping.covers_iff.1 (covers_of_mappingAt hm)
  omega

/-- What is captured from an address on stands behind what was found, and is a chain of heap memory. -/
theorem captureFrom_chain (hp : s.Paged) {found result : PageList × List AllocationId} (hc : pageSize ∣ cursor)
    (hl : pageSize ∣ length) (h : s.captureFrom cursor length found = .ok result) :
    ∃ places, result.1.places = found.1.places ++ places ∧ s.Chain cursor length places := by
  induction length using Nat.strongRecOn generalizing cursor found with
  | ind length ih =>
    rcases captureFrom_cases h with ⟨rfl, rfl⟩ | ⟨h0, m, hm, hstate, hrest⟩
    · exact ⟨[], (List.append_nil _).symm, .nil cursor⟩
    · obtain ⟨haddress, hsize⟩ := hp m (mem_of_mappingAt hm)
      obtain ⟨hle, hlt⟩ := Mapping.covers_iff.1 (covers_of_mappingAt hm)
      have hpositive := piece_pos h0 hm
      have hlimit : m.limit = m.address + m.size := rfl
      have hpiece : pageSize ∣ min (m.limit - cursor) length := by
        rw [Nat.min_def]
        split
        · exact Nat.dvd_sub (Nat.dvd_add haddress (hsize ▸ m.pages.dvd_size)) hc
        · exact hl
      obtain ⟨places, hplaces, hchain⟩ := ih _ (by omega) (Nat.dvd_add hc hpiece) (Nat.dvd_sub hl hpiece) hrest
      refine ⟨_, ?_, hchain.cons h0 hm hstate⟩
      rw [hplaces, PageList.extendFrom_places (Nat.dvd_sub hc haddress) hpiece (by omega), List.append_assoc]

namespace Chain

/-- Each piece lies in the pages of its mapping. -/
theorem reaches (hp : s.Paged) (hm : s.mappingAt cursor = some m) (length : Nat) :
    cursor - m.address + min (m.limit - cursor) length ≤ m.pages.places.length := by
  obtain ⟨hle, hlt⟩ := Mapping.covers_iff.1 (covers_of_mappingAt hm)
  have hsize := (hp m (mem_of_mappingAt hm)).2
  have hlimit : m.limit = m.address + m.size := rfl
  rw [m.pages.length_places]
  omega

/-- A chain of heap memory has a place for each address. -/
theorem length_eq (hp : s.Paged) (h : s.Chain cursor length places) : places.length = length := by
  induction h with
  | nil => rfl
  | @cons cursor length m rest h0 hm hstate hrest ih =>
    rw [List.length_append, length_slice (reaches hp hm length), ih]
    exact Nat.add_sub_cancel' (Nat.min_le_right _ _)

/-- The range shows what is captured from it. -/
theorem shows (hp : s.Paged) (ho : s.Ordered) (h : s.Chain cursor length places) : s.Shows (·.state = .normal) cursor places := by
  induction h with
  | nil => exact fun _ _ hk => nomatch hk
  | @cons cursor length m rest h0 hm hstate hrest ih =>
    intro k place hk
    have hreaches := reaches hp hm length
    have hslice := length_slice hreaches
    by_cases hlt : k < min (m.limit - cursor) length
    · rw [List.getElem?_append_left (by omega), getElem?_slice _ _ hlt] at hk
      obtain ⟨hle, -⟩ := Mapping.covers_iff.1 (covers_of_mappingAt hm)
      refine ⟨m, ho.mappingAt_iff.2 ⟨mem_of_mappingAt hm, Mapping.covers_iff.2 (by omega)⟩, hstate, ?_⟩
      rw [← hk]
      congr 1
      omega
    · rw [List.getElem?_append_right (by omega), hslice] at hk
      have hnext := ih _ _ hk
      rwa [show cursor + min (m.limit - cursor) length + (k - min (m.limit - cursor) length) = cursor + k by omega] at hnext

/-- What is captured comes from mappings that end behind the start of the range. -/
theorem exists_of_mem (h : s.Chain cursor length places) {place : Nat} (hp : place ∈ places) :
    ∃ m ∈ s.mappings, m.state = .normal ∧ cursor < m.limit ∧ place ∈ m.pages.places := by
  induction h with
  | nil => cases hp
  | @cons cursor length m rest h0 hm hstate hrest ih =>
    rcases List.mem_append.1 hp with hp | hp
    · exact ⟨m, mem_of_mappingAt hm, hstate, (Mapping.covers_iff.1 (covers_of_mappingAt hm)).2, mem_of_mem_slice hp⟩
    · obtain ⟨m', hm', hstate', hlt, hplace⟩ := ih hp
      exact ⟨m', hm', hstate', Nat.lt_of_le_of_lt (Nat.le_add_right _ _) hlt, hplace⟩

/-- If no mapping of heap memory has a place twice and no two that end at different addresses have one in common, no place is
captured twice. -/
theorem nodup (h : s.Chain cursor length places) (hn : ∀ m ∈ s.mappings, m.state = .normal → m.pages.places.Nodup)
    (hd : ∀ m ∈ s.mappings, ∀ m' ∈ s.mappings, m.state = .normal → m'.state = .normal →
      ∀ place ∈ m.pages.places, place ∈ m'.pages.places → m.limit = m'.limit) : places.Nodup := by
  induction h with
  | nil => exact List.nodup_nil
  | @cons cursor length m rest h0 hm hstate hrest ih =>
    have hmem := mem_of_mappingAt hm
    have hfirst : (slice m.pages.places (cursor - m.address) (min (m.limit - cursor) length)).Nodup :=
      ((hn m hmem hstate).sublist (List.drop_sublist _ _)).sublist (List.take_sublist _ _)
    refine List.nodup_append.2 ⟨hfirst, ih, fun place hp other ho heq => ?_⟩
    subst heq
    obtain ⟨m', hm', hstate', hlt, hplace⟩ := hrest.exists_of_mem ho
    have hlimit := hd m hmem m' hm' hstate hstate' place (mem_of_mem_slice hp) hplace
    -- the rest is not empty, so the piece reaches to the end of the mapping
    have hmore : length - min (m.limit - cursor) length ≠ 0 := by
      intro hzero
      rw [hzero] at hrest
      cases hrest with
      | nil => cases ho
      | cons h0 => exact h0 rfl
    have := (Mapping.covers_iff.1 (covers_of_mappingAt hm)).2
    omega

end Chain

/-- What is captured from a range is a chain of heap memory, and the range ends within the word. -/
theorem capture_chain (hp : s.Paged) {result : PageList × List AllocationId} (h : s.capture address size = .ok result) :
    s.Chain address size result.1.places ∧ address + size < wordLimit := by
  unfold capture at h
  split at h
  · cases h
  · next haligned =>
    simp only [Bool.or_eq_true, Bool.not_eq_true', not_or, Bool.not_eq_false] at haligned
    split at h
    · cases h
    · next hword =>
      obtain ⟨places, hplaces, hchain⟩ := captureFrom_chain hp (Nat.dvd_of_mod_eq_zero (of_decide_eq_true haligned.1))
        (Nat.dvd_of_mod_eq_zero (of_decide_eq_true haligned.2)) h
      have hsame : result.1.places = places := hplaces
      exact ⟨hsame ▸ hchain, Nat.not_le.1 hword⟩

/-- Capturing from an address on finds the same as long as the mappings of heap memory stay. -/
theorem captureFrom_of_kept (ho' : s'.Ordered) (hk : ∀ m ∈ s.mappings, m.state = .normal → m ∈ s'.mappings)
    {found result : PageList × List AllocationId} (h : s.captureFrom cursor length found = .ok result) :
    s'.captureFrom cursor length found = .ok result := by
  induction length using Nat.strongRecOn generalizing cursor found with
  | ind length ih =>
    rcases captureFrom_cases h with ⟨rfl, rfl⟩ | ⟨h0, m, hm, hstate, hrest⟩
    · unfold captureFrom
      exact if_pos rfl
    · have hkept : s'.mappingAt cursor = some m :=
        ho'.mappingAt_iff.2 ⟨hk m (mem_of_mappingAt hm) hstate, covers_of_mappingAt hm⟩
      have hpositive := piece_pos h0 hm
      rw [captureFrom_step h0 hkept hstate]
      exact ih _ (by omega) hrest

/-- As long as the mappings of heap memory stay, the same is captured. -/
theorem capture_of_kept (ho' : s'.Ordered) (hk : ∀ m ∈ s.mappings, m.state = .normal → m ∈ s'.mappings)
    {result : PageList × List AllocationId} (h : s.capture address size = .ok result) : s'.capture address size = .ok result := by
  unfold capture at h ⊢
  split at h
  · cases h
  · next haligned =>
    rw [if_neg haligned]
    split at h
    · cases h
    · next hword =>
      rw [if_neg hword]
      exact captureFrom_of_kept ho' hk h

end AddressSpace

end Microkernel
