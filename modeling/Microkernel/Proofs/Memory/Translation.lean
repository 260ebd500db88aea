import Microkernel.Proofs.Memory.Mapped
import Microkernel.Proofs.Memory.Shown

/-!
# Translating byte by byte

A range is translated exactly if every byte of it may be accessed, and then to the places that the page lists of its mappings have for
its bytes; otherwise the first byte that may not be accessed decides the error (`AddressSpace.Translates`).
-/

namespace Microkernel

namespace AddressSpace

variable {s : AddressSpace} {m : Mapping} {access : Access} {address cursor length f : Nat}

/-- The byte at the address is in a mapping whose permission allows the access. -/
def Allows (s : AddressSpace) (access : Access) (address : Nat) : Prop :=
  ∃ m ∈ s.mappings, m.covers address = true ∧ m.permission.allows access = true

/-- A byte that may be accessed is mapped. -/
theorem Allows.mapped (h : s.Allows access address) : s.Mapped address := by
  obtain ⟨m, hm, hc, -⟩ := h
  exact ⟨m, hm, hc⟩

/-- The mapping that an address lies in decides whether it may be accessed. -/
theorem Ordered.allows_iff (h : s.Ordered) (hm : s.mappingAt address = some m) :
    s.Allows access address ↔ m.permission.allows access = true := by
  constructor
  · rintro ⟨other, hother, hc, hallows⟩
    obtain rfl := Option.some.inj (hm.symm.trans (h.mappingAt_iff.2 ⟨hother, hc⟩))
    exact hallows
  · exact fun hallows => ⟨m, mem_of_mappingAt hm, covers_of_mappingAt hm, hallows⟩

/-! ## Places -/

/-- Behind every address of a mapping is a place of its page list. -/
theorem Tidy.physicalAt_eq (h : s.Tidy) (hm : m ∈ s.mappings) (hc : m.covers address = true) :
    ∃ place, s.physicalAt address = some place ∧ m.pages.places[address - m.address]? = some place := by
  obtain ⟨hle, hlt⟩ := Mapping.covers_iff.1 hc
  have hsize := (h.paged m hm).2
  have hlimit : m.limit = m.address + m.size := rfl
  have hoffset : address - m.address < m.pages.places.length := by
    rw [m.pages.length_places]
    omega
  obtain ⟨place, contiguous, hlocate⟩ := PageList.exists_locateIn hoffset
  have hlocate : m.pages.locate (address - m.address) = some (place, contiguous) := hlocate
  refine ⟨place, ?_, PageList.getElem?_places hlocate⟩
  rw [physicalAt, h.ordered.mappingAt_iff.2 ⟨hm, hc⟩, Option.bind_eq_bind, Option.bind_some, hlocate]
  rfl

/-- A range all of whose bytes may be accessed shows as many places. -/
theorem Tidy.exists_shows (h : s.Tidy) (hallows : ∀ a, address ≤ a → a < address + length → s.Allows access a) :
    ∃ places, places.length = length ∧ s.Shows (·.permission.allows access = true) address places := by
  refine ⟨(List.range' address length).map fun a => (s.physicalAt a).getD 0, by rw [List.length_map, List.length_range'], ?_⟩
  intro k place hk
  obtain ⟨a, ha, rfl⟩ := Option.map_eq_some_iff.1 (List.getElem?_map ▸ hk)
  obtain ⟨hlt, hat⟩ := List.getElem?_eq_some_iff.1 ha
  rw [List.length_range'] at hlt
  rw [List.getElem_range', Nat.one_mul] at hat
  subst hat
  obtain ⟨m, hm, hc, hpermission⟩ := hallows (address + k) (Nat.le_add_right _ _) (Nat.add_lt_add_left hlt _)
  obtain ⟨place, hphysical, hplace⟩ := h.physicalAt_eq hm hc
  refine ⟨m, h.ordered.mappingAt_iff.2 ⟨hm, hc⟩, hpermission, ?_⟩
  rw [hphysical]
  exact hplace

/-! ## Faults -/

/-- Translating ends at the first byte that may not be accessed. -/
theorem Tidy.translateFrom_fault (h : s.Tidy) (hbefore : ∀ a, cursor ≤ a → a < f → s.Allows access a) (hf : ¬ s.Allows access f)
    (hle : cursor ≤ f) (hlt : f < cursor + length) :
    (¬ s.Mapped f → s.translateFrom access cursor length = .error (.invalidAddress f)) ∧
      (s.Mapped f → s.translateFrom access cursor length = .error .invalidPermission) := by
  have ho := h.ordered
  induction cursor, length using translateFrom.induct s access with
  | case1 cursor => exact absurd hlt (Nat.not_lt.2 hle)
  | case2 cursor length h0 hnone =>
    -- the first address is not mapped, so it is the one that fails
    have hunmapped : ¬ s.Mapped cursor := by
      rintro ⟨m, hm, hc⟩
      cases hnone.symm.trans (ho.mappingAt_iff.2 ⟨hm, hc⟩)
    obtain rfl : cursor = f := by
      refine Nat.le_antisymm hle (Nat.le_of_not_lt fun hlater => hunmapped ?_)
      exact (hbefore cursor (Nat.le_refl _) hlater).mapped
    exact ⟨fun _ => translateFrom_unmapped h0 hnone, fun hmapped => absurd hmapped hunmapped⟩
  | case3 cursor length h0 m hm hdenied =>
    have hfirst : ¬ s.Allows access cursor := by
      rw [ho.allows_iff hm]
      simpa using hdenied
    obtain rfl : cursor = f :=
      Nat.le_antisymm hle (Nat.le_of_not_lt fun hlater => hfirst (hbefore cursor (Nat.le_refl _) hlater))
    exact ⟨fun hunmapped => absurd ⟨m, mem_of_mappingAt hm, covers_of_mappingAt hm⟩ hunmapped,
      fun _ => translateFrom_denied h0 hm (by simpa using hdenied)⟩
  | case4 cursor length h0 m hm hallowed hnone =>
    obtain ⟨place, -, hplace⟩ := h.physicalAt_eq (mem_of_mappingAt hm) (covers_of_mappingAt hm)
    obtain ⟨physical, contiguous, hsome⟩ := PageList.exists_locateIn (List.getElem?_eq_some_iff.1 hplace).1
    cases hnone.symm.trans hsome
  | case5 cursor length h0 m hm hallowed physical contiguous hsome piece =>
    rename_i ih
    obtain ⟨hcursor, hlimit⟩ := Mapping.covers_iff.1 (covers_of_mappingAt hm)
    have hpiece : piece ≤ m.limit - cursor := Nat.le_trans (Nat.min_le_left _ _) (Nat.min_le_right _ _)
    -- the piece lies in a mapping that allows the access, so the byte that fails lies behind it
    have hbehind : cursor + piece ≤ f := by
      refine Nat.le_of_not_lt fun hinside => hf ⟨m, mem_of_mappingAt hm, Mapping.covers_iff.2 (by omega), ?_⟩
      simpa using hallowed
    have hsmall : piece ≤ length := Nat.min_le_right _ _
    obtain ⟨hunmapped, hmapped⟩ := ih (fun a ha => hbefore a (by omega)) hbehind (by omega)
    have hstep (e : KernelError) (hrest : s.translateFrom access (cursor + piece) (length - piece) = .error e) :
        s.translateFrom access cursor length = .error e := by
      rw [translateFrom_step h0 hm (by simpa using hallowed) hsome, hrest]
      rfl
    exact ⟨fun hf => hstep _ (hunmapped hf), fun hf => hstep _ (hmapped hf)⟩

/-- If not every byte of a range may be accessed, one is the first that may not. -/
theorem exists_first_fault (h : ¬ ∀ a, address ≤ a → a < address + length → s.Allows access a) :
    ∃ f, address ≤ f ∧ f < address + length ∧ (∀ a, address ≤ a → a < f → s.Allows access a) ∧ ¬ s.Allows access f := by
  classical
  simp only [not_forall] at h
  have hex : ∃ k, k < length ∧ ¬ s.Allows access (address + k) := by
    obtain ⟨a, hle, hlt, ha⟩ := h
    exact ⟨a - address, by omega, by rwa [Nat.add_sub_cancel' hle]⟩
  obtain ⟨hlt, hfault⟩ := Nat.find_spec hex
  refine ⟨address + Nat.find hex, Nat.le_add_right _ _, Nat.add_lt_add_left hlt _, fun a hle ha => ?_, hfault⟩
  have hearlier := Nat.find_min hex (m := a - address) (by omega)
  rw [Nat.add_sub_cancel' hle] at hearlier
  exact Classical.not_not.1 fun hno => hearlier ⟨by omega, hno⟩

/-! ## Translation -/

/-- The physical addresses of the bytes of pieces, one after the other. -/
def placesOf (pieces : List (Nat × Nat)) : List Nat := pieces.flatMap fun piece => List.range' piece.1 piece.2

/-- Pieces have as many places as they are long together. -/
theorem length_placesOf (pieces : List (Nat × Nat)) : (placesOf pieces).length = total Prod.snd pieces :=
  length_flatMap_eq_total (fun _ => List.length_range') pieces

/-- Translating a range works byte by byte. -/
structure Translates (s : AddressSpace) (address length : Nat) (access : Access) : Prop where
  ok_iff : (∃ pieces, s.translate address length access = .ok pieces) ↔
    ∀ a, address ≤ a → a < address + length → s.Allows access a
  positive : ∀ pieces, s.translate address length access = .ok pieces → ∀ piece ∈ pieces, 0 < piece.2
  sizes : ∀ pieces, s.translate address length access = .ok pieces → total Prod.snd pieces = length
  /-- The bytes of the pieces are those that the page list of the mapping has for each address. -/
  places : ∀ pieces, s.translate address length access = .ok pieces → ∀ k < length, ∃ m ∈ s.mappings,
    m.covers (address + k) = true ∧ ∃ place, m.pages.places[address + k - m.address]? = some place ∧
      (placesOf pieces)[k]? = some place
  wraps : wordLimit - 1 < address + length → s.translate address length access = .error (.invalidAddress address)
  /-- Otherwise the first byte that may not be accessed decides. -/
  fault : address + length ≤ wordLimit - 1 → ∀ f, address ≤ f → f < address + length →
    (∀ a, address ≤ a → a < f → s.Allows access a) → ¬ s.Allows access f →
    (¬ s.Mapped f → s.translate address length access = .error (.invalidAddress f)) ∧
      (s.Mapped f → s.translate address length access = .error .invalidPermission)

/-- In a tidy space translating a range works byte by byte. -/
theorem Tidy.translates (h : s.Tidy) (haddress : address < wordLimit) (length : Nat) (access : Access) :
    s.Translates address length access := by
  have hword : 0 < wordLimit := by decide
  -- a range that leaves the word has a byte at its last address, which is never mapped
  have hfits (hall : ∀ a, address ≤ a → a < address + length → s.Allows access a) : address + length < wordLimit := by
    refine Nat.lt_of_not_le fun hwraps => ?_
    have := h.ordered.lt_of_mapped (hall (wordLimit - 1) (by omega) (by omega)).mapped
    omega
  have hall (hall : ∀ a, address ≤ a → a < address + length → s.Allows access a) :
      ∃ pieces places, s.translate address length access = .ok pieces ∧ Cuts pieces places ∧ places.length = length ∧
        s.Shows (·.permission.allows access = true) address places := by
    obtain ⟨places, rfl, hshows⟩ := h.exists_shows hall
    obtain ⟨pieces, hok, hcuts⟩ := h.ordered.translate_ok hshows (hfits hall)
    exact ⟨pieces, places, hok, hcuts, rfl, hshows⟩
  have hfault (hfits : address + length ≤ wordLimit - 1) (f : Nat) (hle : address ≤ f) (hlt : f < address + length)
      (hbefore : ∀ a, address ≤ a → a < f → s.Allows access a) (hf : ¬ s.Allows access f) :
      (¬ s.Mapped f → s.translate address length access = .error (.invalidAddress f)) ∧
        (s.Mapped f → s.translate address length access = .error .invalidPermission) := by
    rw [translate, if_neg (by omega)]
    exact h.translateFrom_fault hbefore hf hle hlt
  have hwraps (hlarge : wordLimit - 1 < address + length) :
      s.translate address length access = .error (.invalidAddress address) := by
    rw [translate, if_pos (by omega)]
  have hallows {pieces : List (Nat × Nat)} (hok : s.translate address length access = .ok pieces) :
      ∀ a, address ≤ a → a < address + length → s.Allows access a := by
    refine Classical.byContradiction fun hnot => ?_
    by_cases hlarge : wordLimit - 1 < address + length
    · cases hok.symm.trans (hwraps hlarge)
    · obtain ⟨f, hle, hlt, hbefore, hf⟩ := exists_first_fault hnot
      obtain ⟨hunmapped, hmapped⟩ := hfault (by omega) f hle hlt hbefore hf
      by_cases hm : s.Mapped f
      · cases hok.symm.trans (hmapped hm)
      · cases hok.symm.trans (hunmapped hm)
  have hpieces {pieces : List (Nat × Nat)} (hok : s.translate address length access = .ok pieces) :
      ∃ places, Cuts pieces places ∧ places.length = length ∧ s.Shows (·.permission.allows access = true) address places := by
    obtain ⟨pieces', places, hok', hcuts, hrest⟩ := hall (hallows hok)
    obtain rfl := Except.ok.inj (hok.symm.trans hok')
    exact ⟨places, hcuts, hrest⟩
  constructor
  case ok_iff =>
    constructor
    · rintro ⟨_, hok⟩
      exact hallows hok
    · intro hevery
      obtain ⟨pieces, -, hok, -⟩ := hall hevery
      exact ⟨pieces, hok⟩
  case positive =>
    intro pieces hok
    obtain ⟨_, hcuts, -⟩ := hpieces hok
    exact hcuts.positive
  case sizes =>
    intro pieces hok
    obtain ⟨places, hcuts, hlength, -⟩ := hpieces hok
    rw [← length_placesOf, placesOf, hcuts.places, hlength]
  case places =>
    intro pieces hok k hk
    obtain ⟨places, hcuts, hlength, hshows⟩ := hpieces hok
    have hat : places[k]? = some places[k] := List.getElem?_eq_getElem (hlength.symm ▸ hk)
    obtain ⟨m, hm, -, hplace⟩ := hshows k _ hat
    refine ⟨m, mem_of_mappingAt hm, covers_of_mappingAt hm, _, hplace, ?_⟩
    rw [placesOf, hcuts.places, hat]
  case wraps => exact hwraps
  case fault => exact hfault

end AddressSpace

end Microkernel
