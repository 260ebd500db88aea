import Microkernel.Proofs.Machine.Writing
import Microkernel.Proofs.Memory.Translation

/-!
# Capturing heap memory

A page-aligned range is captured exactly if each of its pages is mapped as heap memory. What is captured is as long as the range, has
the places that reading the range comes to, and names the allocations behind the mappings that the range touches, each once
(`AddressSpace.Captured`). That holds of every address space that mappings lead to, and so of every process (`Machine.captures_exact`).
-/

namespace Microkernel

namespace AddressSpace

variable {s : AddressSpace} {m m' : Mapping} {address size cursor length : Nat} {found result : PageList × List AllocationId}

/-! ## Ranges of heap memory -/

/-- The page is mapped as heap memory, all of it. -/
def HeapPage (s : AddressSpace) (page : Nat) : Prop :=
  ∃ m ∈ s.mappings, m.state = .normal ∧ m.address ≤ page ∧ page + pageSize ≤ m.limit

/-- Every page of the range is mapped as heap memory. -/
def HeapRange (s : AddressSpace) (address size : Nat) : Prop :=
  ∀ page, pageSize ∣ page → address ≤ page → page < address + size → s.HeapPage page

/-- A mapping and a range have an address in common. -/
def Touches (m : Mapping) (address size : Nat) : Prop := ∃ a, address ≤ a ∧ a < address + size ∧ m.covers a = true

/-- A page of heap memory lies in a mapping of heap memory. -/
theorem HeapPage.mappingAt (h : s.HeapPage address) (ho : s.Ordered) : ∃ m, s.mappingAt address = some m ∧ m.state = .normal := by
  obtain ⟨m, hm, hstate, hle, hlimit⟩ := h
  have hpage : 0 < pageSize := by decide
  exact ⟨m, ho.mappingAt_iff.2 ⟨hm, Mapping.covers_iff.2 ⟨hle, by omega⟩⟩, hstate⟩

/-- The pages of a range are those of the mapping that it begins in, and the ones behind it. -/
theorem Tidy.heapRange_step (h : s.Tidy) (hm : s.mappingAt cursor = some m) (hstate : m.state = .normal) :
    s.HeapRange cursor length ↔
      s.HeapRange (cursor + min (m.limit - cursor) length) (length - min (m.limit - cursor) length) := by
  have hpiece : min (m.limit - cursor) length ≤ length := Nat.min_le_right _ _
  obtain ⟨hle, -⟩ := Mapping.covers_iff.1 (covers_of_mappingAt hm)
  constructor
  · exact fun hrange page hdvd hfirst hlast => hrange page hdvd (by omega) (by omega)
  · intro hrest page hdvd hfirst hlast
    by_cases hbehind : cursor + min (m.limit - cursor) length ≤ page
    · exact hrest page hdvd hbehind (by omega)
    · refine ⟨m, mem_of_mappingAt hm, hstate, Nat.le_trans hle hfirst, ?_⟩
      -- the mapping ends at a page border behind the start of the page
      obtain ⟨haddress, hsize⟩ := h.paged m (mem_of_mappingAt hm)
      obtain ⟨i, hi⟩ : pageSize ∣ m.limit := Nat.dvd_add haddress (hsize ▸ m.pages.dvd_size)
      obtain ⟨j, rfl⟩ := hdvd
      simp only [pageSize] at hi hbehind hfirst ⊢
      omega

/-- A range touches the mapping that it begins in, and the mappings that the rest of it touches. -/
theorem Ordered.touches_step (h : s.Ordered) (h0 : length ≠ 0) (hm : s.mappingAt cursor = some m) (hm' : m' ∈ s.mappings) :
    Touches m' cursor length ↔
      m' = m ∨ Touches m' (cursor + min (m.limit - cursor) length) (length - min (m.limit - cursor) length) := by
  have hpiece : min (m.limit - cursor) length ≤ length := Nat.min_le_right _ _
  obtain ⟨hle, hlt⟩ := Mapping.covers_iff.1 (covers_of_mappingAt hm)
  constructor
  · rintro ⟨a, hfirst, hlast, hc⟩
    by_cases hbehind : cursor + min (m.limit - cursor) length ≤ a
    · exact .inr ⟨a, hbehind, by omega, hc⟩
    · have hcovers : m.covers a = true := Mapping.covers_iff.2 (by omega)
      exact .inl (h.eq_of_covers hm' (mem_of_mappingAt hm) hc hcovers)
  · rintro (rfl | ⟨a, hfirst, hlast, hc⟩)
    · exact ⟨cursor, Nat.le_refl _, by omega, covers_of_mappingAt hm⟩
    · exact ⟨a, by omega, by omega, hc⟩

/-! ## Walking over the range -/

/-- Heap memory is captured, and nothing else. -/
theorem Tidy.captureFrom_cases (h : s.Tidy) (hc : pageSize ∣ cursor) (hl : pageSize ∣ length)
    (found : PageList × List AllocationId) :
    (s.HeapRange cursor length ∧ ∃ result, s.captureFrom cursor length found = .ok result) ∨
    (¬ s.HeapRange cursor length ∧ s.captureFrom cursor length found = .error .invalidMemoryState) := by
  induction length using Nat.strongRecOn generalizing cursor found with
  | ind length ih =>
    by_cases h0 : length = 0
    · subst h0
      unfold captureFrom
      rw [if_pos rfl]
      exact .inl ⟨fun page _ hfirst hlast => absurd hlast (Nat.not_lt.2 hfirst), found, rfl⟩
    · have first (hrange : s.HeapRange cursor length) : s.HeapPage cursor := hrange cursor hc (Nat.le_refl _) (by omega)
      cases hm : s.mappingAt cursor with
      | none =>
        refine .inr ⟨fun hrange => ?_, captureFrom_unmapped h0 hm found⟩
        obtain ⟨m, hsome, -⟩ := (first hrange).mappingAt h.ordered
        cases hm.symm.trans hsome
      | some m =>
        by_cases hstate : m.state = .normal
        · have hpositive := piece_pos h0 hm
          have hpiece := h.paged.dvd_piece hm hc hl
          rw [captureFrom_step h0 hm hstate, h.heapRange_step hm hstate]
          exact ih _ (by omega) (Nat.dvd_add hc hpiece) (Nat.dvd_sub hl hpiece) _
        · refine .inr ⟨fun hrange => ?_, captureFrom_foreign h0 hm hstate found⟩
          obtain ⟨m', hsome, hnormal⟩ := (first hrange).mappingAt h.ordered
          obtain rfl := Option.some.inj (hm.symm.trans hsome)
          exact hstate hnormal

/-- Adding what is new names nobody twice. -/
theorem nodup_addNew {known : List AllocationId} (h : known.Nodup) (new : List AllocationId) : (addNew known new).Nodup := by
  unfold addNew
  induction new generalizing known with
  | nil => exact h
  | cons id rest ih =>
    rw [List.foldl_cons]
    refine ih ?_
    split
    · exact h
    · next hnew =>
      rw [List.contains_iff_mem] at hnew
      refine List.nodup_append.2 ⟨h, List.nodup_singleton id, fun old ho other hother heq => hnew ?_⟩
      exact List.mem_singleton.1 hother ▸ heq ▸ ho

/-- What is captured belongs to the allocations of the mappings that the range touches. -/
theorem Ordered.captureFrom_owners (h : s.Ordered) (hrun : s.captureFrom cursor length found = .ok result)
    (hn : found.2.Nodup) :
    result.2.Nodup ∧ ∀ id, id ∈ result.2 ↔
      id ∈ found.2 ∨ ∃ m ∈ s.mappings, Touches m cursor length ∧ id ∈ m.backing := by
  induction length using Nat.strongRecOn generalizing cursor found with
  | ind length ih =>
    rcases AddressSpace.captureFrom_cases hrun with ⟨rfl, rfl⟩ | ⟨h0, m, hm, hstate, hrest⟩
    · refine ⟨hn, fun id => ⟨.inl, ?_⟩⟩
      rintro (hid | ⟨m, -, ⟨a, hfirst, hlast, -⟩, -⟩)
      · exact hid
      · exact absurd hlast (Nat.not_lt.2 hfirst)
    · have hpositive := piece_pos h0 hm
      obtain ⟨hnodup, howners⟩ := ih _ (by omega) hrest (nodup_addNew hn m.backing)
      refine ⟨hnodup, fun id => ?_⟩
      rw [howners id, mem_addNew, or_assoc]
      refine or_congr_right ⟨?_, ?_⟩
      · rintro (hid | ⟨m', hm', htouches, hid⟩)
        · exact ⟨m, mem_of_mappingAt hm, (h.touches_step h0 hm (mem_of_mappingAt hm)).2 (.inl rfl), hid⟩
        · exact ⟨m', hm', (h.touches_step h0 hm hm').2 (.inr htouches), hid⟩
      · rintro ⟨m', hm', htouches, hid⟩
        rcases (h.touches_step h0 hm hm').1 htouches with rfl | htouches
        · exact .inl hid
        · exact .inr ⟨m', hm', htouches, hid⟩

/-! ## The range as a whole -/

/-- Capturing a range works page by page, and comes to the bytes that translating it comes to. -/
structure Captured (s : AddressSpace) (address size : Nat) : Prop where
  ok_iff : (∃ pages owners, s.capture address size = .ok (pages, owners)) ↔ s.HeapRange address size
  otherwise : ¬ s.HeapRange address size → s.capture address size = .error .invalidMemoryState
  size_eq : ∀ pages owners, s.capture address size = .ok (pages, owners) → pages.size = size
  /-- Each byte of the list is the physical byte behind its address, and the one that a read of it goes to. -/
  bytes : ∀ pages owners, s.capture address size = .ok (pages, owners) → ∀ k < size, ∃ place contiguous,
    pages.locate k = some (place, contiguous) ∧ s.physicalAt (address + k) = some place ∧
      (s.Allows .read (address + k) → s.translate (address + k) 1 .read = .ok [(place, 1)])
  /-- If the whole range may be read, the list is what it is translated to. -/
  pieces : ∀ pages owners, s.capture address size = .ok (pages, owners) →
    ∀ pieces, s.translate address size .read = .ok pieces → placesOf pieces = pages.places
  owners : ∀ pages owners, s.capture address size = .ok (pages, owners) →
    owners.Nodup ∧ ∀ id, id ∈ owners ↔ ∃ m ∈ s.mappings, Touches m address size ∧ id ∈ m.backing

/-- A byte that may be accessed is translated to the place behind it. -/
theorem Ordered.translate_one (h : s.Ordered) {access : Access} {place : Nat} (hallows : s.Allows access address)
    (hplace : s.physicalAt address = some place) : s.translate address 1 access = .ok [(place, 1)] := by
  have hbelow := h.lt_of_mapped hallows.mapped
  obtain ⟨m, hm, hplace⟩ := Option.bind_eq_some_iff.1 hplace
  obtain ⟨⟨physical, contiguous⟩, hlocate, hplace⟩ := Option.bind_eq_some_iff.1 hplace
  obtain rfl : physical = place := Option.some.inj hplace
  have hcontiguous := PageList.locateIn_pos hlocate
  have hpiece : min (min contiguous (m.limit - address)) 1 = 1 := by
    obtain ⟨-, hlt⟩ := Mapping.covers_iff.1 (covers_of_mappingAt hm)
    omega
  have hrest : s.translateFrom access (address + 1) (1 - 1) = .ok [] := by
    unfold translateFrom
    exact if_pos rfl
  rw [translate, if_neg (by omega), translateFrom_step Nat.one_ne_zero hm ((h.allows_iff hm).1 hallows) hlocate, hpiece, hrest]
  rfl

/-- What a range shows is what it is translated to. -/
theorem Tidy.placesOf_eq (h : s.Tidy) {kind : Mapping → Prop} {places : List Nat} {access : Access} {pieces : List (Nat × Nat)}
    (hshows : s.Shows kind address places) (haddress : address < wordLimit)
    (hok : s.translate address places.length access = .ok pieces) : placesOf pieces = places := by
  have htranslates := h.translates haddress places.length access
  have hlength : (placesOf pieces).length = places.length := (length_placesOf pieces).trans (htranslates.sizes pieces hok)
  refine List.ext_getElem hlength fun k hk hk' => ?_
  obtain ⟨m, hm, hc, place, hplace, hpiece⟩ := htranslates.places pieces hok k hk'
  obtain ⟨m', hm', -, hshown⟩ := hshows k _ (List.getElem?_eq_getElem hk')
  obtain rfl := h.ordered.eq_of_covers hm (mem_of_mappingAt hm') hc (covers_of_mappingAt hm')
  rw [List.getElem?_eq_getElem hk] at hpiece
  exact Option.some.inj (hpiece.trans (hplace.symm.trans hshown))

/-- What mappings lead to can be captured. -/
theorem Tidy.captured (h : s.Tidy) (haddress : pageSize ∣ address) (hsize : pageSize ∣ size) (hword : address + size < wordLimit) :
    s.Captured address size := by
  have haligned {n : Nat} (hn : pageSize ∣ n) : isPageAligned n = true := decide_eq_true (Nat.mod_eq_zero_of_dvd hn)
  have hcapture : s.capture address size = s.captureFrom address size ({}, []) := by
    unfold capture
    rw [haligned haddress, haligned hsize, if_neg (by decide), if_neg (Nat.not_le.2 hword)]
  have hcases := h.captureFrom_cases haddress hsize ({}, [])
  have hlist {pages : PageList} {owners : List AllocationId} (hok : s.capture address size = .ok (pages, owners)) :
      pages.places.length = size ∧ s.Shows (·.state = .normal) address pages.places := by
    obtain ⟨hchain, -⟩ := capture_chain h.paged hok
    exact ⟨hchain.length_eq h.paged, hchain.shows h.paged h.ordered⟩
  constructor
  case ok_iff =>
    rw [hcapture]
    rcases hcases with ⟨hrange, ⟨pages, owners⟩, hok⟩ | ⟨hrange, herror⟩
    · exact ⟨fun _ => hrange, fun _ => ⟨pages, owners, hok⟩⟩
    · refine ⟨?_, fun hheap => absurd hheap hrange⟩
      rintro ⟨pages, owners, hok⟩
      cases hok.symm.trans herror
  case otherwise =>
    intro hrange
    rcases hcases with ⟨hheap, -⟩ | ⟨-, herror⟩
    · exact absurd hheap hrange
    · exact hcapture.trans herror
  case size_eq =>
    intro pages owners hok
    rw [← pages.length_places]
    exact (hlist hok).1
  case bytes =>
    intro pages owners hok k hk
    obtain ⟨hlength, hshows⟩ := hlist hok
    obtain ⟨place, contiguous, hlocate⟩ := PageList.exists_locateIn (hlength.symm ▸ hk : k < pages.places.length)
    have hlocate : pages.locate k = some (place, contiguous) := hlocate
    obtain ⟨m, hm, -, hshown⟩ := hshows k place (PageList.getElem?_places hlocate)
    obtain ⟨place', hphysical, hat⟩ := h.physicalAt_eq (mem_of_mappingAt hm) (covers_of_mappingAt hm)
    obtain rfl : place = place' := Option.some.inj (hshown.symm.trans hat)
    exact ⟨place, contiguous, hlocate, hphysical, fun hallows => h.ordered.translate_one hallows hphysical⟩
  case pieces =>
    intro pages owners hok pieces htranslate
    obtain ⟨hlength, hshows⟩ := hlist hok
    exact h.placesOf_eq hshows (Nat.lt_of_le_of_lt (Nat.le_add_right _ _) hword) (hlength.symm ▸ htranslate)
  case owners =>
    intro pages owners hok
    obtain ⟨hnodup, howners⟩ := h.ordered.captureFrom_owners (hcapture.symm.trans hok) List.nodup_nil
    refine ⟨hnodup, fun id => (howners id).trans ?_⟩
    exact or_iff_right List.not_mem_nil

end AddressSpace

namespace Machine

/-- However mappings are made, removed and changed, and whatever processes do, a page-aligned range of the address space is captured
exactly if it is heap memory. -/
theorem captures_exact {address size : Nat} (haddress : pageSize ∣ address) (hsize : pageSize ∣ size)
    (hword : address + size < wordLimit) :
    (∀ requests, (AddressSpace.after requests).Captured address size) ∧
    ∀ (x : Setup) (deeds : List Deed) (id : RecordId), ((afterDeeds x deeds).process id).space.Captured address size := by
  refine ⟨fun requests => (AddressSpace.after_tidy requests).captured haddress hsize hword, fun x deeds id => ?_⟩
  have hsound := afterDeeds_sound x deeds
  have htidy : ((afterDeeds x deeds).process id).space.Tidy := ⟨hsound.granted.ordered id, hsound.orderly.backed.paged id⟩
  exact htidy.captured haddress hsize hword

/-- Heap memory in two mappings one behind the other: the first one has its pages apart from each other and keeps two allocations, one
of which the second one keeps too. -/
def heaped : List AddressSpace.Request := [
  .map { Mapping.ofPages 0x1000 ⟨[⟨0x8000, 1⟩, ⟨0x4000, 1⟩]⟩ .readWrite .normal with backing := [3, 5] } rfl,
  .map { Mapping.ofPages 0x3000 ⟨[⟨0x5000, 1⟩]⟩ .read .normal with backing := [5] } rfl]

/-- The last page of the first mapping and the page of the second are captured, with both allocations; with one page more nothing
is. -/
theorem captures_exact_heaped : (∃ pages owners, (AddressSpace.after heaped).capture 0x2000 0x2000 = .ok (pages, owners) ∧
      pages.size = 0x2000 ∧ owners.Nodup ∧ ∀ id, id ∈ owners ↔ id = 3 ∨ id = 5) ∧
    (AddressSpace.after heaped).capture 0x2000 0x3000 = .error .invalidMemoryState := by
  have hmappings : (AddressSpace.after heaped).mappings = [
    { Mapping.ofPages 0x1000 ⟨[⟨0x8000, 1⟩, ⟨0x4000, 1⟩]⟩ .readWrite .normal with backing := [3, 5] },
    { Mapping.ofPages 0x3000 ⟨[⟨0x5000, 1⟩]⟩ .read .normal with backing := [5] }] := rfl
  have hcaptured := (captures_exact (by decide : pageSize ∣ 0x2000) (by decide : pageSize ∣ 0x2000) (by decide)).1 heaped
  have hlarger := (captures_exact (by decide : pageSize ∣ 0x2000) (by decide : pageSize ∣ 0x3000) (by decide)).1 heaped
  have hrange : (AddressSpace.after heaped).HeapRange 0x2000 0x2000 := by
    intro page hdvd hfirst hlast
    rw [AddressSpace.HeapPage, hmappings]
    have heither : page = 0x2000 ∨ page = 0x3000 := by
      simp only [pageSize] at hdvd
      omega
    rcases heither with rfl | rfl
    · exact ⟨_, List.mem_cons_self, rfl, by decide, by decide⟩
    · exact ⟨_, List.mem_cons_of_mem _ List.mem_cons_self, rfl, by decide, by decide⟩
  constructor
  · obtain ⟨pages, owners, hok⟩ := hcaptured.ok_iff.2 hrange
    obtain ⟨hnodup, howners⟩ := hcaptured.owners pages owners hok
    refine ⟨pages, owners, hok, hcaptured.size_eq pages owners hok, hnodup, fun id => (howners id).trans ?_⟩
    rw [hmappings]
    constructor
    · rintro ⟨m, hm, -, hid⟩
      rcases List.mem_pair.1 hm with rfl | rfl
      · exact List.mem_pair.1 hid
      · exact .inr (List.mem_singleton.1 hid)
    · exact fun hid => ⟨_, List.mem_cons_self, ⟨0x2000, by decide, by decide, by decide⟩, List.mem_pair.2 hid⟩
  · refine hlarger.otherwise fun hall => ?_
    obtain ⟨m, hm, -, -, hlimit⟩ := hall 0x4000 (by decide) (by decide) (by decide)
    rw [hmappings] at hm
    rcases List.mem_pair.1 hm with rfl | rfl
    · exact absurd hlimit (by decide)
    · exact absurd hlimit (by decide)

end Machine

end Microkernel
