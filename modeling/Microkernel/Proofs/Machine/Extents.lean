import Microkernel.Proofs.Machine.Accesses
import Microkernel.Proofs.Machine.Placing
import Microkernel.Proofs.Machine.Writing

/-!
# Extents of memory operations

In a sound machine pages come from at most eight gibibytes, so that address spaces are worded (`Sound.worded`) and every gap is looked
for far below the end of the word. Each memory operation stops for a sum that leaves the word under one condition on its arguments, or
never, and what succeeds has exactly the range that was asked for (`Ends`).
-/

namespace Microkernel

/-- No arrangement has more than eight gibibytes. -/
theorem MemoryArrange.totalSize_le (a : MemoryArrange) : a.totalSize ≤ 0x200000000 := by
  cases a <;> decide

namespace AddressSpace

variable {s s' : AddressSpace} {m : Mapping} {base regionSize address size length a : Nat} {e : KernelError}

/-! ## Refusals -/

/-- Mapping takes sums of words that were found to fit. -/
theorem map_ne_overflow (s : AddressSpace) (m : Mapping) : s.map m ≠ .error .overflow := by
  unfold AddressSpace.map
  repeat' split
  all_goals simp

/-- Unmapping looks for exactly its range, and takes no sum. -/
theorem unmap_ne_overflow (s : AddressSpace) (address size : Nat) (object : Option Nat) :
    s.unmap address size object ≠ .error .overflow := by
  unfold AddressSpace.unmap
  repeat' split
  all_goals simp

/-- Placing a mapping overflows only while a gap is looked for. -/
theorem place_ne_overflow (hfind : address = 0 → s.findFree base regionSize size ≠ .error .overflow) :
    s.place base regionSize address size m ≠ .error .overflow := by
  unfold place
  have hfirst : (if address = 0 then s.findFree base regionSize size else .ok address) ≠ .error .overflow := by
    split
    · next h0 => exact hfind h0
    · simp
  cases h : if address = 0 then s.findFree base regionSize size else .ok address with
  | error e => exact fun he => hfirst (h.trans (Except.error.inj he ▸ rfl))
  | ok a =>
    dsimp only
    cases hmap : s.map { m with address := a } with
    | error e => exact fun he => map_ne_overflow s _ (hmap.trans (Except.error.inj he ▸ rfl))
    | ok s' => simp

/-- Where no mapping wraps, translating a range never overflows: it ends at the first byte that is not mapped. -/
theorem Tidy.translate_ne_overflow (h : s.Tidy) (address length : Nat) (access : Access) :
    s.translate address length access ≠ .error .overflow := by
  by_cases hword : wordLimit ≤ address + length
  · rw [translate, if_pos hword]
    simp
  · have htranslates := h.translates (by omega : address < wordLimit) length access
    by_cases hall : ∀ a, address ≤ a → a < address + length → s.Allows access a
    · obtain ⟨pieces, hok⟩ := htranslates.ok_iff.2 hall
      rw [hok]
      simp
    · obtain ⟨f, hle, hlt, hbefore, hf⟩ := exists_first_fault hall
      obtain ⟨hunmapped, hmapped⟩ := htranslates.fault (by omega) f hle hlt hbefore hf
      by_cases hm : s.Mapped f
      · rw [hmapped hm]
        simp
      · rw [hunmapped hm]
        simp

/-- Capturing page by page never overflows. -/
theorem captureFrom_ne_overflow (s : AddressSpace) (cursor length : Nat) (found : PageList × List AllocationId) :
    s.captureFrom cursor length found ≠ .error .overflow := by
  induction length using Nat.strongRecOn generalizing cursor found with
  | ind length ih =>
    by_cases h0 : length = 0
    · unfold captureFrom
      rw [if_pos h0]
      simp
    · cases hm : s.mappingAt cursor with
      | none =>
        rw [captureFrom_unmapped h0 hm]
        simp
      | some m =>
        by_cases hstate : m.state = .normal
        · have hpositive := piece_pos h0 hm
          rw [captureFrom_step h0 hm hstate]
          exact ih _ (by omega) _ _
        · rw [captureFrom_foreign h0 hm hstate]
          simp

/-- Capturing a range from one page border to another is not checked for the end of the word. -/
theorem capture_overflow_iff : s.capture address size = .error .overflow ↔
    pageSize ∣ address ∧ pageSize ∣ size ∧ wordLimit ≤ address + size := by
  have haligned (n : Nat) : isPageAligned n = true ↔ pageSize ∣ n :=
    ⟨fun h => Nat.dvd_of_mod_eq_zero (of_decide_eq_true h), fun h => decide_eq_true (Nat.mod_eq_zero_of_dvd h)⟩
  unfold capture
  by_cases hdvd : isPageAligned address = true ∧ isPageAligned size = true
  · rw [hdvd.1, hdvd.2, if_neg (by decide)]
    rw [haligned, haligned] at hdvd
    by_cases hword : wordLimit ≤ address + size
    · rw [if_pos hword]
      exact ⟨fun _ => ⟨hdvd.1, hdvd.2, hword⟩, fun _ => rfl⟩
    · rw [if_neg hword]
      exact ⟨fun he => absurd he (captureFrom_ne_overflow s _ _ _), fun h => absurd h.2.2 hword⟩
  · rw [if_pos (by simpa [Bool.or_eq_true, imp_iff_not_or] using hdvd)]
    rw [haligned, haligned] at hdvd
    exact ⟨by simp, fun h => absurd ⟨h.1, h.2.1⟩ hdvd⟩

end AddressSpace

namespace Machine

variable {x : Setup} {s t : Machine} {id : RecordId} {address size : Nat}

/-! ## Bounds -/

section

variable {pages : PageList} {backing : List AllocationId}

/-- Every place of pages that are kept lies in the memory of the arrangement. -/
theorem Orderly.place_lt (h : Orderly x s) (hc : s.Covered pages backing) {place : Nat} (hp : place ∈ pages.places) :
    place < x.config.memoryArrange.totalSize := by
  obtain ⟨i, -, a, ha, hin⟩ := hc.exists_of_place hp
  obtain ⟨page, hpage, hle, hlt⟩ := PageList.mem_places.1 hin
  have := (MemoryArrange.le_totalSize (h.stocked.taken i a ha page hpage).1).1
  omega

/-- Pages that are named once are no more than there is memory. -/
theorem Orderly.size_le (h : Orderly x s) (hs : s.Secured pages backing) : pages.size ≤ 0x200000000 := by
  have hsub : pages.places ⊆ List.range x.config.memoryArrange.totalSize := fun place hp =>
    List.mem_range.2 (h.place_lt hs.covered hp)
  have hle := (List.subperm_of_subset hs.once hsub).length_le
  rw [List.length_range, pages.length_places] at hle
  exact Nat.le_trans hle (MemoryArrange.totalSize_le _)

end

/-- Free runs lie in the memory, so that pages are taken from them within the word. -/
theorem Orderly.takeFirstInWords_eq (h : Orderly x s) (kind : RegionKind) {pages : Nat} (hpages : 0 < pages) :
    Region.takeFirstInWords pages ((s.kernel x.kernel).region kind).free =
      .ok (Region.takeFirst pages ((s.kernel x.kernel).region kind).free) := by
  refine Region.takeFirstInWords_eq hpages fun run hrun hpositive => ?_
  have hlast : run.address + (run.pages - 1) * pageSize ∈ s.available x.kernel kind :=
    List.mem_flatMap.2 ⟨run, hrun, PageRun.mem_toList.2 ⟨run.pages - 1, Nat.sub_lt hpositive Nat.one_pos, rfl⟩⟩
  obtain ⟨-, hword⟩ := MemoryArrange.le_totalSize (h.stocked.free kind _ hlast)
  rwa [Nat.add_assoc, ← Nat.succ_mul, Nat.succ_eq_add_one, Nat.sub_add_cancel hpositive] at hword

/-- Every address space of a sound machine is worded. -/
theorem Sound.worded (h : Sound x s) (id : RecordId) : (s.process id).space.Worded where
  tidy := ⟨h.granted.ordered id, h.orderly.backed.paged id⟩
  places _ hm place hp := (h.holds (.mapping hm) place hp).2

/-- Where the region and what is looked for are small, looking for it stays far below the end of the word. -/
theorem Orderly.findFree_ne_overflow (h : Orderly x s) (id : RecordId) {base regionSize : Nat}
    (hregion : base + regionSize ≤ 0x10000000000) (hsize : size ≤ 0x200000000) :
    (s.process id).space.findFree base regionSize size ≠ .error .overflow := by
  refine AddressSpace.findFree_ne_overflow ?_ ?_ fun m hm hlt => ?_
  · simp only [wordLimit]
    omega
  · simp only [wordLimit]
    omega
  · have hlimit : m.limit = m.address + m.size := rfl
    have hpages := h.size_le (h.backed.secured _ _ (.mapping hm))
    rw [← (h.backed.paged id m hm).2] at hpages
    simp only [wordLimit]
    omega

/-- In a region that ends far below the limit, a mapping as long as physical memory at most is placed without an overflow. -/
theorem Orderly.place_ne_overflow (h : Orderly x s) (id : RecordId) {base regionSize : Nat} {m : Mapping}
    (hregion : base + regionSize ≤ 0x10000000000) (hsize : size ≤ 0x200000000) :
    (s.process id).space.place base regionSize address size m ≠ .error .overflow :=
  AddressSpace.place_ne_overflow fun _ => h.findFree_ne_overflow id hregion hsize

/-! ## Outcomes -/

/-- The program stops for a sum that leaves the word exactly if `stops`, and what it answers and leaves is `served`. -/
structure Ends {α : Type} (p : Action α) (s : Machine) (stops : Prop) (served : α → Machine → Prop) : Prop where
  stops_iff : (p.run s).1 = .error .overflow ↔ stops
  served : ∀ a t, p.run s = (.ok a, t) → served a t

namespace Ends

variable {α β : Type} {p : Action α} {f : α → Action β} {stops stops' : Prop} {served : α → Machine → Prop}
  {served' : β → Machine → Prop} {a : α} {e : KernelError}

/-- A program that succeeds did not stop. -/
theorem of_ok (h : p.run s = (.ok a, t)) (hs : served a t) : Ends p s False served := by
  constructor
  · rw [h]
    exact ⟨by simp, False.elim⟩
  · intro a' t' h'
    obtain ⟨ha, rfl⟩ := Prod.mk.inj (h.symm.trans h')
    exact Except.ok.inj ha ▸ hs

/-- A program that fails stops exactly if that is its error. -/
theorem of_error (h : p.run s = (.error e, t)) (hstops : e = .overflow ↔ stops) : Ends p s stops served := by
  constructor
  · rw [h, Except.error.injEq, hstops]
  · intro a' t' h'
    cases (Prod.mk.inj (h.symm.trans h')).1

/-- A refusal for another reason. -/
theorem of_refused (h : p.run s = (.error e, t)) (he : e ≠ .overflow) : Ends p s False served :=
  of_error h (iff_false_intro he)

/-- What stops a program may be said in another way. -/
theorem congr (h : Ends p s stops served) (hstops : stops ↔ stops') : Ends p s stops' served :=
  ⟨h.stops_iff.trans hstops, h.served⟩

/-- Less may be said of what was served. -/
theorem imp {served' : α → Machine → Prop} (h : Ends p s stops served) (hs : ∀ a t, served a t → served' a t) :
    Ends p s stops served' :=
  ⟨h.stops_iff, fun a t ha => hs a t (h.served a t ha)⟩

/-- A program that begins with a look at the machine. -/
theorem look {f : Machine → Action β} (h : Ends (f s) s stops served') : Ends (get >>= f) s stops served' :=
  ⟨h.stops_iff, h.served⟩

/-- Only the first program of two may stop. -/
theorem bind (h : Ends p s stops served) (hf : ∀ a t, served a t → Ends (f a) t False served') : Ends (p >>= f) s stops served' := by
  have hrun := Action.run_bind p f s
  rcases hp : p.run s with ⟨e | a, t⟩ <;> rw [hp] at hrun
  · refine of_error hrun ?_
    rw [← h.stops_iff, hp, Except.error.injEq]
  · have hno : ¬ stops := by
      rw [← h.stops_iff, hp]
      simp
    obtain ⟨hstops, hserved⟩ := hf a t (h.served a t hp)
    exact ⟨by rw [hrun, hstops, iff_false_intro hno], fun b u hb => hserved b u (hrun.symm.trans hb)⟩

/-- What is made of an answer. -/
theorem map (h : Ends p s stops served) {g : α → β} (hg : ∀ a t, served a t → served' (g a) t) :
    Ends (p >>= fun a => pure (g a)) s stops served' :=
  h.bind fun a t ha => of_ok (Action.run_pure _ _) (hg a t ha)

end Ends

/-! ## Ranges -/

/-- A mapping of exactly this range, of which nothing was mapped, has been added. -/
structure MapsRange (id : RecordId) (address size : Nat) (s t : Machine) : Prop where
  positive : 0 < size
  below : address + size < wordLimit
  unmapped : ∀ a, address ≤ a → a < address + size → ¬ (s.process id).space.Mapped a
  mapping : ∃ m, m.address = address ∧ m.size = size ∧
    ∀ m', m' ∈ (t.process id).space.mappings ↔ m' = m ∨ m' ∈ (s.process id).space.mappings

/-- The mapping of exactly this range has been removed. -/
structure UnmapsRange (id : RecordId) (address size : Nat) (s t : Machine) : Prop where
  below : address + size < wordLimit
  mapping : ∃ m ∈ (s.process id).space.mappings, m.address = address ∧ m.size = size ∧
    ∀ m', m' ∈ (t.process id).space.mappings ↔ m' ∈ (s.process id).space.mappings ∧ m' ≠ m

/-- There is new transfer memory of exactly the places behind this range of the heap. -/
structure LendsRange (id : RecordId) (address size : Nat) (i : RecordId) (s t : Machine) : Prop where
  below : address + size < wordLimit
  fresh : s.transferMemories[i]? = none
  memory : ∃ b, t.transferMemories[i]? = some b ∧ b.pages.size = size ∧
    (s.process id).space.Shows (·.state = .normal) address b.pages.places

/-- The physical addresses of exactly this range, one after the other. -/
structure IsRange (s : Machine) (id : RecordId) (address length : Nat) (places : List Nat) : Prop where
  below : address + length < wordLimit
  places : (List.range' address length).map (s.process id).space.physicalAt = places.map some

/-- A mapping that is made. -/
theorem MapsRange.of_map (ho : (s.process id).space.Ordered) {m : Mapping} {space : AddressSpace}
    (hmap : (s.process id).space.map m = .ok space) (hspace : (t.process id).space = space) : MapsRange id m.address m.size s t := by
  obtain ⟨hpositive, hbelow, -⟩ := ho.map_ok hmap
  refine ⟨hpositive, hbelow, fun a hle hlt ha => ?_, m, rfl, rfl, fun m' => ?_⟩
  · obtain ⟨e, he⟩ := ho.map_error_iff.2 (.inr (.inr (.inr ⟨a, Mapping.covers_iff.2 ⟨hle, hlt⟩, ha⟩)))
    cases hmap.symm.trans he
  · rw [hspace, (AddressSpace.map_ok hmap).2, AddressSpace.mem_insert]

/-- What is placed. -/
theorem MapsRange.of_place (ho : (s.process id).space.Ordered) {base regionSize a : Nat} {m : Mapping} {space : AddressSpace}
    (hplace : (s.process id).space.place base regionSize address size m = .ok (a, space)) (hm : m.size = size)
    (hspace : (t.process id).space = space) : (address ≠ 0 → a = address) ∧ MapsRange id a size s t := by
  unfold AddressSpace.place at hplace
  split at hplace
  · cases hplace
  · next a' hfirst =>
    split at hplace
    · cases hplace
    · next hmap =>
      obtain ⟨rfl, rfl⟩ := Prod.mk.inj (Except.ok.inj hplace)
      refine ⟨fun h0 => ?_, hm ▸ .of_map ho hmap hspace⟩
      rw [if_neg h0] at hfirst
      exact (Except.ok.inj hfirst).symm

end Machine

end Microkernel
