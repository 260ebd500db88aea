import Mathlib.Order.Bounds.Basic
import Microkernel.Proofs.Memory.Mapped

/-!
# Gaps

`findFree` walks over the mappings that begin in its region. It finds the lowest gap of the region unless a mapping that begins before
the region reaches into it with nothing behind it for the length of the gap (`AddressSpace.Tidy.findsLowest_iff`): such a mapping is
not looked at, and the base that it covers is given for free (`AddressSpace.Ordered.findFree_overhung`).
-/

namespace Microkernel

/-- The mapping has no byte in common with `size` bytes from the address on. -/
def Mapping.Beside (m : Mapping) (address size : Nat) : Prop := m.limit ≤ address ∨ address + size ≤ m.address

namespace AddressSpace

variable {s : AddressSpace} {m m' : Mapping} {base regionSize size cursor a : Nat} {mappings : List Mapping}

/-- `size` bytes from a page border in `base` to `base + regionSize` none of which is mapped. -/
structure IsGap (s : AddressSpace) (base regionSize size a : Nat) : Prop where
  aligned : pageSize ∣ a
  above : base ≤ a
  fits : a + size ≤ base + regionSize
  unmapped : ∀ b, a ≤ b → b < a + size → ¬ s.Mapped b

/-- The lowest gap is found, and memory runs out if there is none. -/
def FindsLowest (s : AddressSpace) (base regionSize size : Nat) : Prop :=
  (∃ a, s.findFree base regionSize size = .ok a ∧ IsLeast {a | s.IsGap base regionSize size a} a) ∨
    s.findFree base regionSize size = .error .outOfMemory ∧ ∀ a, ¬ s.IsGap base regionSize size a

/-- A mapping that begins before the base reaches over it, and the next one leaves `size` bytes from the base on alone. -/
def Overhung (s : AddressSpace) (base size : Nat) : Prop :=
  ∃ m ∈ s.mappings, m.address < base ∧ base < m.limit ∧ ∀ m' ∈ s.mappings, base ≤ m'.address → base + size ≤ m'.address

/-! ## Beside mappings -/

/-- No byte of a range is mapped just if every mapping lies beside the range. -/
theorem Ordered.unmapped_iff (h : s.Ordered) (hsize : 0 < size) :
    (∀ b, a ≤ b → b < a + size → ¬ s.Mapped b) ↔ ∀ m ∈ s.mappings, m.Beside a size := by
  constructor
  · intro hunmapped m hm
    have hpositive := h.positive m hm
    have hlimit : m.limit = m.address + m.size := rfl
    refine Classical.byContradiction fun hinside => ?_
    have hinside := not_or.1 hinside
    exact hunmapped (max a m.address) (Nat.le_max_left _ _) (by omega)
      ⟨m, hm, Mapping.covers_iff.2 ⟨Nat.le_max_right _ _, by omega⟩⟩
  · rintro hbeside b hle hlt ⟨m, hm, hc⟩
    have hcovers := Mapping.covers_iff.1 hc
    rcases hbeside m hm with hbefore | hbehind <;> omega

/-- What begins earlier ends before what begins later. -/
theorem Ordered.limit_le_of_lt (h : s.Ordered) (hm : m ∈ s.mappings) (hm' : m' ∈ s.mappings) (hlt : m.address < m'.address) :
    m.limit ≤ m'.address := by
  refine Nat.le_of_not_lt fun hoverlap => ?_
  have hpositive := h.positive m' hm'
  have hlimit : m'.limit = m'.address + m'.size := rfl
  have hcovers : m.covers m'.address = true := Mapping.covers_iff.2 ⟨Nat.le_of_lt hlt, hoverlap⟩
  have hsame := h.eq_of_covers hm hm' hcovers (Mapping.covers_iff.2 ⟨Nat.le_refl _, by omega⟩)
  rw [hsame] at hlt
  exact Nat.lt_irrefl _ hlt

/-! ## The walk -/

/-- The walk ends at the lowest place beside all mappings it goes over. -/
theorem findGap_isLeast (h : mappings.Pairwise fun m m' => m.limit ≤ m'.address) (hwalk : findGap size cursor mappings = .ok a) :
    IsLeast {a | cursor ≤ a ∧ ∀ m ∈ mappings, m.Beside a size} a := by
  induction mappings generalizing cursor with
  | nil =>
    obtain rfl := Except.ok.inj hwalk
    exact ⟨⟨Nat.le_refl _, fun m hm => absurd hm List.not_mem_nil⟩, fun b hb => hb.1⟩
  | cons m rest ih =>
    obtain ⟨hfirst, hrest⟩ := List.pairwise_cons.1 h
    unfold findGap at hwalk
    split at hwalk
    · cases hwalk
    · split at hwalk
      · next hroom =>
        obtain rfl := Except.ok.inj hwalk
        refine ⟨⟨Nat.le_refl _, fun m' hm' => .inr ?_⟩, fun b hb => hb.1⟩
        rcases List.mem_cons.1 hm' with rfl | hm'
        · exact hroom
        · have := hfirst m' hm'
          have : m.limit = m.address + m.size := rfl
          omega
      · next hcrowded =>
        obtain ⟨⟨hcursor, hbeside⟩, hleast⟩ := ih hrest hwalk
        constructor
        · refine ⟨Nat.le_trans (Nat.le_max_left _ _) hcursor, fun m' hm' => ?_⟩
          rcases List.mem_cons.1 hm' with rfl | hm'
          · exact .inl (Nat.le_trans (Nat.le_max_right _ _) hcursor)
          · exact hbeside m' hm'
        · rintro b ⟨hb, hall⟩
          -- there is no room before the first mapping, so whatever is beside it comes behind it
          have hbehind : m.limit ≤ b := by
            rcases hall m List.mem_cons_self with hlimit | hbefore
            · exact hlimit
            · omega
          exact hleast ⟨Nat.max_le.2 ⟨hb, hbehind⟩, fun m' hm' => hall m' (List.mem_cons_of_mem _ hm')⟩

/-- The walk ends where it began or behind a mapping. -/
theorem findGap_eq_or (hwalk : findGap size cursor mappings = .ok a) : a = cursor ∨ ∃ m ∈ mappings, a = m.limit := by
  induction mappings generalizing cursor with
  | nil => exact .inl (Except.ok.inj hwalk).symm
  | cons m rest ih =>
    unfold findGap at hwalk
    split at hwalk
    · cases hwalk
    · split at hwalk
      · exact .inl (Except.ok.inj hwalk).symm
      · rcases ih hwalk with rfl | ⟨m', hm', rfl⟩
        · rcases Nat.le_total cursor m.limit with hle | hle
          · exact .inr ⟨m, List.mem_cons_self, Nat.max_eq_right hle⟩
          · exact .inl (Nat.max_eq_left hle)
        · exact .inr ⟨m', List.mem_cons_of_mem _ hm', rfl⟩

/-- Nothing but the width of the word stops the walk. -/
theorem findGap_error {e : KernelError} (hwalk : findGap size cursor mappings = .error e) : e = .overflow := by
  induction mappings generalizing cursor with
  | nil => cases hwalk
  | cons m rest ih =>
    unfold findGap at hwalk
    split at hwalk
    · exact (Except.error.inj hwalk).symm
    · split at hwalk
      · cases hwalk
      · exact ih hwalk

/-- Where no sum leaves the word, the walk comes to its end. -/
theorem exists_findGap (hcursor : cursor + size < wordLimit) (h : ∀ m ∈ mappings, m.limit + size < wordLimit) :
    ∃ a, findGap size cursor mappings = .ok a ∧ a + size < wordLimit := by
  induction mappings generalizing cursor with
  | nil => exact ⟨cursor, rfl, hcursor⟩
  | cons m rest ih =>
    have hm := h m List.mem_cons_self
    unfold findGap
    rw [if_neg (Nat.not_le.2 hcursor)]
    split
    · exact ⟨cursor, rfl, hcursor⟩
    · exact ih (by omega) fun m' hm' => h m' (List.mem_cons_of_mem _ hm')

/-! ## Free ranges -/

/-- The mappings that `findFree` walks over. -/
def visited (s : AddressSpace) (base regionSize : Nat) : List Mapping :=
  s.mappings.filter fun m => base ≤ m.address && m.address < base + regionSize

/-- The walk visits the mappings that begin in the region. -/
theorem mem_visited : m ∈ s.visited base regionSize ↔ m ∈ s.mappings ∧ base ≤ m.address ∧ m.address < base + regionSize := by
  unfold visited
  rw [List.mem_filter, Bool.and_eq_true, decide_eq_true_eq, decide_eq_true_eq]

/-- The answer is the end of the walk if the range fits into the region behind it. -/
theorem findFree_eq (s : AddressSpace) (base regionSize size : Nat) : s.findFree base regionSize size =
    if wordLimit ≤ base + regionSize then .error .overflow
    else
      match findGap size base (s.visited base regionSize) with
      | .error e => .error e
      | .ok cursor =>
        if wordLimit ≤ cursor + size then .error .overflow
        else if cursor + size ≤ base + regionSize then .ok cursor else .error .outOfMemory := by
  unfold findFree
  split
  · rfl
  · change (do
      let cursor ← findGap size base (s.visited base regionSize)
      if wordLimit ≤ cursor + size then throw .overflow
      if cursor + size ≤ base + regionSize then return cursor else throw .outOfMemory : Except KernelError Nat) = _
    cases findGap size base (s.visited base regionSize) with
    | error e => rfl
    | ok cursor => exact ite_congr rfl (fun _ => rfl) fun _ => rfl

/-- Without an overflow the answer is the cursor after the walk, if what is asked for still fits behind it. -/
theorem findFree_cases (hword : s.findFree base regionSize size ≠ .error .overflow) :
    ∃ cursor, findGap size base (s.visited base regionSize) = .ok cursor ∧
      s.findFree base regionSize size = if cursor + size ≤ base + regionSize then .ok cursor else .error .outOfMemory := by
  rw [findFree_eq] at hword ⊢
  split at hword
  · exact absurd rfl hword
  · next hregion =>
    rw [if_neg hregion]
    cases hwalk : findGap size base (s.visited base regionSize) with
    | error e =>
      obtain rfl := findGap_error hwalk
      rw [hwalk] at hword
      exact absurd rfl hword
    | ok cursor =>
      rw [hwalk] at hword
      refine ⟨cursor, rfl, ?_⟩
      by_cases hend : wordLimit ≤ cursor + size
      · exact absurd (if_pos hend) hword
      · exact if_neg hend

/-- Without an overflow the region ends within the word. -/
theorem findFree_region (hword : s.findFree base regionSize size ≠ .error .overflow) : base + regionSize < wordLimit := by
  refine Nat.lt_of_not_le fun hlarge => hword ?_
  rw [findFree_eq, if_pos hlarge]

/-- Where the region and the mappings that begin in it leave room in the word, nothing overflows. -/
theorem findFree_ne_overflow (hregion : base + regionSize < wordLimit) (hbase : base + size < wordLimit)
    (h : ∀ m ∈ s.mappings, m.address < base + regionSize → m.limit + size < wordLimit) :
    s.findFree base regionSize size ≠ .error .overflow := by
  have hvisited : ∀ m ∈ s.visited base regionSize, m.limit + size < wordLimit := fun m hm =>
    h m (mem_visited.1 hm).1 (mem_visited.1 hm).2.2
  obtain ⟨cursor, hwalk, hend⟩ := exists_findGap hbase hvisited
  rw [findFree_eq, if_neg (Nat.not_le.2 hregion), hwalk]
  dsimp only
  rw [if_neg (Nat.not_le.2 hend)]
  split <;> simp

/-- A gap that the walk ends at is the lowest one, and if none fits behind the end of the walk there is none. -/
theorem findsLowest_of_isGap (ho : s.Ordered) (hsize : 0 < size) (hword : s.findFree base regionSize size ≠ .error .overflow)
    (h : ∀ a, s.findFree base regionSize size = .ok a → s.IsGap base regionSize size a) : s.FindsLowest base regionSize size := by
  obtain ⟨cursor, hwalk, hanswer⟩ := findFree_cases hword
  obtain ⟨-, hleast⟩ := findGap_isLeast (ho.apart.filter _) hwalk
  have hbelow {a : Nat} (ha : s.IsGap base regionSize size a) : cursor ≤ a :=
    hleast ⟨ha.above, fun m hm => (ho.unmapped_iff hsize).1 ha.unmapped m (mem_visited.1 hm).1⟩
  split at hanswer
  · exact .inl ⟨cursor, hanswer, h cursor hanswer, fun a ha => hbelow ha⟩
  · next hfull =>
    refine .inr ⟨hanswer, fun a ha => ?_⟩
    have := hbelow ha
    have := ha.fits
    omega

/-- The base of an overhung region is given for free. -/
theorem Ordered.findFree_overhung (ho : s.Ordered) (hfits : size ≤ regionSize) (hover : s.Overhung base size)
    (hword : s.findFree base regionSize size ≠ .error .overflow) : s.findFree base regionSize size = .ok base ∧ s.Mapped base := by
  obtain ⟨m, hm, hbefore, hbehind, hclear⟩ := hover
  obtain ⟨cursor, hwalk, hanswer⟩ := findFree_cases hword
  obtain ⟨⟨habove, -⟩, hleast⟩ := findGap_isLeast (ho.apart.filter _) hwalk
  obtain rfl : cursor = base := by
    refine Nat.le_antisymm (hleast ⟨Nat.le_refl _, fun m' hm' => .inr ?_⟩) habove
    obtain ⟨hmem, hin, -⟩ := mem_visited.1 hm'
    exact hclear m' hmem hin
  rw [hanswer, if_pos (Nat.add_le_add_left hfits _)]
  exact ⟨rfl, m, hm, Mapping.covers_iff.2 ⟨Nat.le_of_lt hbefore, hbehind⟩⟩

/-- Where the base is not overhung, what is found is a gap. -/
theorem Tidy.isGap_of_findFree (h : s.Tidy) (hbase : pageSize ∣ base) (hsize : 0 < size) (hclear : ¬ s.Overhung base size)
    (hword : s.findFree base regionSize size ≠ .error .overflow) (hfind : s.findFree base regionSize size = .ok a) :
    s.IsGap base regionSize size a := by
  have ho := h.ordered
  obtain ⟨cursor, hwalk, hanswer⟩ := findFree_cases hword
  obtain ⟨⟨habove, hbeside⟩, -⟩ := findGap_isLeast (ho.apart.filter _) hwalk
  rw [hfind] at hanswer
  split at hanswer
  · next hfits =>
    obtain rfl := Except.ok.inj hanswer
    constructor
    case aligned =>
      rcases findGap_eq_or hwalk with rfl | ⟨m, hm, rfl⟩
      · exact hbase
      · obtain ⟨haddress, hwhole⟩ := h.paged m (mem_visited.1 hm).1
        exact Nat.dvd_add haddress (hwhole ▸ m.pages.dvd_size)
    case above => exact habove
    case fits => exact hfits
    case unmapped =>
      refine (ho.unmapped_iff hsize).2 fun m hm => ?_
      have hlimit : m.limit = m.address + m.size := rfl
      by_cases hin : base ≤ m.address
      · by_cases hlt : m.address < base + regionSize
        · exact hbeside m (mem_visited.2 ⟨hm, hin, hlt⟩)
        · exact .inr (by omega)
      · -- a mapping that begins before the base ends before the answer, or it would overhang the base
        refine .inl (Nat.le_of_not_lt fun hover => hclear ⟨m, hm, by omega, by omega, fun m' hm' hin' => ?_⟩)
        have hbehind := ho.limit_le_of_lt hm hm' (by omega)
        have hlimit' : m'.limit = m'.address + m'.size := rfl
        by_cases hlt : m'.address < base + regionSize
        · rcases hbeside m' (mem_visited.2 ⟨hm', hin', hlt⟩) with hend | hstart <;> omega
        · omega
  · cases hanswer

/-- The lowest gap is found, or none if there is none, exactly if the range is too large for the region or the base is not overhung. -/
theorem Tidy.findsLowest_iff (h : s.Tidy) (hbase : pageSize ∣ base) (hsize : 0 < size)
    (hword : s.findFree base regionSize size ≠ .error .overflow) :
    s.FindsLowest base regionSize size ↔ ¬ (size ≤ regionSize ∧ s.Overhung base size) := by
  constructor
  · rintro hlowest ⟨hfits, hover⟩
    obtain ⟨hfound, hmapped⟩ := h.ordered.findFree_overhung hfits hover hword
    rcases hlowest with ⟨a, ha, ⟨hgap, -⟩⟩ | ⟨hnone, -⟩
    · obtain rfl := Except.ok.inj (hfound.symm.trans ha)
      exact hgap.unmapped base (Nat.le_refl _) (Nat.lt_add_of_pos_right hsize) hmapped
    · cases hfound.symm.trans hnone
  · intro hnot
    refine findsLowest_of_isGap h.ordered hsize hword fun a hfind => ?_
    refine h.isGap_of_findFree hbase hsize (fun hover => hnot ⟨?_, hover⟩) hword hfind
    -- what is found fits into the region behind its base
    obtain ⟨cursor, hwalk, hanswer⟩ := findFree_cases hword
    obtain ⟨⟨habove, -⟩, -⟩ := findGap_isLeast (h.ordered.apart.filter _) hwalk
    rw [hfind] at hanswer
    split at hanswer
    · omega
    · cases hanswer

end AddressSpace

end Microkernel
