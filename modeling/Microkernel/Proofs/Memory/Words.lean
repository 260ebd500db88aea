import Microkernel.Proofs.Memory.Gaps
import Microkernel.Proofs.Memory.Translation

/-!
# Plain sums

Some sums of page lists, regions and address spaces are checked, the others are plain: a plain sum that leaves the 64-bit word stops
the operation (`word`). Here every plain sum and product of regions and address spaces stands where it is taken, as those of page lists
do beside them (`PageList.extendFromInWords`). In a tidy address space over physical addresses of the
word (`AddressSpace.Worded`) none of them leaves the word but those of `findFree` and `capture` that say so
(`AddressSpace.Worded.inWords`).
-/

namespace Microkernel

/-! ## Whole pages -/

variable {size whole : Nat}

/-- Rounding up is a division and a product. -/
def pageAlignUpInWords (size : Nat) : Except KernelError Nat :=
  word ((size / pageSize + if size % pageSize = 0 then 0 else 1) * pageSize)

/-- Rounding up by a division is rounding up by a sum. -/
theorem roundUp_eq (size : Nat) : (size / pageSize + if size % pageSize = 0 then 0 else 1) * pageSize =
    (size + (pageSize - 1)) / pageSize * pageSize := by
  by_cases h : size % pageSize = 0
  · rw [if_pos h]
    simp only [pageSize] at h ⊢
    omega
  · rw [if_neg h]
    simp only [pageSize] at h ⊢
    omega

/-- Rounding up with a plain product stops where rounding up in the word has no result, and is it elsewhere. -/
theorem pageAlignUpInWords_eq (size : Nat) : pageAlignUpInWords size =
    match pageAlignUp? size with
    | some whole => .ok whole
    | none => .error .overflow := by
  unfold pageAlignUpInWords pageAlignUp? word
  rw [roundUp_eq]
  dsimp only
  split <;> rfl

/-- Rounding up gives the whole pages that hold the size and no more, if they end in the word. -/
theorem pageAlignUp?_eq_some_iff : pageAlignUp? size = some whole ↔
    pageSize ∣ whole ∧ size ≤ whole ∧ whole < size + pageSize ∧ whole < wordLimit := by
  have hround : (size + (pageSize - 1)) / pageSize * pageSize = whole ↔
      pageSize ∣ whole ∧ size ≤ whole ∧ whole < size + pageSize := by
    simp only [pageSize]
    omega
  have hword : pageAlignUp? size = some whole ↔
      (size + (pageSize - 1)) / pageSize * pageSize < wordLimit ∧ (size + (pageSize - 1)) / pageSize * pageSize = whole :=
    Option.ite_none_right_eq_some.trans (and_congr_right fun _ => Option.some_inj)
  rw [hword]
  constructor
  · rintro ⟨hlt, heq⟩
    obtain ⟨hdvd, hle, hnear⟩ := hround.1 heq
    exact ⟨hdvd, hle, hnear, heq ▸ hlt⟩
  · rintro ⟨hdvd, hle, hnear, hlt⟩
    have heq := hround.2 ⟨hdvd, hle, hnear⟩
    exact ⟨heq.symm ▸ hlt, heq⟩

/-- A size cannot be rounded up if that leaves the word. -/
theorem pageAlignUp?_eq_none_iff : pageAlignUp? size = none ↔ wordLimit < size + pageSize := by
  have hround : wordLimit ≤ (size + (pageSize - 1)) / pageSize * pageSize ↔ wordLimit < size + pageSize := by
    simp only [pageSize, wordLimit]
    omega
  have hnone : pageAlignUp? size = none ↔ ¬ (size + (pageSize - 1)) / pageSize * pageSize < wordLimit :=
    ite_eq_right_iff.trans (forall_congr' fun _ => iff_false_intro (Option.some_ne_none _))
  rw [hnone, Nat.not_lt, hround]

/-- What can be rounded up leaves room for the sum that does it. -/
theorem fits_of_pageAlignUp? (h : pageAlignUp? size = some whole) : ¬ wordLimit < size + pageSize := by
  rw [← pageAlignUp?_eq_none_iff, h]
  exact Option.some_ne_none _

/-! ## Page lists -/

namespace PageList

/-! ### No sum leaves the word -/

/-- The runs end in the word. -/
def Fits (runs : List PageRun) : Prop := ∀ run ∈ runs, run.limit < wordLimit

/-- Counting pages with plain sums counts them, if they are counted in a word. -/
theorem countInWords_eq {count : Nat} {runs : List PageRun} (h : count + total PageRun.pages runs < wordLimit) :
    countInWords count runs = .ok (count + total PageRun.pages runs) := by
  induction runs generalizing count with
  | nil => rfl
  | cons run rest ih =>
    rw [total] at h ⊢
    rw [countInWords, word_bind (by omega), ih (by omega), Nat.add_assoc]

/-- The size of a list is taken without leaving the word, if it lies in the word. -/
theorem sizeInWords_eq {l : PageList} (h : l.size < wordLimit) : l.sizeInWords = .ok l.size := by
  have hcount : 0 + total PageRun.pages l.runs < wordLimit := by
    have hsize : l.size = total PageRun.pages l.runs * pageSize := rfl
    simp only [pageSize] at hsize
    omega
  rw [sizeInWords, countInWords_eq hcount, Nat.zero_add]
  exact word_ok h

/-- Locating from runs further in a list takes no sum that leaves the word, if the list and its places lie in the word. -/
theorem locateInWords_add {runs : List PageRun} {base : Nat} (hbase : base + (placesOf runs).length < wordLimit)
    (hplaces : ∀ place ∈ placesOf runs, place < wordLimit) (offset : Nat) :
    locateInWords base runs (base + offset) = .ok (locateIn runs offset) := by
  induction runs generalizing base offset with
  | nil => rfl
  | cons run rest ih =>
    have hsize : run.size = run.pages * pageSize := rfl
    have hrun : run.places.length = run.size := List.length_range'
    rw [placesOf_cons] at hbase hplaces
    rw [List.length_append] at hbase
    rw [locateInWords, word_bind (by omega), word_bind (by omega), locateIn, ← hsize]
    by_cases hlt : offset < run.size
    · have hplace : run.address + offset < wordLimit :=
        hplaces _ (List.mem_append_left _ (List.mem_range'_1.2 ⟨Nat.le_add_right _ _, Nat.add_lt_add_left hlt _⟩))
      rw [if_pos hlt, if_pos (Nat.add_lt_add_left hlt _), Nat.add_sub_cancel_left, word_bind hplace]
      rfl
    · rw [if_neg hlt, if_neg (by omega)]
      have hbehind : base + run.size + (placesOf rest).length < wordLimit := by omega
      have hrest := ih hbehind (fun place hp => hplaces place (List.mem_append_right _ hp)) (offset - run.size)
      rwa [Nat.add_assoc, Nat.add_sub_cancel' (Nat.le_of_not_lt hlt)] at hrest

/-- Locating takes no sum that leaves the word, if the list and its places lie in the word. -/
theorem locateInWords_eq {l : PageList} (hsize : l.size < wordLimit) (hplaces : ∀ place ∈ l.places, place + 1 < wordLimit)
    (offset : Nat) : locateInWords 0 l.runs offset = .ok (l.locate offset) := by
  have hlength : 0 + (placesOf l.runs).length < wordLimit := by
    rw [Nat.zero_add]
    exact l.length_places.symm ▸ hsize
  have heq := locateInWords_add hlength (fun place hp => Nat.lt_of_succ_lt (hplaces place hp)) offset
  rwa [Nat.zero_add] at heq

/-- Appending a run that ends in the word takes no sum that leaves it, and all runs end in the word then. -/
theorem appendRunInWords_eq {run : PageRun} {runs : List PageRun} (hrun : run.limit < wordLimit) (h : Fits runs) :
    appendRunInWords run runs = .ok (appendRun run runs) ∧ Fits (appendRun run runs) := by
  have hlimit (r : PageRun) : r.limit = r.address + r.pages * pageSize := rfl
  fun_induction appendRun run runs with
  | case1 => exact ⟨rfl, fun r hr => List.mem_singleton.1 hr ▸ hrun⟩
  | case2 last hmeets =>
    have hlast := h last List.mem_cons_self
    have hmerged : PageRun.limit { last with pages := last.pages + run.pages } = run.limit := by
      rw [hlimit, hlimit, Nat.add_mul, ← Nat.add_assoc, ← hlimit last, hmeets]
    refine ⟨?_, fun r hr => List.mem_singleton.1 hr ▸ hmerged ▸ hrun⟩
    have hpages : last.pages + run.pages < wordLimit := by
      rw [← hmerged, hlimit] at hrun
      simp only [pageSize] at hrun
      omega
    rw [hlimit] at hlast hmeets
    rw [appendRunInWords, word_bind (by omega), word_bind hlast, if_pos hmeets, word_bind hpages]
    rfl
  | case3 last hmeets =>
    have hlast := h last List.mem_cons_self
    rw [hlimit] at hlast hmeets
    refine ⟨?_, fun r hr => ?_⟩
    · rw [appendRunInWords, word_bind (by omega), word_bind hlast, if_neg hmeets]
      rfl
    · rcases List.mem_cons.1 hr with rfl | hr
      · exact h r List.mem_cons_self
      · exact List.mem_singleton.1 hr ▸ hrun
  | case4 first next rest ih =>
    obtain ⟨hok, hfits⟩ := ih fun r hr => h r (List.mem_cons_of_mem _ hr)
    refine ⟨?_, fun r hr => ?_⟩
    · rw [appendRunInWords, hok]
      rfl
    · rcases List.mem_cons.1 hr with rfl | hr
      · exact h r List.mem_cons_self
      · exact hfits r hr

/-- Adding pages that end in the word takes no sum that leaves it, and all runs end in the word then. -/
theorem addRunInWords_eq {l : PageList} {address pages : Nat} (hrun : (PageRun.mk address pages).limit < wordLimit) (h : Fits l.runs) :
    l.addRunInWords address pages = .ok (l.addRun address pages) ∧ Fits (l.addRun address pages).runs := by
  unfold addRunInWords addRun
  split
  · exact ⟨rfl, h⟩
  · obtain ⟨hok, hfits⟩ := appendRunInWords_eq hrun h
    rw [hok]
    exact ⟨rfl, hfits⟩

/-- Appending a range of a list that lies in the word takes no sum that leaves it, and all runs end in the word then. -/
theorem extendFromInWords_eq {l other : PageList} {offset size : Nat} (hother : other.size < wordLimit)
    (hplaces : ∀ place ∈ other.places, place + 1 < wordLimit) (hword : offset + size < wordLimit) (h : Fits l.runs) :
    l.extendFromInWords other offset size = .ok (l.extendFrom other offset size) ∧ Fits (l.extendFrom other offset size).runs := by
  induction size using Nat.strongRecOn generalizing l offset with
  | ind size ih =>
    unfold extendFromInWords extendFrom
    split
    · exact ⟨rfl, h⟩
    · next h0 =>
      have hlocate := locateInWords_eq hother hplaces offset
      split
      · next e he => cases he.symm.trans hlocate
      · next hnone =>
        have hnone := Except.ok.inj (hlocate.symm.trans hnone)
        split
        · exact ⟨rfl, h⟩
        · next hsome => cases hnone.symm.trans hsome
      · next address contiguous hsome =>
        have hsome := Except.ok.inj (hlocate.symm.trans hsome)
        split
        · next hnone => cases hnone.symm.trans hsome
        · next address' contiguous' hsome' =>
          obtain ⟨rfl, rfl⟩ := Prod.mk.inj (Option.some.inj (hsome.symm.trans hsome'))
          have hpositive := locateIn_pos hsome
          obtain ⟨-, hrange⟩ := locateIn_places hsome
          -- the last byte that is located is a place of the list
          have hlast : address + contiguous - 1 + 1 < wordLimit := by
            have hin : address + contiguous - 1 ∈ slice (placesOf other.runs) offset contiguous := by
              rw [hrange, List.mem_range'_1]
              omega
            exact hplaces _ (mem_of_mem_slice hin)
          have hrun : (PageRun.mk address (min contiguous size / pageSize)).limit < wordLimit := by
            have hle : min contiguous size / pageSize * pageSize ≤ min contiguous size := Nat.div_mul_le_self _ _
            change address + min contiguous size / pageSize * pageSize < wordLimit
            omega
          obtain ⟨hadd, hfits⟩ := addRunInWords_eq hrun h
          dsimp only
          rw [hadd]
          change (word (offset + min contiguous size) >>= _) = _ ∧ _
          rw [word_bind (by omega)]
          exact ih _ (by omega) (by omega) hfits

end PageList

/-! ## Regions -/

namespace Region

/-- Taking pages, with the size that is cleared. -/
def takeFirstInWords (pages : Nat) : List PageRun → Except KernelError (Option (Nat × List PageRun))
  | [] => return none
  | run :: rest =>
    if pages ≤ run.pages then do
      let size ← word (pages * pageSize)
      if pages < run.pages then return some (run.address, ⟨← word (run.address + size), run.pages - pages⟩ :: rest)
      else return some (run.address, rest)
    else return (← takeFirstInWords pages rest).map fun (address, rest) => (address, run :: rest)

/-- Taking pages takes no sum that leaves the word, if the free runs end in it. -/
theorem takeFirstInWords_eq {pages : Nat} {runs : List PageRun} (hpages : 0 < pages)
    (h : ∀ run ∈ runs, 0 < run.pages → run.limit < wordLimit) : takeFirstInWords pages runs = .ok (takeFirst pages runs) := by
  induction runs with
  | nil => rfl
  | cons run rest ih =>
    unfold takeFirstInWords takeFirst
    split
    · next hle =>
      have hlimit : run.address + run.pages * pageSize < wordLimit :=
        h run List.mem_cons_self (Nat.lt_of_lt_of_le hpages hle)
      have hsize : pages * pageSize ≤ run.pages * pageSize := Nat.mul_le_mul_right _ hle
      rw [word_bind (by omega)]
      split
      · rw [word_bind (by omega)]
        rfl
      · rfl
    · rw [ih fun run' hrun' => h run' (List.mem_cons_of_mem _ hrun')]
      rfl

end Region

/-! ## Address spaces -/

namespace AddressSpace

def mappingAtInWords (s : AddressSpace) (address : Nat) : Except KernelError (Option Mapping) :=
  match s.lastBefore (address + 1) with
  | none => .ok none
  | some m => do
    let limit ← word (m.address + m.size)
    return if m.address ≤ address && address < limit then some m else none

def isFreeInWords (s : AddressSpace) (address size : Nat) : Except KernelError Bool :=
  match s.lastBefore (min (address + size) (wordLimit - 1)) with
  | none => .ok true
  | some last => do return decide ((← word (last.address + last.size)) ≤ address)

/-- Adds a mapping; the end of its range is checked. -/
def mapInWords (s : AddressSpace) (m : Mapping) : Except KernelError AddressSpace :=
  if !isPageAligned m.address then .error (.invalidAddress m.address)
  else if m.size = 0 then .error (.invalidSize 0)
  else if wordLimit ≤ m.address + m.size then .error .invalidMemoryState
  else do if ← s.isFreeInWords m.address m.size then return ⟨insert m s.mappings⟩ else throw .invalidMemoryState

def findGapInWords (size : Nat) : Nat → List Mapping → Except KernelError Nat
  | cursor, [] => .ok cursor
  | cursor, m :: rest => do
    if (← word (cursor + size)) ≤ m.address then return cursor
    else findGapInWords size (max cursor (← word (m.address + m.size))) rest

def findFreeInWords (s : AddressSpace) (base regionSize size : Nat) : Except KernelError Nat := do
  let limit ← word (base + regionSize)
  let cursor ← findGapInWords size base (s.visited base regionSize)
  if (← word (cursor + size)) ≤ limit then return cursor else throw .outOfMemory

/-- The mapping that is found at an address with plain sums covers the address. -/
theorem mappingAtInWords_some {s : AddressSpace} {m : Mapping} {address : Nat} (h : s.mappingAtInWords address = .ok (some m)) :
    m.address ≤ address ∧ address < m.address + m.size := by
  unfold mappingAtInWords at h
  split at h
  · cases h
  · have h := Option.ite_none_right_eq_some.1 (Except.ok.inj (of_word_bind h))
    obtain ⟨hcovers, heq⟩ := h
    obtain rfl := Option.some.inj heq
    simpa using hcovers

def captureFromInWords (s : AddressSpace) (cursor length : Nat) (found : PageList × List AllocationId) :
    Except KernelError (PageList × List AllocationId) :=
  if length = 0 then .ok found
  else
    match _h : s.mappingAtInWords cursor with
    | .error e => .error e
    | .ok none => .error .invalidMemoryState
    | .ok (some m) =>
      if m.state ≠ .normal then .error .invalidMemoryState
      else do
        let piece := min (m.size - (cursor - m.address)) length
        let _ ← word (cursor - m.address + piece)
        let pages ← found.1.extendFromInWords m.pages (cursor - m.address) piece
        let next ← word (cursor + piece)
        s.captureFromInWords next (length - piece) (pages, addNew found.2 m.backing)
termination_by length
decreasing_by
  have := mappingAtInWords_some _h
  omega

def captureInWords (s : AddressSpace) (address size : Nat) : Except KernelError (PageList × List AllocationId) :=
  if !isPageAligned address || !isPageAligned size then .error (.invalidAddress address)
  else do
    let _ ← word (address + size)
    s.captureFromInWords address size ({}, [])

def translateFromInWords (s : AddressSpace) (access : Access) (cursor length : Nat) : Except KernelError (List (Nat × Nat)) :=
  if length = 0 then .ok []
  else
    match _h : s.mappingAtInWords cursor with
    | .error e => .error e
    | .ok none => .error (.invalidAddress cursor)
    | .ok (some m) =>
      if !m.permission.allows access then .error .invalidPermission
      else
        match _hl : PageList.locateInWords 0 m.pages.runs (cursor - m.address) with
        | .error e => .error e
        | .ok none => .error (.invalidAddress cursor)
        | .ok (some (physical, contiguous)) => do
          let piece := min (min contiguous (m.size - (cursor - m.address))) length
          let next ← word (cursor + piece)
          let rest ← s.translateFromInWords access next (length - piece)
          return (physical, piece) :: rest
termination_by length
decreasing_by
  have := mappingAtInWords_some _h
  have := PageList.locateInWords_pos (Nat.zero_le _) _hl
  omega

/-- Translates a range; its end is checked. -/
def translateInWords (s : AddressSpace) (address length : Nat) (access : Access) : Except KernelError (List (Nat × Nat)) :=
  if wordLimit ≤ address + length then .error (.invalidAddress address) else s.translateFromInWords access address length

/-! ### No sum leaves the word unnoticed -/

/-- A tidy address space whose mappings have physical addresses of the word behind them. -/
structure Worded (s : AddressSpace) : Prop where
  tidy : s.Tidy
  places : ∀ m ∈ s.mappings, ∀ place ∈ m.pages.places, place + 1 < wordLimit

variable {s : AddressSpace} {m : Mapping} {address size cursor length : Nat}

/-- In a space in order no sum leaves the word when a mapping is looked up. -/
theorem Ordered.mappingAtInWords_eq (h : s.Ordered) (address : Nat) : s.mappingAtInWords address = .ok (s.mappingAt address) := by
  unfold mappingAtInWords mappingAt
  cases hlast : s.lastBefore (address + 1) with
  | none => rfl
  | some m =>
    have hlimit : m.address + m.size < wordLimit := h.below m (List.mem_filter.1 (List.mem_of_getLast? hlast)).1
    dsimp only
    rw [word_bind hlimit]
    rfl

/-- In a space in order no sum leaves the word when a range is asked to be free. -/
theorem Ordered.isFreeInWords_eq (h : s.Ordered) (address size : Nat) : s.isFreeInWords address size = .ok (s.isFree address size) := by
  unfold isFreeInWords isFree
  cases hlast : s.lastBefore (min (address + size) (wordLimit - 1)) with
  | none => rfl
  | some m =>
    have hlimit : m.address + m.size < wordLimit := h.below m (List.mem_filter.1 (List.mem_of_getLast? hlast)).1
    dsimp only
    rw [word_bind hlimit]
    rfl

/-- In a space in order no sum leaves the word when a range is mapped. -/
theorem Ordered.mapInWords_eq (h : s.Ordered) (m : Mapping) : s.mapInWords m = s.map m := by
  unfold mapInWords AddressSpace.map
  rw [h.isFreeInWords_eq]
  split
  · rfl
  · split
    · rfl
    · by_cases hword : wordLimit ≤ m.address + m.size
      · rw [if_pos hword, decide_eq_true hword, Bool.true_or, if_pos rfl]
      · rw [if_neg hword, decide_eq_false hword, Bool.false_or]
        cases s.isFree m.address m.size <;> rfl

/-- The walk for a gap takes no sum that leaves the word but those that it reports, if the mappings end in the word. -/
theorem findGapInWords_eq {mappings : List Mapping} (h : ∀ m ∈ mappings, m.limit < wordLimit) :
    findGapInWords size cursor mappings = findGap size cursor mappings := by
  induction mappings generalizing cursor with
  | nil => rfl
  | cons m rest ih =>
    have hlimit : m.address + m.size < wordLimit := h m List.mem_cons_self
    unfold findGapInWords findGap
    by_cases hword : wordLimit ≤ cursor + size
    · rw [word_overflow hword, if_pos hword]
      rfl
    · rw [word_bind (Nat.not_le.1 hword), if_neg hword]
      split
      · rfl
      · rw [word_bind hlimit, ih fun m' hm' => h m' (List.mem_cons_of_mem _ hm')]
        rfl

/-- In a space in order `findFree` takes no sum that leaves the word but those that it reports. -/
theorem Ordered.findFreeInWords_eq (h : s.Ordered) (base regionSize size : Nat) :
    s.findFreeInWords base regionSize size = s.findFree base regionSize size := by
  have hvisited : ∀ m ∈ s.visited base regionSize, m.limit < wordLimit := fun m hm => h.below m (mem_visited.1 hm).1
  rw [findFree_eq, findFreeInWords]
  by_cases hregion : wordLimit ≤ base + regionSize
  · rw [word_overflow hregion, if_pos hregion]
    rfl
  · rw [word_bind (Nat.not_le.1 hregion), if_neg hregion, findGapInWords_eq hvisited]
    cases findGap size base (s.visited base regionSize) with
    | error e => rfl
    | ok cursor =>
      change (word (cursor + size) >>= _) = _
      by_cases hend : wordLimit ≤ cursor + size
      · rw [word_overflow hend]
        exact (if_pos hend).symm
      · rw [word_bind (Nat.not_le.1 hend)]
        exact (if_neg hend).symm

namespace Worded

/-- The page list of a mapping has its size in the word. -/
theorem size_lt (h : s.Worded) (hm : m ∈ s.mappings) : m.pages.size < wordLimit := by
  have hlimit := h.tidy.ordered.below m hm
  have : m.limit = m.address + m.size := rfl
  rw [← (h.tidy.paged m hm).2]
  omega

/-- Locating in a mapping takes no sum that leaves the word. -/
theorem locateInWords_eq (h : s.Worded) (hm : m ∈ s.mappings) (offset : Nat) :
    PageList.locateInWords 0 m.pages.runs offset = .ok (m.pages.locate offset) :=
  PageList.locateInWords_eq (h.size_lt hm) (h.places m hm) offset

/-- Capturing from an address on takes no sum that leaves the word. -/
theorem captureFromInWords_eq (h : s.Worded) {found : PageList × List AllocationId} (hword : cursor + length < wordLimit)
    (hfound : PageList.Fits found.1.runs) : s.captureFromInWords cursor length found = s.captureFrom cursor length found := by
  induction length using Nat.strongRecOn generalizing cursor found with
  | ind length ih =>
    unfold captureFromInWords
    split
    · next h0 =>
      unfold captureFrom
      exact (if_pos h0).symm
    · next h0 =>
      have hat := h.tidy.ordered.mappingAtInWords_eq cursor
      split
      · next he => cases he.symm.trans hat
      · next hnone => exact (captureFrom_unmapped h0 (Except.ok.inj (hat.symm.trans hnone)) found).symm
      · next m hsome =>
        have hsome := Except.ok.inj (hat.symm.trans hsome)
        split
        · next hstate => exact (captureFrom_foreign h0 hsome hstate found).symm
        · next hstate =>
          obtain ⟨hle, hlt⟩ := Mapping.covers_iff.1 (covers_of_mappingAt hsome)
          have hm := mem_of_mappingAt hsome
          have hlimit : m.limit = m.address + m.size := rfl
          have hbelow := h.tidy.ordered.below m hm
          have hpiece : min (m.size - (cursor - m.address)) length = min (m.limit - cursor) length := by omega
          have hinside : cursor - m.address + min (m.limit - cursor) length < wordLimit := by omega
          obtain ⟨hextend, hfits⟩ := PageList.extendFromInWords_eq (h.size_lt hm) (h.places m hm) hinside hfound
          dsimp only
          rw [hpiece, word_bind (by omega), hextend, captureFrom_step h0 hsome (Decidable.not_not.1 hstate)]
          change (word (cursor + min (m.limit - cursor) length) >>= _) = _
          rw [word_bind (by omega)]
          exact ih _ (by omega) (by omega) hfits

/-- Capturing takes no sum that leaves the word but the one that it reports. -/
theorem captureInWords_eq (h : s.Worded) (address size : Nat) : s.captureInWords address size = s.capture address size := by
  unfold captureInWords capture
  split
  · rfl
  · by_cases hword : wordLimit ≤ address + size
    · rw [word_overflow hword, if_pos hword]
      rfl
    · rw [word_bind (Nat.not_le.1 hword), if_neg hword]
      exact h.captureFromInWords_eq (Nat.not_le.1 hword) fun run hr => absurd hr List.not_mem_nil

/-- Translating from an address on takes no sum that leaves the word. -/
theorem translateFromInWords_eq (h : s.Worded) {access : Access} (hword : cursor + length < wordLimit) :
    s.translateFromInWords access cursor length = s.translateFrom access cursor length := by
  induction length using Nat.strongRecOn generalizing cursor with
  | ind length ih =>
    unfold translateFromInWords
    split
    · next h0 =>
      unfold translateFrom
      exact (if_pos h0).symm
    · next h0 =>
      have hat := h.tidy.ordered.mappingAtInWords_eq cursor
      split
      · next he => cases he.symm.trans hat
      · next hnone => exact (translateFrom_unmapped h0 (Except.ok.inj (hat.symm.trans hnone))).symm
      · next m hsome =>
        have hsome := Except.ok.inj (hat.symm.trans hsome)
        split
        · next hdenied => exact (translateFrom_denied h0 hsome (by simpa using hdenied)).symm
        · next hallowed =>
          obtain ⟨hle, hlt⟩ := Mapping.covers_iff.1 (covers_of_mappingAt hsome)
          have hlimit : m.limit = m.address + m.size := rfl
          have hlocate := h.locateInWords_eq (mem_of_mappingAt hsome) (cursor - m.address)
          split
          · next he => cases he.symm.trans hlocate
          · next hnone =>
            have hnone := Except.ok.inj (hlocate.symm.trans hnone)
            obtain ⟨place, -, hplace⟩ := h.tidy.physicalAt_eq (mem_of_mappingAt hsome) (covers_of_mappingAt hsome)
            obtain ⟨physical, contiguous, hfound⟩ := PageList.exists_locateIn (List.getElem?_eq_some_iff.1 hplace).1
            cases hnone.symm.trans hfound
          · next physical contiguous hfound =>
            have hfound := Except.ok.inj (hlocate.symm.trans hfound)
            have hpositive := PageList.locateIn_pos hfound
            have hpiece : min (min contiguous (m.size - (cursor - m.address))) length =
              min (min contiguous (m.limit - cursor)) length := by omega
            dsimp only
            rw [hpiece, word_bind (by omega), ih _ (by omega) (by omega),
              translateFrom_step h0 hsome (by simpa using hallowed) hfound]

/-- Translating takes no sum that leaves the word but the one that it checks. -/
theorem translateInWords_eq (h : s.Worded) (address length : Nat) (access : Access) :
    s.translateInWords address length access = s.translate address length access := by
  unfold translateInWords translate
  split
  · rfl
  · next hword => exact h.translateFromInWords_eq (Nat.not_le.1 hword)

end Worded

/-- The operations take no sum that leaves the word, but for those that `findFree` and `capture` report. -/
structure InWords (s : AddressSpace) : Prop where
  size : ∀ m ∈ s.mappings, m.pages.sizeInWords = .ok m.size
  mappingAt : ∀ address, s.mappingAtInWords address = .ok (s.mappingAt address)
  map : ∀ m, s.mapInWords m = s.map m
  findFree : ∀ base regionSize size, s.findFreeInWords base regionSize size = s.findFree base regionSize size
  capture : ∀ address size, s.captureInWords address size = s.capture address size
  translate : ∀ address length access, s.translateInWords address length access = s.translate address length access

/-- In a tidy space over physical addresses of the word no operation takes a sum that leaves it. -/
theorem Worded.inWords (h : s.Worded) : s.InWords where
  size m hm := by rw [PageList.sizeInWords_eq (h.size_lt hm), (h.tidy.paged m hm).2]
  mappingAt := h.tidy.ordered.mappingAtInWords_eq
  map := h.tidy.ordered.mapInWords_eq
  findFree := h.tidy.ordered.findFreeInWords_eq
  capture := h.captureInWords_eq
  translate := h.translateInWords_eq

end AddressSpace

end Microkernel
