import Microkernel.Memory.Host
import Microkernel.Proofs.Machine.Tables

/-!
# The bytes of host memories

A host memory seen as its bytes. What was written lies over what was there before (`HostMemory.byteAt_storeAll`), so a range that is
read after bytes were written at its start is those bytes and, behind them, what stood there (`HostMemory.read_of_write`). Clearing a
range lays zeros over it, whether pages are given back (`HostMemory.byteAt_clear`) or zeros are written
(`HostMemory.zeroByWriting_of_fits`); the two ways differ where the range leaves the memory (`Host.clearsAlike_iff`).
-/

namespace Microkernel

open Wire (Bytes)

/-- A page of zeros holds zeros. -/
theorem get_zeroPage (i : Fin pageSize) : zeroPage.get i = 0 := Vector.getElem_replicate i.isLt

/-- A byte that is set is the one at its place, and no other changes. -/
theorem get_set (page : Page) (byte : UInt8) {i j : Nat} (hi : i < pageSize) (hj : j < pageSize) :
    (page.set i byte hi).get ⟨j, hj⟩ = if i = j then byte else page.get ⟨j, hj⟩ := Vector.getElem_set hi hj

/-- A range in the memory and the word passes the check. -/
theorem checkRange_ok {size address length : Nat} (hword : address + length < wordLimit) (hsize : address + length ≤ size) :
    checkRange size address length = .ok () := if_pos ⟨hword, hsize⟩

/-- A range that leaves the memory does not pass the check. -/
theorem checkRange_error {size address length : Nat} (hsize : size < address + length) :
    checkRange size address length = .error (.outOfRange address length) := if_neg (by omega)

namespace HostMemory

/-- A page that is not resident reads as zeros. -/
theorem byteAt_eq (m : HostMemory) (address : Nat) :
    m.byteAt address = (m.pages[address / pageSize]?.getD zeroPage).get ⟨address % pageSize, offset_lt address⟩ := by
  unfold byteAt
  cases m.pages[address / pageSize]? with
  | some page => rfl
  | none => exact (get_zeroPage _).symm

/-- A stored byte is the one at its address, and no other changes. -/
theorem byteAt_store (m : HostMemory) (address other : Nat) (byte : UInt8) :
    (m.store address byte).byteAt other = if other = address then byte else m.byteAt other := by
  rw [byteAt_eq, byteAt_eq]
  unfold store
  dsimp only
  rw [Std.TreeMap.getElem?_alter]
  simp only [compare_eq_iff]
  by_cases hpage : other / pageSize = address / pageSize
  · rw [if_pos hpage, ← hpage, Option.getD_some]
    rw [get_set]
    by_cases hoffset : address % pageSize = other % pageSize
    · have heq : other = address := by
        rw [← Nat.div_add_mod other pageSize, ← Nat.div_add_mod address pageSize, hpage, hoffset]
      rw [if_pos hoffset, if_pos heq]
    · have hne : other ≠ address := fun heq => hoffset (by rw [heq])
      rw [if_neg hoffset, if_neg hne]
  · have hne : other ≠ address := fun heq => hpage (by rw [heq])
    rw [if_neg hpage, if_neg hne]

/-- What stands at a place when bytes lie over something from an address on. -/
def overlaid (address : Nat) (bytes : Bytes) (below : Nat → UInt8) (place : Nat) : UInt8 :=
  if address ≤ place then bytes[place - address]?.getD (below place) else below place

/-- Below the bytes that lie over something nothing changes. -/
theorem overlaid_of_lt {address place : Nat} (h : place < address) (bytes : Bytes) (below : Nat → UInt8) :
    overlaid address bytes below place = below place := if_neg (Nat.not_le.2 h)

/-- Behind the bytes that lie over something nothing changes. -/
theorem overlaid_of_le {address place : Nat} {bytes : Bytes} (h : address + bytes.length ≤ place) (below : Nat → UInt8) :
    overlaid address bytes below place = below place := by
  rw [overlaid, if_pos (by omega), List.getElem?_eq_none (by omega), Option.getD_none]

theorem overlaid_nil (address : Nat) (below : Nat → UInt8) : overlaid address [] below = below := by
  funext place
  simp [overlaid]

/-- Laying two lists of bytes over something in a row lays the whole over it. -/
theorem overlaid_append (address : Nat) (first rest : Bytes) (below : Nat → UInt8) :
    overlaid address (first ++ rest) below = overlaid (address + first.length) rest (overlaid address first below) := by
  funext place
  by_cases hrest : address + first.length ≤ place
  · have hplace : place - address - first.length = place - (address + first.length) := by omega
    rw [overlaid, overlaid, if_pos (by omega), if_pos hrest, List.getElem?_append_right (by omega), hplace, overlaid_of_le hrest]
  · rw [overlaid_of_lt (Nat.not_le.1 hrest), overlaid, overlaid]
    split
    · rw [List.getElem?_append_left (by omega)]
    · rfl

/-- Zeros that lie over something show just in their range. -/
theorem overlaid_zeros (address length : Nat) (below : Nat → UInt8) (place : Nat) :
    overlaid address (Wire.zeros length) below place = if address ≤ place ∧ place < address + length then 0 else below place := by
  by_cases hin : address ≤ place ∧ place < address + length
  · rw [if_pos hin, overlaid, if_pos hin.1, Wire.zeros, List.getElem?_replicate_of_lt (by omega), Option.getD_some]
  · rw [if_neg hin]
    by_cases hle : address ≤ place
    · exact overlaid_of_le (by rw [Wire.length_zeros]; omega) _
    · exact overlaid_of_lt (Nat.not_le.1 hle) _ _

/-- Storing two lists of bytes in a row stores the whole. -/
theorem storeAll_append (m : HostMemory) (address : Nat) (first rest : Bytes) :
    m.storeAll address (first ++ rest) = (m.storeAll address first).storeAll (address + first.length) rest := by
  induction first generalizing m address with
  | nil => rfl
  | cons byte first ih =>
    rw [List.cons_append, storeAll, storeAll, ih, List.length_cons, Nat.add_assoc, Nat.add_comm 1]

theorem size_storeAll (m : HostMemory) (address : Nat) (bytes : Bytes) : (m.storeAll address bytes).size = m.size := by
  induction bytes generalizing m address with
  | nil => rfl
  | cons byte rest ih => exact ih _ _

/-- Bytes stored one behind the other lie over what was there. -/
theorem byteAt_storeAll (m : HostMemory) (address : Nat) (bytes : Bytes) :
    (m.storeAll address bytes).byteAt = overlaid address bytes m.byteAt := by
  induction bytes generalizing m address with
  | nil => rw [overlaid_nil, storeAll]
  | cons byte rest ih =>
    have hfirst : (m.store address byte).byteAt = overlaid address [byte] m.byteAt := by
      funext place
      rw [byteAt_store, overlaid]
      split
      · next heq => simp [heq]
      · next hne =>
        split
        · rw [List.getElem?_eq_none (by rw [List.length_singleton]; omega), Option.getD_none]
        · rfl
    rw [storeAll, ih, hfirst]
    exact (overlaid_append address [byte] rest m.byteAt).symm

/-- The bytes from an address on. -/
def bytesFrom (m : HostMemory) (address length : Nat) : Bytes := (List.range length).map fun i => m.byteAt (address + i)

/-- The bytes of a range are its first byte and the bytes behind that. -/
theorem bytesFrom_succ (m : HostMemory) (address length : Nat) :
    m.bytesFrom address (length + 1) = m.byteAt address :: m.bytesFrom (address + 1) length := by
  unfold bytesFrom
  rw [List.range_succ_eq_map, List.map_cons, List.map_map]
  refine congrArg _ (List.map_congr_left fun i _ => ?_)
  rw [Function.comp_apply, Nat.add_assoc, Nat.add_comm 1 i]

/-- What was there before a write is left behind what was written. -/
theorem bytesFrom_storeAll (m : HostMemory) (address length : Nat) (bytes : Bytes) (h : bytes.length ≤ length) :
    (m.storeAll address bytes).bytesFrom address length = bytes ++ (m.bytesFrom address length).drop bytes.length := by
  induction bytes generalizing m address length with
  | nil => rfl
  | cons byte rest ih =>
    obtain ⟨n, rfl⟩ := Nat.exists_eq_add_one_of_ne_zero (Nat.ne_of_gt (Nat.lt_of_lt_of_le (Nat.succ_pos _) h))
    have htail : (m.store address byte).bytesFrom (address + 1) n = m.bytesFrom (address + 1) n := by
      refine List.map_congr_left fun i _ => ?_
      rw [byteAt_store, if_neg (by omega)]
    rw [storeAll, bytesFrom_succ, byteAt_storeAll, overlaid_of_lt (Nat.lt_succ_self _), byteAt_store, if_pos rfl,
      ih _ _ _ (Nat.le_of_succ_le_succ h), htail, bytesFrom_succ]
    rfl

/-- A read answers the bytes of the range just if the range passes the check. -/
theorem read_eq_ok_iff {m : HostMemory} {address length : Nat} {bytes : Bytes} :
    m.read address length = .ok bytes ↔ checkRange m.size address length = .ok () ∧ m.bytesFrom address length = bytes := by
  unfold read
  cases checkRange m.size address length with
  | ok u => simp [bind, Except.bind, pure, Except.pure, bytesFrom]
  | error e => simp [bind, Except.bind]

/-- A write stores its bytes just if the range passes the check. -/
theorem write_eq_ok_iff {m written : HostMemory} {address : Nat} {bytes : Bytes} :
    m.write address bytes = .ok written ↔
      checkRange m.size address bytes.length = .ok () ∧ m.storeAll address bytes = written := by
  unfold write
  cases checkRange m.size address bytes.length with
  | ok u => simp [bind, Except.bind, pure, Except.pure]
  | error e => simp [bind, Except.bind]

/-- A read fails with the error of the check. -/
theorem read_of_refused {m : HostMemory} {address length : Nat} {e : HostError} (h : checkRange m.size address length = .error e) :
    m.read address length = .error e := by
  rw [read, h]
  rfl

/-- A write fails with the error of the check. -/
theorem write_of_refused {m : HostMemory} {address : Nat} {bytes : Bytes} {e : HostError}
    (h : checkRange m.size address bytes.length = .error e) : m.write address bytes = .error e := by
  rw [write, h]
  rfl

/-- A range at whose start something was written. -/
theorem read_of_write {m written : HostMemory} {address length : Nat} {bytes buffer : Bytes} (h : bytes.length ≤ length)
    (hwrite : m.write address bytes = .ok written) (hread : written.read address length = .ok buffer) :
    buffer = bytes ++ (m.bytesFrom address length).drop bytes.length := by
  obtain ⟨-, rfl⟩ := write_eq_ok_iff.1 hwrite
  obtain ⟨-, rfl⟩ := read_eq_ok_iff.1 hread
  exact bytesFrom_storeAll m address length bytes h

/-! ## Clearing -/

/-- Clearing a part of a page puts zeros there and leaves the rest. -/
theorem get_scrub (address length number : Nat) (page : Page) {i : Nat} (hi : i < pageSize) :
    ((scrub address length number page).getD zeroPage).get ⟨i, hi⟩ =
      if address ≤ number * pageSize + i ∧ number * pageSize + i < address + length then 0 else page.get ⟨i, hi⟩ := by
  unfold scrub
  dsimp only
  split
  · rw [if_neg (by omega), Option.getD_some]
  · split
    · rw [if_pos (by omega), Option.getD_none, get_zeroPage]
    · exact Vector.getElem_mapIdx _

/-- Zeros lie over a range that is cleared. -/
theorem byteAt_clear (m : HostMemory) (address length : Nat) :
    byteAt { m with pages := m.pages.filterMap (scrub address length) } = overlaid address (Wire.zeros length) m.byteAt := by
  funext place
  have hplace : place / pageSize * pageSize + place % pageSize = place := Nat.div_add_mod' place pageSize
  rw [overlaid_zeros, byteAt_eq, byteAt_eq, Std.TreeMap.getElem?_filterMap']
  cases m.pages[place / pageSize]? with
  | none => simp [get_zeroPage]
  | some page =>
    rw [Option.bind_some, get_scrub, hplace]
    rfl

/-- A clearing drops the pages in the range and scrubs the others just if the range passes the check. -/
theorem zero_eq_ok_iff {m cleared : HostMemory} {address length : Nat} :
    m.zero address length = .ok cleared ↔
      checkRange m.size address length = .ok () ∧ { m with pages := m.pages.filterMap (scrub address length) } = cleared := by
  unfold zero
  cases checkRange m.size address length with
  | ok u => simp [bind, Except.bind, pure, Except.pure]
  | error e => simp [bind, Except.bind]

/-- A clearing fails with the error of the check. -/
theorem zero_of_refused {m : HostMemory} {address length : Nat} {e : HostError} (h : checkRange m.size address length = .error e) :
    m.zero address length = .error e := by
  rw [zero, h]
  rfl

/-- A write in the memory and the word stores its bytes. -/
theorem write_of_fits (m : HostMemory) (address : Nat) (bytes : Bytes) (hword : address + bytes.length < wordLimit)
    (hsize : address + bytes.length ≤ m.size) : m.write address bytes = .ok (m.storeAll address bytes) :=
  write_eq_ok_iff.2 ⟨checkRange_ok hword hsize, rfl⟩

/-- A write that leaves the memory is refused. -/
theorem write_of_leaves (m : HostMemory) {address : Nat} {bytes : Bytes} (hsize : m.size < address + bytes.length) :
    m.write address bytes = .error (.outOfRange address bytes.length) := write_of_refused (checkRange_error hsize)

/-- Storing zeros in two ranges that adjoin stores them in both as one. -/
theorem storeAll_zeros_add (m : HostMemory) (address first rest : Nat) :
    m.storeAll address (Wire.zeros (first + rest)) =
      (m.storeAll address (Wire.zeros first)).storeAll (address + first) (Wire.zeros rest) := by
  have hzeros : Wire.zeros (first + rest) = Wire.zeros first ++ Wire.zeros rest := (List.replicate_append_replicate ..).symm
  rw [hzeros, storeAll_append, Wire.length_zeros]

/-- Writing zeros page by page clears a range of the memory. -/
theorem zeroByWriting_of_fits (m : HostMemory) (address : Nat) {length : Nat} (hword : address + length < wordLimit)
    (hsize : address + length ≤ m.size) :
    m.zeroByWriting address length = (m.storeAll address (Wire.zeros length), .ok ()) := by
  induction length using Nat.strongRecOn generalizing m address with
  | ind length ih =>
    unfold zeroByWriting
    split
    · next h0 => rw [h0]; rfl
    · have hpage : pageSize = 4096 := rfl
      have hwrite := m.write_of_fits address (Wire.zeros (min length pageSize))
      rw [Wire.length_zeros] at hwrite
      have hrest := ih (length - min length pageSize) (by omega) (m.storeAll address (Wire.zeros (min length pageSize)))
        (address + min length pageSize) (by omega) (by rw [size_storeAll]; omega)
      dsimp only
      rw [hwrite (by omega) (by omega)]
      dsimp only
      rw [hrest, ← storeAll_zeros_add, Nat.add_sub_cancel' (Nat.min_le_left _ _)]

/-- How many bytes from an address on fill whole pages, counted from there, before the memory ends. -/
def wholePages (size address : Nat) : Nat := (size - address) / pageSize * pageSize

/-- Where a page of the memory is left from an address on, the whole pages begin with it. -/
theorem wholePages_of_le {size address : Nat} (h : address + pageSize ≤ size) :
    pageSize + wholePages size (address + pageSize) = wholePages size address := by
  have hpage : pageSize = 4096 := rfl
  simp only [wholePages, hpage] at *
  omega

/-- Where less than a page of the memory is left from an address on, there are no whole pages. -/
theorem wholePages_of_lt {size address : Nat} (h : size < address + pageSize) : wholePages size address = 0 := by
  have hpos : 0 < pageSize := by decide
  rw [wholePages, Nat.div_eq_of_lt (by omega), Nat.zero_mul]

/-- Where the range leaves the memory, the pages before the limit are cleared until a write fails. -/
theorem zeroByWriting_of_leaves (m : HostMemory) (address : Nat) {length : Nat} (hpos : 0 < length) (hsize : m.size < address + length)
    (hword : m.size < wordLimit) :
    m.zeroByWriting address length = (m.storeAll address (Wire.zeros (wholePages m.size address)),
      .error (.outOfRange (address + wholePages m.size address) (min (length - wholePages m.size address) pageSize))) := by
  have hpage : pageSize = 4096 := rfl
  induction length using Nat.strongRecOn generalizing m address with
  | ind length ih =>
    unfold zeroByWriting
    rw [if_neg (by omega)]
    by_cases hfirst : address + pageSize ≤ m.size
    · have hchunk : min length pageSize = pageSize := by omega
      have hwrite := m.write_of_fits address (Wire.zeros pageSize)
      rw [Wire.length_zeros] at hwrite
      have hrest := ih (length - pageSize) (by omega) (m.storeAll address (Wire.zeros pageSize)) (address + pageSize)
        (by omega) (by rw [size_storeAll]; omega) (by rw [size_storeAll]; omega)
      rw [size_storeAll, ← storeAll_zeros_add, wholePages_of_le hfirst, Nat.add_assoc, wholePages_of_le hfirst, Nat.sub_sub,
        wholePages_of_le hfirst] at hrest
      dsimp only
      rw [hchunk, hwrite (by omega) hfirst]
      exact hrest
    · dsimp only
      rw [wholePages_of_lt (by omega), write_of_leaves _ (by rw [Wire.length_zeros]; omega), Wire.length_zeros]
      rfl

end HostMemory

/-! ## Two ways of clearing -/

namespace Host

open HostMemory (overlaid wholePages)

/-- Clears a range in one of the two ways, whichever this host has. -/
def zeroBy (h : Host) (mode : ZeroingMode) (address length : Nat) : Host × Except HostError Unit :=
  { h with zeroing := mode }.zero address length

/-- A host clears in its own way when it is asked to clear. -/
theorem zeroBy_self (h : Host) (address length : Nat) : h.zeroBy h.zeroing address length = h.zero address length := rfl

/-- The two ways of clearing a range agree: both succeed or both fail, and they leave the same bytes. -/
structure ClearsAlike (h : Host) (address length : Nat) : Prop where
  succeeds : (h.zeroBy .writing address length).2 = .ok () ↔ (h.zeroBy .releasing address length).2 = .ok ()
  bytes : (h.zeroBy .writing address length).1.memory.byteAt = (h.zeroBy .releasing address length).1.memory.byteAt

variable {h : Host} {address length : Nat}

/-- A range of the memory is cleared either way. -/
theorem zeroBy_of_fits (mode : ZeroingMode) (hword : address + length < wordLimit) (hsize : address + length ≤ h.memory.size) :
    (h.zeroBy mode address length).2 = .ok () ∧
      (h.zeroBy mode address length).1.memory.byteAt = overlaid address (Wire.zeros length) h.memory.byteAt ∧
      (h.zeroBy mode address length).1.memory.size = h.memory.size := by
  cases mode with
  | releasing =>
    have hzero := HostMemory.zero_eq_ok_iff.2 ⟨checkRange_ok hword hsize, rfl⟩
    simp only [zeroBy, zero, hzero]
    exact ⟨trivial, HostMemory.byteAt_clear _ _ _, trivial⟩
  | writing =>
    simp only [zeroBy, zero, HostMemory.zeroByWriting_of_fits h.memory address hword hsize]
    exact ⟨trivial, HostMemory.byteAt_storeAll _ _ _, HostMemory.size_storeAll _ _ _⟩

/-- A range that leaves the memory is refused before a page is given back. -/
theorem zeroBy_releasing_of_leaves (hsize : h.memory.size < address + length) :
    (h.zeroBy .releasing address length).2 = .error (.outOfRange address length) ∧
      (h.zeroBy .releasing address length).1.memory = h.memory := by
  have hzero := HostMemory.zero_of_refused (checkRange_error hsize)
  simp only [zeroBy, zero, hzero]
  exact ⟨trivial, trivial⟩

/-- Zeros are written from the start of a range that leaves the memory, as many pages as fit, before a write fails. -/
theorem zeroBy_writing_of_leaves (hpos : 0 < length) (hsize : h.memory.size < address + length) (hword : h.memory.size < wordLimit) :
    (∃ e, (h.zeroBy .writing address length).2 = .error e) ∧
      (h.zeroBy .writing address length).1.memory.byteAt =
        overlaid address (Wire.zeros (wholePages h.memory.size address)) h.memory.byteAt := by
  simp only [zeroBy, zero, HostMemory.zeroByWriting_of_leaves h.memory address hpos hsize hword]
  exact ⟨⟨_, rfl⟩, HostMemory.byteAt_storeAll _ _ _⟩

/-- Clearing nothing by writing succeeds and leaves the memory. -/
theorem zeroBy_writing_zero (h : Host) (address : Nat) :
    (h.zeroBy .writing address 0).2 = .ok () ∧ (h.zeroBy .writing address 0).1.memory = h.memory := by
  simp only [zeroBy, zero]
  rw [HostMemory.zeroByWriting, if_pos rfl]
  exact ⟨rfl, rfl⟩

/-- The two ways agree exactly if the range lies in the memory, or it is not empty and the whole pages that are written before the
limit is noticed held zeros anyway. Both clear a range of the memory. One that leaves the memory is refused if pages are given back, and
then no byte changes; if zeros are written it fails only where there is something to write, and behind the pages that fit. -/
theorem clearsAlike_iff (h : Host) (address length : Nat) (hword : h.memory.size < wordLimit) :
    (h.ClearsAlike address length ↔
      (length = 0 → address ≤ h.memory.size) ∧
      (h.memory.size < address + length →
        ∀ place, address ≤ place → place < address + wholePages h.memory.size address → h.memory.byteAt place = 0)) ∧
    (address + length ≤ h.memory.size → ∀ mode,
      (h.zeroBy mode address length).2 = .ok () ∧
      ∀ place, (h.zeroBy mode address length).1.memory.byteAt place =
        if address ≤ place ∧ place < address + length then 0 else h.memory.byteAt place) ∧
    (h.memory.size < address + length →
      (h.zeroBy .releasing address length).2 = .error (.outOfRange address length) ∧
      (h.zeroBy .releasing address length).1.memory = h.memory ∧
      ((h.zeroBy .writing address length).2 = .ok () ↔ length = 0)) := by
  by_cases hsize : address + length ≤ h.memory.size
  · have hclears (mode : ZeroingMode) := zeroBy_of_fits (h := h) mode (Nat.lt_of_le_of_lt hsize hword) hsize
    refine ⟨iff_of_true ?_ ⟨fun _ => by omega, fun hlt => absurd hsize (Nat.not_le.2 hlt)⟩,
      fun _ mode => ⟨(hclears mode).1, fun place => ?_⟩,
      fun hlt => absurd hsize (Nat.not_le.2 hlt)⟩
    · exact ⟨iff_of_true (hclears _).1 (hclears _).1, (hclears _).2.1.trans (hclears _).2.1.symm⟩
    · rw [(hclears mode).2.1, HostMemory.overlaid_zeros]
  · rw [Nat.not_le] at hsize
    obtain ⟨hrefused, hkept⟩ := zeroBy_releasing_of_leaves hsize
    by_cases hpos : length = 0
    · subst hpos
      obtain ⟨hdone, -⟩ := zeroBy_writing_zero h address
      refine ⟨iff_of_false (fun halike => ?_) fun hzero => ?_, fun hle => absurd hle (Nat.not_le.2 hsize), fun _ =>
        ⟨hrefused, hkept, iff_of_true hdone rfl⟩⟩
      · cases hrefused.symm.trans (halike.succeeds.1 hdone)
      · exact absurd (hzero.1 rfl) (Nat.not_le.2 hsize)
    · obtain ⟨⟨e, hfails⟩, hover⟩ := zeroBy_writing_of_leaves (Nat.pos_of_ne_zero hpos) hsize hword
      have hnot : ¬ (h.zeroBy .writing address length).2 = .ok () := by
        rw [hfails]
        nofun
      have hnot' : ¬ (h.zeroBy .releasing address length).2 = .ok () := by
        rw [hrefused]
        nofun
      refine ⟨⟨fun halike => ⟨fun h0 => absurd h0 hpos, fun _ place hle hlt => ?_⟩,
        fun ⟨_, hzero⟩ => ⟨iff_of_false hnot hnot', ?_⟩⟩,
        fun hle => absurd hle (Nat.not_le.2 hsize), fun _ => ⟨hrefused, hkept, iff_of_false hnot hpos⟩⟩
      · have hbyte := congrFun (hover.symm.trans halike.bytes) place
        rw [hkept, HostMemory.overlaid_zeros, if_pos ⟨hle, hlt⟩] at hbyte
        exact hbyte.symm
      · funext place
        rw [hover, hkept, HostMemory.overlaid_zeros]
        split
        · next hin => exact (hzero hsize place hin.1 hin.2).symm
        · rfl

/-- A host whose memory is one page with a byte that is not zero at its start. -/
def stained : Host := { memory := (HostMemory.new pageSize).storeAll 0 [0xAA] }

/-- The stained memory is one page. -/
theorem stained_size : stained.memory.size = pageSize := HostMemory.size_storeAll _ _ _

/-- The stained memory begins with a byte that is not zero. -/
theorem stained_byteAt : stained.memory.byteAt 0 = 0xAA := by
  rw [stained, HostMemory.byteAt_storeAll]
  rfl

/-- The ways agree on a range that leaves the memory before a page is full, and not on one that leaves it behind a page in use. -/
theorem clearsAlike_iff_stained :
    stained.memory.size < wordLimit ∧ stained.ClearsAlike 0x10 0x1000 ∧ ¬ stained.ClearsAlike 0 0x1001 := by
  have hword : stained.memory.size < wordLimit := by
    rw [stained_size]
    decide
  refine ⟨hword, ?_, fun halike => ?_⟩
  · refine ((clearsAlike_iff stained 0x10 0x1000 hword).1).2 ⟨nofun, fun _ place hle hlt => ?_⟩
    rw [stained_size] at hlt
    exact absurd hlt (Nat.not_lt.2 hle)
  · have hzero := ((clearsAlike_iff stained 0 0x1001 hword).1.1 halike).2 (by rw [stained_size]; decide) 0 (Nat.le_refl 0)
      (by rw [stained_size]; decide)
    rw [stained_byteAt] at hzero
    cases hzero

/-- Clearing one byte more than a page by writing zeros fails and loses the byte, which stays where pages are given back; and an empty
range behind the memory is cleared in one way and refused in the other. -/
theorem clearsAlike_false :
    (stained.zeroBy .writing 0 0x1001).1.memory.byteAt 0 = 0 ∧ (stained.zeroBy .releasing 0 0x1001).1.memory.byteAt 0 = 0xAA ∧
      (∀ mode, (stained.zeroBy mode 0 0x1001).2 ≠ .ok ()) ∧ ¬ stained.ClearsAlike 0 0x1001 ∧ ¬ stained.ClearsAlike 0x1001 0 := by
  have hword : stained.memory.size < wordLimit := by
    rw [stained_size]
    decide
  have hsize : stained.memory.size < 0 + 0x1001 := by
    rw [stained_size]
    decide
  obtain ⟨⟨e, hfails⟩, hover⟩ := zeroBy_writing_of_leaves (by decide) hsize hword
  obtain ⟨hrefused, hkept⟩ := zeroBy_releasing_of_leaves hsize
  have hlost : (stained.zeroBy .writing 0 0x1001).1.memory.byteAt 0 = 0 := by
    rw [hover, stained_size]
    rfl
  have hstays : (stained.zeroBy .releasing 0 0x1001).1.memory.byteAt 0 = 0xAA := by rw [hkept, stained_byteAt]
  refine ⟨hlost, hstays, fun mode => ?_, fun halike => ?_, fun halike => ?_⟩
  · cases mode with
    | writing => rw [hfails]; nofun
    | releasing => rw [hrefused]; nofun
  · have hbyte := congrFun halike.bytes 0
    rw [hlost, hstays] at hbyte
    cases hbyte
  · have hbehind : stained.memory.size < 0x1001 + 0 := hsize
    cases (zeroBy_releasing_of_leaves hbehind).1.symm.trans (halike.succeeds.1 (zeroBy_writing_zero stained 0x1001).1)

end Host

end Microkernel
