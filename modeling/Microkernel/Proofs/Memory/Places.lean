import Mathlib.Data.List.Nodup
import Mathlib.Data.List.Perm.Subperm
import Microkernel.Proofs.Memory.HostBytes
import Microkernel.Proofs.Memory.Pages

/-!
# The places behind page lists

A page list byte by byte: its places are the physical addresses of its bytes, in order. Locating, cutting a range into pieces and
appending runs are operations on places (`PageList.locateIn_places`, `PageList.chunks_ok`, `PageList.extendFrom_places`). A range of a
list is read from its places and written to them (`PageList.read_ok`, `PageList.write_ok`). When no place occurs twice, bytes that are
put anywhere change the contents of the list where they land among its places (`HostMemory.bytesAt_put`).
-/

namespace Microkernel

open Wire (Bytes)

/-! ## Lists in pieces -/

/-- The elements of a list from an offset on. -/
def slice {α : Type} (l : List α) (offset length : Nat) : List α := (l.drop offset).take length

section

variable {α β : Type} {l : List α} {offset length : Nat}

/-- A range that ends in a list is as long as it says. -/
theorem length_slice (h : offset + length ≤ l.length) : (slice l offset length).length = length := by
  rw [slice, List.length_take, List.length_drop]
  omega

/-- Mapping over a range is the range of the mapped list. -/
theorem map_slice (f : α → β) (l : List α) (offset length : Nat) : (slice l offset length).map f = slice (l.map f) offset length := by
  rw [slice, slice, List.map_take, List.map_drop]

/-- A range is cut into two ranges that adjoin. -/
theorem slice_add (l : List α) (offset n m : Nat) : slice l offset (n + m) = slice l offset n ++ slice l (offset + n) m := by
  rw [slice, List.take_add, List.drop_drop]
  rfl

/-- The elements of a range are those of the list behind its offset. -/
theorem getElem?_slice (l : List α) (offset : Nat) {i length : Nat} (h : i < length) : (slice l offset length)[i]? = l[offset + i]? := by
  rw [slice, List.getElem?_take, if_pos h, List.getElem?_drop]

/-- The elements of a range are elements of the list. -/
theorem mem_of_mem_slice {a : α} (h : a ∈ slice l offset length) : a ∈ l := List.mem_of_mem_drop (List.mem_of_mem_take h)

/-- The front of a range is the shorter range. -/
theorem take_slice (l : List α) (offset : Nat) {n m : Nat} (h : n ≤ m) : (slice l offset m).take n = slice l offset n := by
  rw [slice, List.take_take, Nat.min_eq_left h]
  rfl

/-- What maps to nothing but results is filtered to those results. -/
theorem filterMap_of_map {f : α → Option β} {l' : List β} (h : l.map f = l'.map some) : l.filterMap f = l' := by
  calc l.filterMap f = (l.map f).filterMap id := by rw [List.filterMap_map]; rfl
    _ = l' := by rw [h, List.filterMap_map]; exact List.filterMap_some

end

/-! ## Stores -/

/-- Where among places stores of single bytes land: offset and byte, in the order of the stores. -/
def landed (places : List Nat) (stores : List (Nat × UInt8)) : List (Nat × UInt8) :=
  (stores.filter (·.1 ∈ places)).map fun store => (places.idxOf store.1, store.2)

/-- Contents after writes of single bytes at offsets, one after the other. -/
def replay (contents : Bytes) (writes : List (Nat × UInt8)) : Bytes :=
  writes.foldl (fun contents write => contents.set write.1 write.2) contents

/-- What is stored at a slice of places lands at its offsets. -/
theorem landed_slice {places : List Nat} {offset : Nat} {bytes : Bytes} (hn : places.Nodup)
    (h : offset + bytes.length ≤ places.length) :
    landed places ((slice places offset bytes.length).zip bytes) = (List.range' offset bytes.length).zip bytes := by
  have hlength := length_slice h
  have hall : ((slice places offset bytes.length).zip bytes).filter (·.1 ∈ places) = (slice places offset bytes.length).zip bytes :=
    List.filter_eq_self.2 fun store hs => decide_eq_true (mem_of_mem_slice (List.of_mem_zip hs).1)
  have hoffsets : (slice places offset bytes.length).map places.idxOf = List.range' offset bytes.length := by
    refine List.ext_getElem (by rw [List.length_map, hlength, List.length_range']) fun i hi hi' => ?_
    have hlt : i < bytes.length := by rwa [List.length_range'] at hi'
    have hat := getElem?_slice places offset hlt
    rw [List.getElem?_eq_getElem (by omega), List.getElem?_eq_getElem (by omega)] at hat
    rw [List.getElem_map, Option.some.inj hat, hn.idxOf_getElem, List.getElem_range', Nat.one_mul]
  rw [landed, hall, ← hoffsets, List.zip_map_left]
  rfl

/-! ## Runs and page lists -/

/-- The addresses of the bytes of a run. -/
def PageRun.places (r : PageRun) : List Nat := List.range' r.address r.size

namespace PageList

/-- The addresses of the bytes that runs stand for. -/
def placesOf (runs : List PageRun) : List Nat := runs.flatMap PageRun.places

/-- The addresses of the bytes of the list. -/
def places (l : PageList) : List Nat := placesOf l.runs

/-- The places of runs are those of the first and those of the others behind. -/
theorem placesOf_cons (run : PageRun) (rest : List PageRun) : placesOf (run :: rest) = run.places ++ placesOf rest :=
  List.flatMap_cons

/-- A list has as many places as its size. -/
theorem length_places (l : PageList) : l.places.length = l.size := by
  unfold places placesOf size pageCount
  induction l.runs with
  | nil => simp [total]
  | cons run rest ih =>
    rw [List.flatMap_cons, List.length_append, ih, PageRun.places, List.length_range', total, Nat.add_mul]
    rfl

/-- A run is two runs one behind the other. -/
theorem places_add (address n m : Nat) : (PageRun.mk address (n + m)).places =
    (PageRun.mk address n).places ++ (PageRun.mk (address + n * pageSize) m).places := by
  simp only [PageRun.places, PageRun.size, Nat.add_mul]
  rw [← List.range'_append_1]

/-- Appending a run appends its places, whether it is merged or not. -/
theorem appendRun_places (run : PageRun) (runs : List PageRun) : placesOf (appendRun run runs) = placesOf runs ++ run.places := by
  fun_induction appendRun run runs with
  | case1 => simp [placesOf]
  | case2 last h =>
    simp only [placesOf, List.flatMap_cons, List.flatMap_nil, List.append_nil]
    rw [places_add]
    congr 2
    exact congrArg (PageRun.mk · run.pages) h
  | case3 last h => simp [placesOf]
  | case4 first next rest ih =>
    rw [placesOf_cons, ih, ← List.append_assoc]
    rfl

/-- Adding pages appends their places. -/
theorem addRun_places (l : PageList) (address n : Nat) :
    (l.addRun address n).places = l.places ++ List.range' address (n * pageSize) := by
  unfold addRun
  split
  · next h =>
    subst h
    simp
  · exact appendRun_places _ _

/-- The places of a list are those of its pages. -/
theorem places_eq (l : PageList) : l.places = l.pages.flatMap (List.range' · pageSize) := by
  have hrun (r : PageRun) : r.places = r.toList.flatMap (List.range' · pageSize) := by
    obtain ⟨address, n⟩ := r
    induction n with
    | zero => simp [PageRun.places, PageRun.size, PageRun.toList]
    | succ n ih =>
      rw [places_add, PageRun.toList_add, List.flatMap_append, ih]
      simp [PageRun.places, PageRun.size, PageRun.toList]
  rw [places, placesOf, pages, List.flatMap_assoc]
  exact List.flatMap_congr fun r _ => hrun r

/-- The places of a list are those in its pages. -/
theorem mem_places {l : PageList} {place : Nat} : place ∈ l.places ↔ ∃ page ∈ l.pages, page ≤ place ∧ place < page + pageSize := by
  simp only [places_eq, List.mem_flatMap, List.mem_range'_1]

/-- A place belongs to the page that its address says. -/
theorem eq_of_mem_page {page place : Nat} (ha : pageSize ∣ page) (hle : page ≤ place) (hlt : place < page + pageSize) :
    page = place / pageSize * pageSize := by
  obtain ⟨n, rfl⟩ := ha
  simp only [pageSize] at hle hlt ⊢
  omega

/-- Pages none of which is named twice have no place twice. -/
theorem nodup_places {l : PageList} (ha : ∀ page ∈ l.pages, pageSize ∣ page) (hn : l.pages.Nodup) : l.places.Nodup := by
  rw [places_eq, List.nodup_flatMap]
  refine ⟨fun page _ => List.nodup_range', hn.imp_of_mem fun hp hp' hne place hin hin' => hne ?_⟩
  obtain ⟨hle, hlt⟩ := List.mem_range'_1.1 hin
  obtain ⟨hle', hlt'⟩ := List.mem_range'_1.1 hin'
  rw [eq_of_mem_page (ha _ hp) hle hlt, eq_of_mem_page (ha _ hp') hle' hlt']

/-- What is located are consecutive places of the list. -/
theorem locateIn_places {runs : List PageRun} {offset address contiguous : Nat}
    (h : locateIn runs offset = some (address, contiguous)) :
    offset + contiguous ≤ (placesOf runs).length ∧ slice (placesOf runs) offset contiguous = List.range' address contiguous := by
  induction runs generalizing offset with
  | nil => cases h
  | cons run rest ih =>
    have hlength : run.places.length = run.size := List.length_range'
    unfold locateIn at h
    rw [placesOf_cons]
    split at h
    · next hlt =>
      obtain ⟨rfl, rfl⟩ := Prod.mk.inj (Option.some.inj h)
      refine ⟨by rw [List.length_append]; omega, ?_⟩
      rw [slice, List.drop_append_of_le_length (by omega), List.take_append_of_le_length (by rw [List.length_drop]; omega),
        List.take_of_length_le (by rw [List.length_drop]; omega), PageRun.places, List.drop_range', Nat.mul_one]
    · next hge =>
      obtain ⟨hle, hslice⟩ := ih h
      refine ⟨by rw [List.length_append]; omega, ?_⟩
      rw [slice, List.drop_append, List.drop_eq_nil_of_le (by omega), List.nil_append, hlength]
      exact hslice

/-- Further on in the same run. -/
theorem locateIn_add {runs : List PageRun} {offset address contiguous n : Nat} (h : locateIn runs offset = some (address, contiguous))
    (hn : n < contiguous) : locateIn runs (offset + n) = some (address + n, contiguous - n) := by
  induction runs generalizing offset with
  | nil => cases h
  | cons run rest ih =>
    unfold locateIn at h ⊢
    split at h
    · next hlt =>
      obtain ⟨rfl, rfl⟩ := Prod.mk.inj (Option.some.inj h)
      rw [if_pos (by omega), Nat.add_assoc, Nat.sub_sub]
    · next hge => rw [if_neg (by omega), Nat.sub_add_comm (by omega), ih h]

/-- What is located is the place at the offset. -/
theorem getElem?_places {l : PageList} {offset address contiguous : Nat} (h : l.locate offset = some (address, contiguous)) :
    l.places[offset]? = some address := by
  obtain ⟨-, hslice⟩ := locateIn_places h
  have hat := getElem?_slice l.places offset (locateIn_pos h)
  rw [Nat.add_zero] at hat
  rw [← hat, places, hslice, List.getElem?_range' (locateIn_pos h), Nat.mul_zero, Nat.add_zero]

/-- Every offset in the list is located. -/
theorem exists_locateIn {runs : List PageRun} {offset : Nat} (h : offset < (placesOf runs).length) :
    ∃ address contiguous, locateIn runs offset = some (address, contiguous) := by
  induction runs generalizing offset with
  | nil => cases h
  | cons run rest ih =>
    unfold locateIn
    split
    · exact ⟨_, _, rfl⟩
    · refine ih ?_
      have hlength : run.places.length = run.size := List.length_range'
      rw [placesOf_cons, List.length_append] at h
      omega

/-- At page borders, what is appended from another list are places of that list. -/
theorem extendFrom_places {l other : PageList} {offset size : Nat} (ho : pageSize ∣ offset) (hs : pageSize ∣ size)
    (h : offset + size ≤ other.size) : (l.extendFrom other offset size).places = l.places ++ slice other.places offset size := by
  induction l, offset, size using extendFrom.induct other with
  | case1 l offset =>
    unfold extendFrom
    simp [slice]
  | case2 l offset size h0 hnone =>
    have hlength : (placesOf other.runs).length = other.size := other.length_places
    obtain ⟨address, contiguous, hsome⟩ := exists_locateIn (hlength ▸ (by omega : offset < other.size))
    cases hnone.symm.trans hsome
  | case3 l offset size h0 address contiguous hsome length ih =>
    have hpiece : pageSize ∣ length := by
      change pageSize ∣ min contiguous size
      rw [Nat.min_def]
      split
      · exact (locateIn_pages ho hsome).1
      · exact hs
    have hlength : length ≤ size := Nat.min_le_right _ _
    obtain ⟨hle, hslice⟩ := locateIn_places hsome
    have hfirst : slice other.places offset length = List.range' address length := by
      have hcontiguous : length ≤ contiguous := Nat.min_le_left _ _
      rw [← take_slice _ _ hcontiguous, ← List.take_range'_of_length_ge hcontiguous]
      exact congrArg (List.take length) hslice
    unfold extendFrom
    rw [if_neg h0]
    split
    · next hnone => cases hnone.symm.trans hsome
    · next address' contiguous' hsome' =>
      obtain ⟨rfl, rfl⟩ := Prod.mk.inj (Option.some.inj (hsome.symm.trans hsome'))
      rw [ih (Nat.dvd_add ho hpiece) (Nat.dvd_sub hs hpiece) (by omega), addRun_places, Nat.div_mul_cancel hpiece, ← hfirst,
        List.append_assoc, ← slice_add, Nat.add_sub_cancel' hlength]

end PageList

/-! ## Pieces -/

/-- The pieces are not empty and make up the places. -/
structure Cuts (pieces : List (Nat × Nat)) (places : List Nat) : Prop where
  positive : ∀ piece ∈ pieces, 0 < piece.2
  places : (pieces.flatMap fun piece => List.range' piece.1 piece.2) = places

namespace Cuts

/-- No pieces make up no places. -/
theorem nil : Cuts [] [] := ⟨fun _ h => (nomatch h), rfl⟩

/-- A piece in front of pieces puts its places in front of theirs. -/
theorem cons (address : Nat) {length : Nat} {pieces : List (Nat × Nat)} {places : List Nat} (hl : 0 < length) (h : Cuts pieces places) :
    Cuts ((address, length) :: pieces) (List.range' address length ++ places) := by
  refine ⟨fun piece hp => ?_, by rw [List.flatMap_cons, h.places]⟩
  rcases List.mem_cons.1 hp with rfl | hp
  · exact hl
  · exact h.positive piece hp

end Cuts

/-- A range of a list can be cut into pieces. -/
theorem PageList.chunks_ok (l : PageList) {offset length : Nat} (h : offset + length ≤ l.size) :
    ∃ pieces, l.chunks offset length = .ok pieces ∧ Cuts pieces (slice l.places offset length) := by
  induction offset, length using chunks.induct l with
  | case1 offset =>
    unfold chunks
    exact ⟨[], if_pos rfl, by simpa [slice] using Cuts.nil⟩
  | case2 offset length h0 hnone =>
    have hlength : (placesOf l.runs).length = l.size := l.length_places
    obtain ⟨address, contiguous, hsome⟩ := exists_locateIn (hlength ▸ (by omega : offset < l.size))
    cases hnone.symm.trans hsome
  | case3 offset length h0 address contiguous hsome piece ih =>
    have hpiece : piece ≤ length := Nat.min_le_right _ _
    have hcontiguous : piece ≤ contiguous := Nat.min_le_left _ _
    have hpositive : 0 < piece := Nat.lt_min.2 ⟨locateIn_pos hsome, Nat.pos_of_ne_zero h0⟩
    have hfirst : slice l.places offset piece = List.range' address piece := by
      rw [← take_slice _ _ hcontiguous, ← List.take_range'_of_length_ge hcontiguous]
      exact congrArg (List.take piece) (locateIn_places hsome).2
    obtain ⟨pieces, hrun, hcuts⟩ := ih (by omega)
    refine ⟨(address, piece) :: pieces, ?_, ?_⟩
    · unfold chunks
      rw [if_neg h0]
      split
      · next hnone => cases hnone.symm.trans hsome
      · next address' contiguous' hsome' =>
        obtain ⟨rfl, rfl⟩ := Prod.mk.inj (Option.some.inj (hsome.symm.trans hsome'))
        dsimp only
        rw [hrun]
        rfl
    · have hcut := hcuts.cons address hpositive
      rwa [← hfirst, ← slice_add, Nat.add_sub_cancel' hpiece] at hcut

/-! ## Bytes at places -/

namespace HostMemory

/-- The bytes at places. -/
def bytesAt (m : HostMemory) (places : List Nat) : Bytes := places.map m.byteAt

/-- Puts bytes at places, one after the other. -/
def put (m : HostMemory) : List Nat → Bytes → HostMemory
  | place :: places, byte :: bytes => (m.store place byte).put places bytes
  | _, _ => m

/-- The places lie in the memory, and no address behind one of them leaves the word. -/
def Holds (m : HostMemory) (places : List Nat) : Prop := ∀ place ∈ places, place < m.size ∧ place + 1 < wordLimit

variable {m : HostMemory} {places : List Nat} {bytes : Bytes}

/-- Putting bytes does not change the size of a memory. -/
theorem size_put (m : HostMemory) (places : List Nat) (bytes : Bytes) : (m.put places bytes).size = m.size := by
  fun_induction put m places bytes with
  | case1 m place places byte bytes ih => exact ih
  | case2 => rfl

/-- Bytes are put at places in two parts, one after the other. -/
theorem put_append (m : HostMemory) {first rest : List Nat} {bytes : Bytes} (h : first.length ≤ bytes.length) :
    m.put (first ++ rest) bytes = (m.put first (bytes.take first.length)).put rest (bytes.drop first.length) := by
  induction first generalizing m bytes with
  | nil => simp [put]
  | cons place first ih =>
    cases bytes with
    | nil => simp at h
    | cons byte bytes =>
      rw [List.length_cons, List.length_cons] at h
      exact ih _ (Nat.le_of_succ_le_succ h)

/-- Storing bytes one behind the other puts them at consecutive places. -/
theorem storeAll_eq_put (m : HostMemory) (address : Nat) (bytes : Bytes) :
    m.storeAll address bytes = m.put (List.range' address bytes.length) bytes := by
  induction bytes generalizing m address with
  | nil => rfl
  | cons byte rest ih => exact ih _ _

/-- The bytes at places none of which occurs twice, after a store. -/
theorem bytesAt_store (hn : places.Nodup) (place : Nat) (byte : UInt8) : (m.store place byte).bytesAt places =
    if place ∈ places then (m.bytesAt places).set (places.idxOf place) byte else m.bytesAt places := by
  split
  · next hin =>
    refine List.ext_getElem? fun i => ?_
    rw [List.getElem?_set, bytesAt, bytesAt, List.getElem?_map, List.getElem?_map, List.length_map]
    by_cases hi : places.idxOf place = i
    · rw [if_pos hi, ← hi, if_pos (List.idxOf_lt_length_iff.2 hin), List.getElem?_eq_getElem (List.idxOf_lt_length_iff.2 hin),
        List.getElem_idxOf, Option.map_some, byteAt_store, if_pos rfl]
    · rw [if_neg hi]
      cases hother : places[i]? with
      | none => rfl
      | some other =>
        obtain ⟨hlt, rfl⟩ := List.getElem?_eq_some_iff.1 hother
        rw [Option.map_some, Option.map_some, byteAt_store, if_neg]
        rintro rfl
        exact hi (hn.idxOf_getElem i hlt)
  · next hout =>
    refine List.map_congr_left fun other ho => ?_
    rw [byteAt_store, if_neg]
    rintro rfl
    exact hout ho

/-- Bytes that are put, wherever they go, change the contents of places where they land among them. -/
theorem bytesAt_put {targets : List Nat} (hn : places.Nodup) :
    (m.put targets bytes).bytesAt places = replay (m.bytesAt places) (landed places (targets.zip bytes)) := by
  fun_induction put m targets bytes with
  | case1 m target targets byte bytes ih =>
    rw [ih, bytesAt_store hn, List.zip_cons_cons, landed, landed, List.filter_cons]
    simp only [decide_eq_true_eq]
    split <;> rfl
  | case2 targets m bytes hnone =>
    have hempty : targets.zip bytes = [] := by
      cases targets with
      | nil => rfl
      | cons target targets =>
        cases bytes with
        | nil => rfl
        | cons byte bytes => exact absurd rfl (hnone target targets byte bytes · rfl)
    rw [hempty]
    rfl

/-- Pieces that lie in the memory are read. -/
theorem readChunks_ok {pieces : List (Nat × Nat)} (h : Cuts pieces places) (hm : m.Holds places) :
    m.readChunks pieces = .ok (m.bytesAt places) := by
  obtain ⟨hpositive, rfl⟩ := h
  induction pieces with
  | nil => rfl
  | cons piece rest ih =>
    obtain ⟨address, length⟩ := piece
    rw [List.flatMap_cons] at hm ⊢
    have hl : 0 < length := hpositive _ List.mem_cons_self
    have hread : m.read address length = .ok (m.bytesAt (List.range' address length)) := by
      obtain ⟨hsize, hword⟩ := hm (address + (length - 1)) (List.mem_append_left _ (List.mem_range'_1.2 (by dsimp only; omega)))
      refine read_eq_ok_iff.2 ⟨if_pos (by omega), ?_⟩
      rw [bytesFrom, bytesAt, List.range'_eq_map_range, List.map_map]
      rfl
    rw [readChunks, hread, ih (fun piece hp => hpositive piece (List.mem_cons_of_mem _ hp))
      fun place hp => hm place (List.mem_append_right _ hp)]
    rw [bytesAt, bytesAt, bytesAt, List.map_append]
    rfl

/-- Pieces that lie in the memory are written to. -/
theorem writeChunks_ok {pieces : List (Nat × Nat)} (h : Cuts pieces places) (hm : m.Holds places)
    (hl : bytes.length = places.length) : m.writeChunks pieces bytes = (m.put places bytes, .ok ()) := by
  obtain ⟨hpositive, rfl⟩ := h
  induction pieces generalizing m bytes with
  | nil => rfl
  | cons piece rest ih =>
    obtain ⟨address, length⟩ := piece
    rw [List.flatMap_cons] at hm hl ⊢
    rw [List.length_append, List.length_range'] at hl
    dsimp only at hm hl ⊢
    have hpos : 0 < length := hpositive _ List.mem_cons_self
    have htake : (bytes.take length).length = length := by rw [List.length_take]; omega
    have hwrite : m.write address (bytes.take length) = .ok (m.put (List.range' address length) (bytes.take length)) := by
      obtain ⟨hsize, hword⟩ := hm (address + (length - 1)) (List.mem_append_left _ (List.mem_range'_1.2 (by omega)))
      refine write_eq_ok_iff.2 ⟨?_, ?_⟩
      · rw [htake]
        exact if_pos (by omega)
      · rw [storeAll_eq_put, htake]
    rw [writeChunks, hwrite]
    dsimp only
    rw [ih (fun piece hp => hpositive piece (List.mem_cons_of_mem _ hp)), put_append _ (by rw [List.length_range']; omega),
      List.length_range']
    · intro place hp
      rw [size_put]
      exact hm place (List.mem_append_right _ hp)
    · rw [List.length_drop]
      omega

/-- Places none of which occurs twice are fewer than the addresses of the word. -/
theorem Holds.length_lt (hm : m.Holds places) (hn : places.Nodup) : places.length < wordLimit := by
  have hsub : places ⊆ List.range (wordLimit - 1) := fun place hp => List.mem_range.2 (by have := (hm place hp).2; omega)
  have hle := (List.subperm_of_subset hn hsub).length_le
  rw [List.length_range] at hle
  exact Nat.lt_of_le_of_lt hle (by decide)

end HostMemory

/-! ## Reading and writing ranges of a list -/

namespace PageList

variable {l : PageList} {m : HostMemory} {offset length : Nat} {bytes : Bytes}

/-- A range within a list of the word is within its bounds. -/
theorem checkBounds_inside (hword : l.size < wordLimit) (h : offset + length ≤ l.size) : l.checkBounds offset length = .ok () := by
  rw [checkBounds, if_neg (by omega), if_neg (by omega), if_pos h]

/-- A range that leaves the list is refused. -/
theorem checkBounds_outside (h : ¬ offset + length ≤ l.size) : ∃ e, l.checkBounds offset length = .error e := by
  unfold checkBounds
  rw [if_neg h]
  split
  · exact ⟨_, rfl⟩
  · split
    · exact ⟨_, rfl⟩
    · exact ⟨_, rfl⟩

/-- A range within a list that a memory holds is within its bounds. -/
theorem checkBounds_ok (hn : l.places.Nodup) (hm : m.Holds l.places) (h : offset + length ≤ l.size) :
    l.checkBounds offset length = .ok () := by
  have hword := hm.length_lt hn
  rw [l.length_places] at hword
  exact checkBounds_inside hword h

/-- A read within a list answers the bytes of its range. -/
theorem read_ok (hn : l.places.Nodup) (hm : m.Holds l.places) (h : offset + length ≤ l.size) :
    l.read m offset length = .ok (slice (m.bytesAt l.places) offset length) := by
  obtain ⟨pieces, hchunks, hcuts⟩ := l.chunks_ok h
  rw [read, checkBounds_ok hn hm h, hchunks]
  change m.readChunks pieces = _
  rw [HostMemory.readChunks_ok hcuts fun place hp => hm place (mem_of_mem_slice hp), HostMemory.bytesAt, map_slice]
  rfl

/-- Nothing is written to a range that leaves the list. -/
theorem write_error (h : ¬ offset + bytes.length ≤ l.size) : ∃ e, l.write m offset bytes = (m, .error e) := by
  obtain ⟨e, he⟩ := checkBounds_outside h
  rw [write, he]
  exact ⟨e, rfl⟩

/-- A write within a list puts the bytes at the places of its range. -/
theorem write_ok (hn : l.places.Nodup) (hm : m.Holds l.places) (h : offset + bytes.length ≤ l.size) :
    l.write m offset bytes = (m.put (slice l.places offset bytes.length) bytes, .ok ()) := by
  obtain ⟨pieces, hchunks, hcuts⟩ := l.chunks_ok h
  rw [write, checkBounds_ok hn hm h, hchunks]
  refine HostMemory.writeChunks_ok hcuts (fun place hp => hm place (mem_of_mem_slice hp)) (length_slice ?_).symm
  rw [l.length_places]
  exact h

end PageList

end Microkernel
