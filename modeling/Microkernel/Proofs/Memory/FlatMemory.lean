import Mathlib.Data.Set.Card
import Microkernel.Proofs.Memory.Places
import Microkernel.Proofs.Since

/-!
# Sparse memory as a flat array

A memory of which only some pages are resident answers like an array of as many bytes that were zero at first, whatever it was asked
before, and its resident pages are those that were written to and not cleared as a whole since (`answers_like_array`). This holds of a
memory that stores byte by byte and clears page by page, and of one that cuts every range at the borders of its pages, makes the pages
that a write needs first, and works off the pieces (`Manner`).
-/

namespace Microkernel.HostMemory

open Wire (Bytes)

/-! ## Ranges and pages -/

/-- Some byte of the range lies in the page. -/
def Overlaps (address length page : Nat) : Prop := ∃ place, address ≤ place ∧ place < address + length ∧ place / pageSize = page

/-- Every byte of the page lies in the range. -/
def Covers (address length page : Nat) : Prop := ∀ place, place / pageSize = page → address ≤ place ∧ place < address + length

section

variable {address length page : Nat}

/-- A range overlaps a page if it is not empty, begins before the page ends, and ends behind its beginning. -/
theorem overlaps_iff : Overlaps address length page ↔
    0 < length ∧ address < (page + 1) * pageSize ∧ page * pageSize < address + length := by
  have hpage : pageSize = 4096 := rfl
  simp only [Overlaps, hpage]
  constructor
  · rintro ⟨place, hle, hlt, rfl⟩
    omega
  · rintro ⟨hpos, hle, hlt⟩
    exact ⟨max address (page * 4096), by omega, by omega, by omega⟩

/-- A range covers a page if it begins no later and ends no earlier than the page. -/
theorem covers_iff : Covers address length page ↔ address ≤ page * pageSize ∧ (page + 1) * pageSize ≤ address + length := by
  have hpage : pageSize = 4096 := rfl
  simp only [Covers, hpage]
  constructor
  · intro h
    obtain ⟨hfirst, -⟩ := h (page * 4096) (by omega)
    obtain ⟨-, hlast⟩ := h (page * 4096 + 4095) (by omega)
    rw [Nat.succ_mul]
    exact ⟨hfirst, hlast⟩
  · intro h place hplace
    omega

end

/-! ## What a request does -/

/-- What is asked of a memory. -/
inductive Request
  | read (address length : Nat)
  | write (address : Nat) (bytes : Bytes)
  | zero (address length : Nat)

namespace Request

def address : Request → Nat
  | read address _ => address
  | write address _ => address
  | zero address _ => address

def length : Request → Nat
  | read _ length => length
  | write _ bytes => bytes.length
  | zero _ length => length

/-- The range of the request lies in a memory of this size, and its end in the word. -/
def Fits (size : Nat) (r : Request) : Prop := r.address + r.length < wordLimit ∧ r.address + r.length ≤ size

instance (size : Nat) (r : Request) : Decidable (r.Fits size) := inferInstanceAs (Decidable (_ ∧ _))

/-- The bytes that the request puts at its address. -/
def laid : Request → Bytes
  | read _ _ => []
  | write _ bytes => bytes
  | zero _ length => Wire.zeros length

/-- The request writes to the page. -/
def Writes (page : Nat) : Request → Prop
  | write address bytes => Overlaps address bytes.length page
  | _ => False

/-- The request clears the whole page. -/
def Clears (page : Nat) : Request → Prop
  | zero address length => Covers address length page
  | _ => False

/-- The answer of an array of bytes, and the array afterwards. -/
def onArray (array : Bytes) (r : Request) : Except HostError Bytes × Bytes :=
  if r.Fits array.length then
    match r with
    | read address length => (.ok (slice array address length), array)
    | write address bytes => (.ok [], array.take address ++ bytes ++ array.drop (address + bytes.length))
    | zero address length => (.ok [], array.take address ++ Wire.zeros length ++ array.drop (address + length))
  else (.error (.outOfRange r.address r.length), array)

/-- The answer of a memory, and the memory afterwards. -/
def outright (m : HostMemory) : Request → Except HostError Bytes × HostMemory
  | read address length => (m.read address length, m)
  | write address bytes =>
    match m.write address bytes with
    | .ok m => (.ok [], m)
    | .error e => (.error e, m)
  | zero address length =>
    match m.zero address length with
    | .ok m => (.ok [], m)
    | .error e => (.error e, m)

/-- How a memory serves a request: one that does not fit is refused and changes nothing. One that fits is answered, puts its bytes over
those that were there, makes the pages resident that it writes to and no others, and gives up those that it clears. -/
structure Served (m : HostMemory) (r : Request) (served : Except HostError Bytes × HostMemory) : Prop where
  refused : ¬ r.Fits m.size → served = (.error (.outOfRange r.address r.length), m)
  answer : r.Fits m.size → served.1 = .ok (match r with | read address length => m.bytesFrom address length | _ => [])
  size : served.2.size = m.size
  bytes : r.Fits m.size → served.2.byteAt = overlaid r.address r.laid m.byteAt
  resident : r.Fits m.size → ∀ page, page ∈ served.2.pages ↔ r.Writes page ∨ (page ∈ m.pages ∧ ¬ r.Clears page)

end Request

/-! ## Byte by byte -/

/-- A stored byte makes its own page resident. -/
theorem mem_store (m : HostMemory) (address page : Nat) (byte : UInt8) :
    page ∈ (m.store address byte).pages ↔ address / pageSize = page ∨ page ∈ m.pages := by
  rw [Std.TreeMap.mem_iff_isSome_getElem?, Std.TreeMap.mem_iff_isSome_getElem?, store]
  dsimp only
  rw [Std.TreeMap.getElem?_alter]
  simp only [compare_eq_iff]
  split
  · next h => simp [h]
  · next h => simp [Ne.symm h]

/-- Stored bytes make the pages resident that they overlap. -/
theorem mem_storeAll (m : HostMemory) (address page : Nat) (bytes : Bytes) :
    page ∈ (m.storeAll address bytes).pages ↔ Overlaps address bytes.length page ∨ page ∈ m.pages := by
  induction bytes generalizing m address with
  | nil => simp [storeAll, overlaps_iff]
  | cons byte rest ih =>
    have hpage : pageSize = 4096 := rfl
    have hoverlaps : Overlaps address (byte :: rest).length page ↔
        Overlaps (address + 1) rest.length page ∨ address / pageSize = page := by
      simp only [overlaps_iff, List.length_cons, hpage]
      omega
    rw [storeAll, ih, mem_store, hoverlaps, or_assoc]

/-- Clearing a range takes the pages that it covers out of the resident ones. -/
theorem mem_clear (m : HostMemory) (address length page : Nat) :
    page ∈ m.pages.filterMap (scrub address length) ↔ page ∈ m.pages ∧ ¬ Covers address length page := by
  have hscrub (p : Page) : (scrub address length page p).isSome = true ↔ ¬ Covers address length page := by
    have hpage : pageSize = 4096 := rfl
    rw [covers_iff, scrub]
    simp only [hpage]
    split
    · simp only [Option.isSome_some, true_iff]
      omega
    · split
      · simp only [Option.isSome_none, Bool.false_eq_true, false_iff]
        omega
      · simp only [Option.isSome_some, true_iff]
        omega
  rw [Std.TreeMap.mem_iff_isSome_getElem?, Std.TreeMap.mem_iff_isSome_getElem?, Std.TreeMap.getElem?_filterMap']
  cases m.pages[page]? with
  | none => simp
  | some p => simp [hscrub]

namespace Request

variable {m : HostMemory} {r : Request}

/-- The check lets a range pass that fits. -/
theorem checkRange_of_fits {size : Nat} (h : r.Fits size) : checkRange size r.address r.length = .ok () := checkRange_ok h.1 h.2

/-- The check refuses a range that does not fit. -/
theorem checkRange_of_not_fits {size : Nat} (h : ¬ r.Fits size) :
    checkRange size r.address r.length = .error (.outOfRange r.address r.length) := if_neg h

/-- Refusing a request that does not fit serves it. -/
theorem Served.of_not_fits (h : ¬ r.Fits m.size) : Served m r (.error (.outOfRange r.address r.length), m) where
  refused _ := rfl
  answer hfits := absurd hfits h
  size := rfl
  bytes hfits := absurd hfits h
  resident hfits := absurd hfits h

/-- The bytewise memory refuses a request that does not fit and stays as it was. -/
theorem outright_of_not_fits (h : ¬ r.Fits m.size) : outright m r = (.error (.outOfRange r.address r.length), m) := by
  have hrange := checkRange_of_not_fits h
  cases r with
  | read address length => exact congrArg (·, m) (read_of_refused hrange)
  | write address bytes =>
    have hwrite : m.write address bytes = .error (.outOfRange address bytes.length) := write_of_refused hrange
    rw [outright, hwrite]
    rfl
  | zero address length =>
    have hzero : m.zero address length = .error (.outOfRange address length) := zero_of_refused hrange
    rw [outright, hzero]
    rfl

/-- An array refuses a request that does not fit and stays as it was. -/
theorem onArray_of_not_fits {array : Bytes} (h : ¬ r.Fits array.length) :
    r.onArray array = (.error (.outOfRange r.address r.length), array) := by
  cases r <;> exact if_neg h

/-- What a memory does that stores byte by byte and clears page by page. -/
theorem outright_served (m : HostMemory) (r : Request) : Served m r (outright m r) := by
  by_cases hfits : r.Fits m.size
  · have hrange := checkRange_of_fits hfits
    have hnot : ¬ ¬ r.Fits m.size := fun h => h hfits
    cases r with
    | read address length =>
      have hread : m.read address length = .ok (m.bytesFrom address length) := read_eq_ok_iff.2 ⟨hrange, rfl⟩
      exact ⟨(absurd · hnot), fun _ => hread, rfl, fun _ => (overlaid_nil _ _).symm, fun _ page => by simp [Writes, Clears, outright]⟩
    | write address bytes =>
      have hwrite : m.write address bytes = .ok (m.storeAll address bytes) := write_eq_ok_iff.2 ⟨hrange, rfl⟩
      rw [outright, hwrite]
      refine ⟨(absurd · hnot), fun _ => rfl, size_storeAll _ _ _, fun _ => byteAt_storeAll _ _ _, fun _ page => ?_⟩
      simpa [Writes, Clears] using mem_storeAll m address page bytes
    | zero address length =>
      have hzero : m.zero address length = .ok { m with pages := m.pages.filterMap (scrub address length) } :=
        zero_eq_ok_iff.2 ⟨hrange, rfl⟩
      rw [outright, hzero]
      refine ⟨(absurd · hnot), fun _ => rfl, rfl, fun _ => byteAt_clear _ _ _, fun _ page => ?_⟩
      simpa [Writes, Clears] using mem_clear m address length page
  · rw [outright_of_not_fits hfits]
    exact .of_not_fits hfits

end Request

/-! ## Piece by piece -/

/-- A part of a range that lies in one page. -/
structure Piece where
  page : Nat
  /-- Where the piece begins in the page. -/
  offset : Nat
  /-- Where the piece begins in the range. -/
  start : Nat
  length : Nat

/-- Cuts what is left of a range at the borders of pages. -/
def pieces (address length done : Nat) : List Piece :=
  if done < length then
    let current := address + done
    let size := min (pageSize - current % pageSize) (length - done)
    { page := current / pageSize, offset := current % pageSize, start := done, length := size } :: pieces address length (done + size)
  else []
termination_by length - done
decreasing_by
  have hoffset := offset_lt (address + done)
  omega

/-- The bytes of a piece. A page that is not resident reads as zeros. -/
def readPiece (m : HostMemory) (p : Piece) : Bytes :=
  match m.pages[p.page]? with
  | some page => slice page.toList p.offset p.length
  | none => Wire.zeros p.length

/-- Puts bytes over a piece, if its page is resident. -/
def fillPiece (m : HostMemory) (p : Piece) (bytes : Bytes) : HostMemory :=
  let fill (page : Page) : Page := page.mapIdx fun i byte => if p.offset ≤ i then bytes[i - p.offset]?.getD byte else byte
  { m with pages := m.pages.modify p.page fill }

/-- Makes the pages of pieces resident that are not. -/
def materialize (m : HostMemory) (ps : List Piece) : HostMemory :=
  let missing := (ps.map Piece.page).filter fun page => !m.pages.contains page
  { m with pages := missing.foldl (fun pages page => pages.insertIfNew page zeroPage) m.pages }

/-- Clears a piece: a piece that is a whole page is given back. -/
def clearPiece (m : HostMemory) (p : Piece) : HostMemory :=
  if p.offset = 0 ∧ p.length = pageSize then { m with pages := m.pages.erase p.page } else m.fillPiece p (Wire.zeros p.length)

/-- The answer of a memory that works off the pieces of a range, and the memory afterwards. -/
def Request.piecewise (m : HostMemory) (r : Request) : Except HostError Bytes × HostMemory :=
  match checkRange m.size r.address r.length with
  | .error e => (.error e, m)
  | .ok () =>
    let ps := pieces r.address r.length 0
    match r with
    | .read _ _ => (.ok (ps.flatMap m.readPiece), m)
    | .write _ bytes => (.ok [], ps.foldl (fun m p => m.fillPiece p (slice bytes p.start p.length)) (m.materialize ps))
    | .zero _ _ => (.ok [], ps.foldl clearPiece m)

/-- The piece is the first of what is left of a range once `done` bytes of it are worked off. -/
structure Piece.IsNext (p : Piece) (address length done : Nat) : Prop where
  start_eq : p.start = done
  place_eq : p.page * pageSize + p.offset = address + done
  positive : 0 < p.length
  inside : p.offset + p.length ≤ pageSize
  left : done + p.length ≤ length
  /-- Only the last piece may end before its page does. -/
  full : done + p.length < length → p.offset + p.length = pageSize

/-- What a page holds. -/
def content (m : HostMemory) (page : Nat) : Page := m.pages[page]?.getD zeroPage

section

variable {address length done page : Nat} {m : HostMemory} {p : Piece} {bytes : Bytes}

/-- The byte at an offset into a page is the one the page holds there. -/
theorem byteAt_mul_add (m : HostMemory) (page : Nat) {offset : Nat} (h : offset < pageSize) :
    m.byteAt (page * pageSize + offset) = (m.content page).get ⟨offset, h⟩ := by
  have hpage : (page * pageSize + offset) / pageSize = page := by
    rw [Nat.mul_comm, Nat.mul_add_div (by decide), Nat.div_eq_of_lt h, Nat.add_zero]
  have hoffset : (page * pageSize + offset) % pageSize = offset := by
    rw [Nat.mul_comm, Nat.mul_add_mod, Nat.mod_eq_of_lt h]
  rw [byteAt_eq, content]
  simp only [hpage, hoffset]

/-- A memory is known from what its pages hold. -/
theorem byteAt_ext {bytes : Nat → UInt8}
    (h : ∀ page offset (hoffset : offset < pageSize), (m.content page).get ⟨offset, hoffset⟩ = bytes (page * pageSize + offset)) :
    m.byteAt = bytes := by
  funext place
  have hplace : place / pageSize * pageSize + place % pageSize = place := Nat.div_add_mod' _ _
  rw [← hplace, byteAt_mul_add m _ (offset_lt place), h]

/-- Of a range that is worked off nothing is left to cut. -/
theorem pieces_of_le (h : length ≤ done) : pieces address length done = [] := by
  rw [pieces, if_neg (Nat.not_lt.2 h)]

/-- Of a range that is not worked off the next piece is cut first. -/
theorem pieces_of_lt (address : Nat) (h : done < length) :
    ∃ p : Piece, p.IsNext address length done ∧ pieces address length done = p :: pieces address length (done + p.length) := by
  have hoffset := offset_lt (address + done)
  rw [pieces, if_pos h]
  exact ⟨_, ⟨rfl, Nat.div_add_mod' _ _, by dsimp only; omega, by dsimp only; omega, by dsimp only; omega, by dsimp only; omega⟩, rfl⟩

/-- What holds of no pieces, and of a piece in front of those behind it, holds of all pieces. -/
theorem pieces_induction {motive : Nat → List Piece → Prop} (hnil : ∀ done, length ≤ done → motive done [])
    (hcons : ∀ done p ps, Piece.IsNext p address length done → motive (done + p.length) ps → motive done (p :: ps)) (done : Nat) :
    motive done (pieces address length done) := by
  by_cases h : done < length
  · obtain ⟨p, hp, hpieces⟩ := pieces_of_lt address h
    have hpositive := hp.positive
    rw [hpieces]
    exact hcons done p _ hp (pieces_induction hnil hcons (done + p.length))
  · rw [Nat.not_lt] at h
    rw [pieces_of_le h]
    exact hnil done h
termination_by length - done

/-- The pages of the pieces are those that the range has bytes in. -/
theorem exists_mem_pieces_iff (address length done page : Nat) :
    (∃ p ∈ pieces address length done, p.page = page) ↔ Overlaps (address + done) (length - done) page := by
  refine pieces_induction (motive := fun done ps => (∃ p ∈ ps, p.page = page) ↔ Overlaps (address + done) (length - done) page)
    (fun done h => ?_) (fun done p ps hp ih => ?_) done
  · simp [overlaps_iff, Nat.sub_eq_zero_of_le h]
  · have hpage : pageSize = 4096 := rfl
    obtain ⟨-, hplace, hpositive, hinside, hleft, hfull⟩ := hp
    rw [List.exists_mem_cons_iff, ih]
    simp only [overlaps_iff, hpage] at *
    omega

/-! ### Reading -/

/-- Two ranges that adjoin are read one after the other. -/
theorem bytesFrom_add (m : HostMemory) (address first rest : Nat) :
    m.bytesFrom address (first + rest) = m.bytesFrom address first ++ m.bytesFrom (address + first) rest := by
  simp [bytesFrom, List.range_add, Nat.add_assoc]

/-- The bytes of a range stand in it by their places. -/
theorem getElem?_bytesFrom (m : HostMemory) (address : Nat) {i length : Nat} (h : i < length) :
    (m.bytesFrom address length)[i]? = some (m.byteAt (address + i)) := by
  rw [bytesFrom, List.getElem?_map, List.getElem?_range h, Option.map_some]

/-- A piece is read as the bytes of its range. -/
theorem readPiece_eq (h : p.offset + p.length ≤ pageSize) : m.readPiece p = m.bytesFrom (p.page * pageSize + p.offset) p.length := by
  have hslice : m.readPiece p = slice (m.content p.page).toList p.offset p.length := by
    rw [readPiece, content]
    cases m.pages[p.page]? with
    | some page => rfl
    | none =>
      rw [Option.getD_none, slice, zeroPage, Vector.toList_replicate, List.drop_replicate, List.take_replicate,
        Nat.min_eq_left (by omega)]
      rfl
  rw [hslice]
  have hlength : (m.content p.page).toList.length = pageSize := Vector.length_toList
  refine List.ext_getElem? fun i => ?_
  by_cases hi : i < p.length
  · rw [getElem?_slice _ _ hi, getElem?_bytesFrom _ _ hi, Nat.add_assoc, byteAt_mul_add m p.page (by omega),
      List.getElem?_eq_getElem (by omega)]
    rfl
  · rw [List.getElem?_eq_none (by rw [length_slice (by omega)]; omega), List.getElem?_eq_none (by rw [bytesFrom]; simpa using hi)]

/-- Reading the pieces reads the range. -/
theorem flatMap_readPiece (m : HostMemory) (address length done : Nat) :
    (pieces address length done).flatMap m.readPiece = m.bytesFrom (address + done) (length - done) := by
  refine pieces_induction (motive := fun done ps => ps.flatMap m.readPiece = m.bytesFrom (address + done) (length - done))
    (fun done h => ?_) (fun done p ps hp ih => ?_) done
  · rw [Nat.sub_eq_zero_of_le h]
    rfl
  · have hleft := hp.left
    have hlength : length - done = p.length + (length - (done + p.length)) := by omega
    rw [List.flatMap_cons, ih, readPiece_eq hp.inside, hp.place_eq, hlength, bytesFrom_add, Nat.add_assoc]

/-! ### Filling -/

/-- A resident page gets the bytes that are put over a piece of it; where there is none, zeros change nothing. -/
theorem byteAt_fillPiece (h : p.offset + bytes.length ≤ pageSize) (hresident : p.page ∈ m.pages ∨ ∃ n, bytes = Wire.zeros n) :
    (m.fillPiece p bytes).byteAt = overlaid (p.page * pageSize + p.offset) bytes m.byteAt := by
  refine byteAt_ext fun page offset hoffset => ?_
  have hsize : pageSize = 4096 := rfl
  rw [content, fillPiece]
  dsimp only
  rw [Std.TreeMap.getElem?_modify]
  simp only [compare_eq_iff]
  by_cases hpage : page = p.page
  · subst hpage
    rw [if_pos rfl, overlaid, byteAt_mul_add m _ hoffset]
    have hle : p.page * pageSize + p.offset ≤ p.page * pageSize + offset ↔ p.offset ≤ offset := Nat.add_le_add_iff_left
    rw [Nat.add_sub_add_left]
    simp only [hle]
    cases hcontent : m.pages[p.page]? with
    | some page =>
      rw [Option.map_some, Option.getD_some, content, hcontent, Option.getD_some]
      exact Vector.getElem_mapIdx _
    | none =>
      have hzeros : ∃ n, bytes = Wire.zeros n := hresident.resolve_left fun hmem => by
        rw [Std.TreeMap.mem_iff_isSome_getElem?, hcontent] at hmem
        cases hmem
      obtain ⟨n, rfl⟩ := hzeros
      rw [Option.map_none, Option.getD_none, content, hcontent, Option.getD_none, get_zeroPage]
      split
      · rw [Wire.zeros, List.getElem?_replicate]
        split <;> rfl
      · rfl
  · rw [if_neg hpage]
    have hbelow : overlaid (p.page * pageSize + p.offset) bytes m.byteAt (page * pageSize + offset) =
        m.byteAt (page * pageSize + offset) := by
      rcases Nat.lt_or_gt_of_ne hpage with hlt | hgt
      · exact overlaid_of_lt (by rw [hsize]; omega) _ _
      · exact overlaid_of_le (by rw [hsize]; omega) _
    rw [hbelow, byteAt_mul_add m _ hoffset]
    rfl

/-- Filling a piece makes no page resident. -/
theorem mem_fillPiece : page ∈ (m.fillPiece p bytes).pages ↔ page ∈ m.pages := Std.TreeMap.mem_modify

/-- Filling the pieces, once their pages are resident, puts the bytes over the range. -/
theorem foldl_fillPiece (address : Nat) (bytes : Bytes) (done : Nat) (m : HostMemory)
    (hresident : ∀ p ∈ pieces address bytes.length done, p.page ∈ m.pages) :
    let filled := (pieces address bytes.length done).foldl (fun m p => m.fillPiece p (slice bytes p.start p.length)) m
    filled.size = m.size ∧ filled.byteAt = overlaid (address + done) (bytes.drop done) m.byteAt ∧
      ∀ page, page ∈ filled.pages ↔ page ∈ m.pages := by
  refine pieces_induction (motive := fun done ps => ∀ m : HostMemory, (∀ p ∈ ps, p.page ∈ m.pages) →
      let filled := ps.foldl (fun m p => m.fillPiece p (slice bytes p.start p.length)) m
      filled.size = m.size ∧ filled.byteAt = overlaid (address + done) (bytes.drop done) m.byteAt ∧
        ∀ page, page ∈ filled.pages ↔ page ∈ m.pages)
    (fun done h m _ => ?_) (fun done p ps hp ih m hresident => ?_) done m hresident
  · rw [List.drop_eq_nil_of_le h, overlaid_nil]
    exact ⟨rfl, rfl, fun _ => Iff.rfl⟩
  · obtain ⟨hfirst, hrest⟩ := List.forall_mem_cons.1 hresident
    have hlength : (slice bytes p.start p.length).length = p.length := length_slice (by rw [hp.start_eq]; exact hp.left)
    obtain ⟨hsize, hbytes, hmem⟩ := ih (m.fillPiece p (slice bytes p.start p.length)) fun q hq => mem_fillPiece.2 (hrest q hq)
    have hdrop : bytes.drop done = slice bytes p.start p.length ++ bytes.drop (done + p.length) := by
      rw [slice, hp.start_eq, ← List.drop_drop, List.take_append_drop]
    refine ⟨hsize, ?_, fun page => (hmem page).trans mem_fillPiece⟩
    rw [List.foldl_cons, hbytes, byteAt_fillPiece (by rw [hlength]; exact hp.inside) (.inl hfirst), hp.place_eq, hdrop, overlaid_append,
      hlength, Nat.add_assoc]

/-- Making pages resident changes no byte. -/
theorem materialize_spec (m : HostMemory) (ps : List Piece) :
    (m.materialize ps).byteAt = m.byteAt ∧
      ∀ page, page ∈ (m.materialize ps).pages ↔ (∃ p ∈ ps, p.page = page) ∨ page ∈ m.pages := by
  have hfold (missing : List Nat) (pages : Std.TreeMap Nat Page) (page : Nat) :
      (missing.foldl (fun pages page => pages.insertIfNew page zeroPage) pages)[page]?.getD zeroPage = pages[page]?.getD zeroPage ∧
        (page ∈ missing.foldl (fun pages page => pages.insertIfNew page zeroPage) pages ↔ page ∈ missing ∨ page ∈ pages) := by
    induction missing generalizing pages with
    | nil => simp
    | cons first rest ih =>
      obtain ⟨hcontent, hmem⟩ := ih (pages.insertIfNew first zeroPage)
      rw [List.foldl_cons, hcontent, hmem, Std.TreeMap.mem_insertIfNew, Std.TreeMap.getElem?_insertIfNew]
      simp only [compare_eq_iff]
      constructor
      · split
        · next hnew =>
          obtain ⟨rfl, hnew⟩ := hnew
          rw [Std.TreeMap.getElem?_eq_none hnew]
          rfl
        · rfl
      · rw [List.mem_cons]
        tauto
  constructor
  · refine byteAt_ext fun page offset hoffset => ?_
    rw [byteAt_mul_add m page hoffset, content, materialize]
    dsimp only
    rw [(hfold _ _ page).1, content]
  · intro page
    rw [materialize]
    dsimp only
    rw [(hfold _ _ page).2, List.mem_filter, List.mem_map]
    by_cases hmem : page ∈ m.pages
    · simp [hmem]
    · have hcontains : m.pages.contains page = false := Bool.eq_false_iff.2 hmem
      simp [hmem, hcontains]

/-! ### Clearing -/

/-- Clearing a piece lays zeros over it, and gives the page back if the piece is the whole of it. -/
theorem clearPiece_spec (h : p.offset + p.length ≤ pageSize) :
    (m.clearPiece p).size = m.size ∧
      (m.clearPiece p).byteAt = overlaid (p.page * pageSize + p.offset) (Wire.zeros p.length) m.byteAt ∧
      ∀ page, page ∈ (m.clearPiece p).pages ↔ page ∈ m.pages ∧ ¬ (p.page = page ∧ p.offset = 0 ∧ p.length = pageSize) := by
  rw [clearPiece]
  split
  · next hwhole =>
    obtain ⟨hoffset, hlength⟩ := hwhole
    refine ⟨rfl, byteAt_ext fun page offset hlt => ?_, fun page => ?_⟩
    · have hsize : pageSize = 4096 := rfl
      rw [overlaid_zeros, byteAt_mul_add m page hlt, hoffset, hlength, content]
      dsimp only
      rw [Std.TreeMap.getElem?_erase]
      simp only [compare_eq_iff]
      split
      · next hpage =>
        rw [hpage, if_pos (by omega), Option.getD_none, get_zeroPage]
      · next hpage =>
        rw [if_neg (by rw [hsize]; omega)]
        rfl
    · rw [Std.TreeMap.mem_erase, Ne, compare_eq_iff]
      simp only [hoffset, hlength, and_true]
      tauto
  · next hpart =>
    refine ⟨rfl, byteAt_fillPiece (by rw [Wire.length_zeros]; exact h) (.inr ⟨_, rfl⟩), fun page => ?_⟩
    rw [mem_fillPiece]
    tauto

/-- Clearing the pieces clears the range and gives back the pages that it covers. -/
theorem foldl_clearPiece (address length done : Nat) (m : HostMemory) :
    let cleared := (pieces address length done).foldl clearPiece m
    cleared.size = m.size ∧ cleared.byteAt = overlaid (address + done) (Wire.zeros (length - done)) m.byteAt ∧
      ∀ page, page ∈ cleared.pages ↔ page ∈ m.pages ∧ ¬ Covers (address + done) (length - done) page := by
  refine pieces_induction (motive := fun done ps => ∀ m : HostMemory,
      let cleared := ps.foldl clearPiece m
      cleared.size = m.size ∧ cleared.byteAt = overlaid (address + done) (Wire.zeros (length - done)) m.byteAt ∧
        ∀ page, page ∈ cleared.pages ↔ page ∈ m.pages ∧ ¬ Covers (address + done) (length - done) page)
    (fun done h m => ?_) (fun done p ps hp ih m => ?_) done m
  · rw [Nat.sub_eq_zero_of_le h]
    refine ⟨rfl, (overlaid_nil _ _).symm, fun page => (and_iff_left ?_).symm⟩
    have hpage : pageSize = 4096 := rfl
    rw [covers_iff, hpage]
    omega
  · obtain ⟨hsize, hbytes, hmem⟩ := ih (m.clearPiece p)
    obtain ⟨hsize', hbytes', hmem'⟩ := clearPiece_spec (m := m) hp.inside
    refine ⟨hsize.trans hsize', ?_, fun page => ?_⟩
    · have hleft := hp.left
      have hlength : length - done = p.length + (length - (done + p.length)) := by omega
      have hzeros : Wire.zeros (length - done) = Wire.zeros p.length ++ Wire.zeros (length - (done + p.length)) := by
        rw [hlength]
        exact (List.replicate_append_replicate ..).symm
      rw [List.foldl_cons, hbytes, hbytes', hp.place_eq, hzeros, overlaid_append, Wire.length_zeros, Nat.add_assoc]
    · obtain ⟨-, hplace, hpositive, hinside, hleft, hfull⟩ := hp
      rw [List.foldl_cons, hmem, hmem', and_assoc, and_congr_right_iff]
      intro _
      have hpage : pageSize = 4096 := rfl
      simp only [covers_iff, hpage] at *
      omega

end

/-- What a memory does that works off the pieces of a range. -/
theorem Request.piecewise_served (m : HostMemory) (r : Request) : Served m r (r.piecewise m) := by
  by_cases hfits : r.Fits m.size
  · have hrange := checkRange_of_fits hfits
    have hnot : ¬ ¬ r.Fits m.size := fun h => h hfits
    rw [piecewise, hrange]
    cases r with
    | read address length =>
      refine ⟨(absurd · hnot), fun _ => ?_, rfl, fun _ => (overlaid_nil _ _).symm, fun _ page => by simp [Writes, Clears]⟩
      exact congrArg Except.ok (flatMap_readPiece m address length 0)
    | write address bytes =>
      obtain ⟨hsame, hmem⟩ := materialize_spec m (pieces address bytes.length 0)
      obtain ⟨hsize, hbytes, hmem'⟩ := foldl_fillPiece address bytes 0 (m.materialize (pieces address bytes.length 0))
        fun p hp => (hmem p.page).2 (.inl ⟨p, hp, rfl⟩)
      refine ⟨(absurd · hnot), fun _ => rfl, hsize, fun _ => hbytes.trans ?_, fun _ page => (hmem' page).trans ?_⟩
      · rw [hsame]
        rfl
      · rw [hmem, exists_mem_pieces_iff]
        simp [Writes, Clears]
    | zero address length =>
      obtain ⟨hsize, hbytes, hmem⟩ := foldl_clearPiece address length 0 m
      refine ⟨(absurd · hnot), fun _ => rfl, hsize, fun _ => hbytes, fun _ page => (hmem page).trans ?_⟩
      simp [Writes, Clears]
  · rw [piecewise, checkRange_of_not_fits hfits]
    exact .of_not_fits hfits

/-! ## Any number of requests -/

/-- How a memory works. -/
inductive Manner
  /-- It stores byte by byte and clears page by page. -/
  | outright
  /-- It cuts ranges at the borders of pages and works off the pieces. -/
  | piecewise

/-- The answer to a request, and the memory afterwards. -/
def Manner.perform : Manner → HostMemory → Request → Except HostError Bytes × HostMemory
  | outright, m, r => r.outright m
  | piecewise, m, r => r.piecewise m

/-- Either manner serves every request. -/
theorem Manner.perform_served (manner : Manner) (m : HostMemory) (r : Request) : r.Served m (manner.perform m r) := by
  cases manner with
  | outright => exact Request.outright_served m r
  | piecewise => exact r.piecewise_served m

/-- A new memory after requests. -/
def Manner.after (manner : Manner) (size : Nat) (requests : List Request) : HostMemory :=
  requests.foldl (fun m r => (manner.perform m r).2) (new size)

/-- An array of zeros after requests. -/
def arrayAfter (size : Nat) (requests : List Request) : Bytes :=
  requests.foldl (fun array r => (r.onArray array).2) (Wire.zeros size)

/-- The page was written to and not cleared as a whole since. -/
def Touched (size : Nat) (requests : List Request) (page : Nat) : Prop :=
  Since (fun r => r.Fits size ∧ r.Writes page) (fun r => r.Fits size ∧ r.Clears page) requests

/-- The bytes of a memory, as an array. -/
def array (m : HostMemory) : Bytes := m.bytesFrom 0 m.size

/-- The memory is what requests make of a new one. -/
structure Stands (size : Nat) (requests : List Request) (m : HostMemory) : Prop where
  size_eq : m.size = size
  array_eq : m.array = arrayAfter size requests
  resident : ∀ page, page ∈ m.pages ↔ Touched size requests page

section

variable {size : Nat} {requests : List Request} {r : Request} {m : HostMemory} {served : Except HostError Bytes × HostMemory}

/-- The array is as long as the memory. -/
theorem length_array (m : HostMemory) : m.array.length = m.size := by
  simp [array, bytesFrom]

/-- The array holds the byte of each place. -/
theorem getElem?_array (m : HostMemory) {place : Nat} (h : place < m.size) : m.array[place]? = some (m.byteAt place) := by
  rw [array, getElem?_bytesFrom m 0 h, Nat.zero_add]

/-- A new memory is an array of zeros. -/
theorem array_new (size : Nat) : (new size).array = Wire.zeros size := by
  have hbyte (place : Nat) : (new size).byteAt place = 0 := by simp [byteAt, new]
  refine (List.map_congr_left fun place _ => hbyte _).trans ?_
  rw [List.map_const', List.length_range]
  rfl

/-- A range of a memory is a slice of its array. -/
theorem slice_array {address length : Nat} (h : address + length ≤ m.size) :
    slice m.array address length = m.bytesFrom address length := by
  refine List.ext_getElem? fun i => ?_
  by_cases hi : i < length
  · rw [getElem?_slice _ _ hi, getElem?_bytesFrom _ _ hi, getElem?_array m (by omega)]
  · have hlength : (slice m.array address length).length = length := length_slice (by rwa [length_array])
    rw [List.getElem?_eq_none (by omega), List.getElem?_eq_none (by rw [bytesFrom]; simpa using hi)]

/-- Bytes that lie over a range of a memory replace a part of its array. -/
theorem array_of_overlaid {m' : HostMemory} {address : Nat} (bytes : Bytes) (hsize : m'.size = m.size)
    (hfits : address + bytes.length ≤ m.size) (hbytes : m'.byteAt = overlaid address bytes m.byteAt) :
    m'.array = m.array.take address ++ bytes ++ m.array.drop (address + bytes.length) := by
  have hlength := length_array m
  have htake : (m.array.take address).length = address := by
    rw [List.length_take]
    omega
  refine List.ext_getElem? fun place => ?_
  by_cases hplace : place < m.size
  · rw [getElem?_array m' (hsize ▸ hplace), hbytes]
    by_cases hbelow : place < address
    · rw [overlaid_of_lt hbelow, List.append_assoc, List.getElem?_append_left (by omega), List.getElem?_take_of_lt hbelow,
        getElem?_array m hplace]
    · by_cases hin : place < address + bytes.length
      · rw [overlaid, if_pos (by omega), List.append_assoc, List.getElem?_append_right (by omega), htake,
          List.getElem?_append_left (by omega), List.getElem?_eq_getElem (by omega), Option.getD_some]
      · rw [overlaid_of_le (by omega), List.getElem?_append_right (by rw [List.length_append]; omega), List.getElem?_drop,
          List.length_append, htake, Nat.add_sub_cancel' (by omega), getElem?_array m hplace]
  · have hshort : (m.array.take address ++ bytes ++ m.array.drop (address + bytes.length)).length = m.size := by
      rw [List.length_append, List.length_append, List.length_drop, htake]
      omega
    rw [List.getElem?_eq_none (by rw [length_array]; omega), List.getElem?_eq_none (by omega)]

/-- A memory that serves a request answers like its array, and becomes the memory of the array afterwards. -/
theorem Request.Served.like_array (h : r.Served m served) :
    served.1 = (r.onArray m.array).1 ∧ served.2.array = (r.onArray m.array).2 := by
  by_cases hfits : r.Fits m.size
  · have hrange := hfits.2
    have hsize := h.size
    have hanswer := h.answer hfits
    have hbytes := h.bytes hfits
    rw [← length_array m] at hfits
    cases r with
    | read address length =>
      rw [Request.onArray, if_pos hfits]
      refine ⟨hanswer.trans (congrArg Except.ok (slice_array hrange).symm), ?_⟩
      rw [array, array, hsize, bytesFrom, hbytes]
      simp only [Request.laid, overlaid_nil]
      rfl
    | write address bytes =>
      rw [Request.onArray, if_pos hfits]
      exact ⟨hanswer, array_of_overlaid bytes hsize hrange hbytes⟩
    | zero address length =>
      rw [Request.onArray, if_pos hfits]
      have harray := array_of_overlaid (Wire.zeros length) hsize (by rwa [Wire.length_zeros]) hbytes
      rw [Wire.length_zeros] at harray
      exact ⟨hanswer, harray⟩
  · rw [h.refused hfits, Request.onArray_of_not_fits (by rwa [length_array])]
    exact ⟨rfl, rfl⟩

namespace Stands

/-- A new memory is what no requests make of it. -/
theorem new (size : Nat) : Stands size [] (HostMemory.new size) where
  size_eq := rfl
  array_eq := array_new size
  resident page := by simp [HostMemory.new, Touched, Since]

/-- A request that is served is one request more. -/
theorem serve (h : Stands size requests m) (hserved : r.Served m served) : Stands size (requests ++ [r]) served.2 where
  size_eq := hserved.size.trans h.size_eq
  array_eq := by rw [hserved.like_array.2, h.array_eq, arrayAfter, arrayAfter, List.foldl_concat]
  resident page := by
    rw [Touched, Since.concat, ← Touched, ← h.resident page, ← h.size_eq]
    by_cases hfits : r.Fits m.size
    · rw [hserved.resident hfits page]
      tauto
    · rw [hserved.refused hfits]
      tauto

/-- A run, whichever way the memory works. -/
theorem after (manner : Manner) (size : Nat) (requests : List Request) : Stands size requests (manner.after size requests) := by
  induction requests using List.reverseRecOn with
  | nil => exact new size
  | append_singleton requests r ih =>
    rw [Manner.after, List.foldl_concat]
    exact ih.serve (manner.perform_served _ r)

end Stands

/-- A page is counted once. -/
theorem residentPages_eq (m : HostMemory) : m.residentPages = {page | page ∈ m.pages}.ncard := by
  have hset : {page | page ∈ m.pages} = (m.pages.keys.toFinset : Set Nat) :=
    Set.ext fun page => by simp
  rw [hset, Set.ncard_coe_finset, List.toFinset_card_of_nodup Std.TreeMap.nodup_keys, Std.TreeMap.length_keys]
  rfl

end

/-- After any requests to a memory of any size, whichever way it works: the next request fails exactly if the end of its range leaves
the word or the memory, and then changes nothing; otherwise the answer and the bytes afterwards are those of an array of as many bytes
that began with zeros. The resident pages are those that were written to and not cleared as a whole since. -/
theorem answers_like_array (manner : Manner) (size : Nat) (requests : List Request) (r : Request) :
    let m := manner.after size requests
    let array := arrayAfter size requests
    ((∃ e, (manner.perform m r).1 = .error e) ↔ wordLimit ≤ r.address + r.length ∨ size < r.address + r.length) ∧
    ((∃ e, (manner.perform m r).1 = .error e) → (manner.perform m r).2 = m) ∧
    (manner.perform m r).1 = (r.onArray array).1 ∧ (manner.perform m r).2.array = (r.onArray array).2 ∧
    array.length = size ∧ (∀ place < size, array[place]? = some (m.byteAt place)) ∧
    m.residentPages = {page | Touched size requests page}.ncard := by
  intro m array
  have hstands : Stands size requests m := .after manner size requests
  have hserved : r.Served m (manner.perform m r) := manner.perform_served m r
  have hfails : (∃ e, (manner.perform m r).1 = .error e) ↔ ¬ r.Fits m.size := by
    refine ⟨fun ⟨e, he⟩ hfits => ?_, fun hfits => ?_⟩
    · cases (hserved.answer hfits).symm.trans he
    · rw [hserved.refused hfits]
      exact ⟨_, rfl⟩
  have harray : m.array = array := hstands.array_eq
  obtain ⟨hanswer, hafter⟩ := hserved.like_array
  rw [harray] at hanswer hafter
  refine ⟨hfails.trans ?_, fun hfailed => ?_, hanswer, hafter, ?_, fun place hplace => ?_, ?_⟩
  · rw [Request.Fits, hstands.size_eq]
    omega
  · rw [hserved.refused (hfails.1 hfailed)]
  · rw [← harray, length_array, hstands.size_eq]
  · rw [← harray, getElem?_array m (hstands.size_eq ▸ hplace)]
  · rw [residentPages_eq]
    exact congrArg Set.ncard (Set.ext hstands.resident)

/-- Three bytes, two of them written and one of those cleared: a write that leaves the memory changes nothing. -/
theorem answers_like_array_three :
    let m := Manner.piecewise.after 3 [.write 1 [7, 8], .zero 1 1]
    (Manner.piecewise.perform m (.write 2 [9, 9])).2 = m ∧ ∀ place < 3, [0, 0, 8][place]? = some (m.byteAt place) := by
  intro m
  have harray : arrayAfter 3 [.write 1 [7, 8], .zero 1 1] = [0, 0, 8] := by decide
  obtain ⟨hfails, hsame, -, -, -, hbytes, -⟩ := answers_like_array .piecewise 3 [.write 1 [7, 8], .zero 1 1] (.write 2 [9, 9])
  rw [harray] at hbytes
  exact ⟨hsame (hfails.2 (.inr (by decide))), hbytes⟩

end Microkernel.HostMemory
