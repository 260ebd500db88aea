import Microkernel.Proofs.Machine.Writing

/-!
# Views of memory objects

The bytes of a memory object are seen by the host, at every mapping of the object, and, if the memory is lent, in the heap of the lender
(`View`). What is read through a view are the bytes that were last written through any of them; making, moving and dropping views
changes none (`views_agree`).
-/

namespace Microkernel.Machine

open Wire (Bytes)

variable {x : Setup} {s t : Machine} {o : KernelObject} {kernel id : RecordId} {pages : PageList}

/-! ## Views -/

/-- The range is heap memory of the process, with these pages behind it. -/
structure Lent (s : Machine) (id : RecordId) (address : Nat) (pages : PageList) : Prop where
  process : s.has (.process id) = true
  captured : ∃ backing, (s.process id).space.capture address pages.size = .ok (pages, backing)

/-- Where the bytes of a memory object are seen. -/
inductive View
  | host
  | mapping (process : RecordId) (address : Nat)
  | heap (process : RecordId) (address : Nat)

namespace View

/-- The view of the object exists, and all of it allows the access. -/
def Opens (s : Machine) (o : KernelObject) (pages : PageList) (access : Access) : View → Prop
  | host => True
  | mapping process address => ∃ m ∈ (s.process process).space.mappings, m.object = some o.id ∧ m.address = address ∧
      m.permission.allows access = true
  | heap process address => s.Lent process address pages ∧ ∀ m ∈ (s.process process).space.mappings,
      m.address < address + pages.size → address < m.limit → m.permission.allows access = true

/-- Reads a range of the object. -/
def read (kernel : RecordId) (pages : PageList) (offset length : Nat) : View → Action Bytes
  | host => readPages kernel pages offset length
  | mapping process address | heap process address => readMemory process (address + offset) length

/-- Writes to a range of the object. -/
def write (kernel : RecordId) (pages : PageList) (offset : Nat) (bytes : Bytes) : View → Action Unit
  | host => writePages kernel pages offset bytes
  | mapping process address | heap process address => writeMemory process (address + offset) bytes

/-- Writing to a range of the object. -/
def deed (o : KernelObject) (offset : Nat) (bytes : Bytes) : View → Deed
  | host => .writeObject o offset bytes
  | mapping process address | heap process address => .write process (address + offset) bytes

end View

/-! ## Guests -/

/-- The range of a process shows the pages and allows the access. -/
structure Faces (s : Machine) (id : RecordId) (address : Nat) (pages : PageList) (access : Access) : Prop where
  process : s.has (.process id) = true
  shows : (s.process id).space.Shows (·.permission.allows access = true) address pages.places
  below : address + pages.size < wordLimit

/-- What is mapped for an object has its pages. -/
theorem Granted.pages_eq (h : Granted s) (ho : s.memory? o = some (kernel, pages)) {m : Mapping}
    (hm : m ∈ (s.process id).space.mappings) (hobject : m.object = some o.id) : m.pages = pages := by
  cases o
  case sharedMemory i =>
    obtain ⟨b, hb, heq⟩ := Option.map_eq_some_iff.1 ho
    obtain ⟨-, rfl⟩ := Prod.mk.inj heq
    exact (h.shared id m hm i b hobject hb).1
  case transferMemory i =>
    obtain ⟨b, hb, heq⟩ := Option.map_eq_some_iff.1 ho
    obtain ⟨-, rfl⟩ := Prod.mk.inj heq
    exact (h.transfer id m hm i b hobject hb).1
  all_goals cases ho

namespace Sound

variable {address offset length : Nat} {bytes : Bytes} {access : Access}

/-- A mapping of an object shows its pages at its address, if it allows the access. -/
theorem faces_mapping (h : Sound x s) (ho : s.memory? o = some (kernel, pages)) {m : Mapping}
    (hm : m ∈ (s.process id).space.mappings) (hobject : m.object = some o.id) (hallows : m.permission.allows access = true) :
    s.Faces id m.address pages access := by
  have hsize := (h.orderly.backed.paged id m hm).2
  obtain rfl := h.granted.pages_eq ho hm hobject
  refine ⟨has_process_of_mapping (List.ne_nil_of_mem hm), (h.granted.ordered id).shows hm hsize hallows, ?_⟩
  rw [← hsize]
  exact (h.granted.ordered id).below m hm

/-- Heap memory that is lent shows the pages where it lies, if its mappings allow the access. -/
theorem faces_heap (h : Sound x s) (hl : s.Lent id address pages) (hallows : ∀ m ∈ (s.process id).space.mappings,
    m.address < address + pages.size → address < m.limit → m.permission.allows access = true) : s.Faces id address pages access := by
  obtain ⟨hid, backing, hcapture⟩ := hl
  obtain ⟨hchain, hbelow⟩ := AddressSpace.capture_chain (h.orderly.backed.paged id) hcapture
  refine ⟨hid, fun k place hk => ?_, hbelow⟩
  obtain ⟨m, hm, -, hat⟩ := hchain.shows (h.orderly.backed.paged id) (h.granted.ordered id) k place hk
  obtain ⟨hle, hlt⟩ := Mapping.covers_iff.1 (AddressSpace.covers_of_mappingAt hm)
  have hsize := (List.getElem?_eq_some_iff.1 hk).1
  rw [pages.length_places] at hsize
  exact ⟨m, hm, hallows m (AddressSpace.mem_of_mappingAt hm) (by omega) (by omega), hat⟩

/-- A range of what a process is shown is translated to its places. -/
theorem translate_ok (h : Sound x s) (hf : s.Faces id address pages access) (hfits : offset + length ≤ pages.size) :
    ∃ pieces, (s.process id).space.translate (address + offset) length access = .ok pieces ∧
      Cuts pieces (slice pages.places offset length) := by
  have hlength : (slice pages.places offset length).length = length := length_slice (by rwa [pages.length_places])
  have hrun := (h.granted.ordered id).translate_ok (hf.shows.slice offset length)
  rw [hlength] at hrun
  have := hf.below
  exact hrun (by omega)

/-- A guest reads the bytes of what it is shown. -/
theorem readMemory_ok (h : Sound x s) {backing : List AllocationId} (hh : s.Holder pages backing)
    (hf : s.Faces id address pages .read) (hfits : offset + length ≤ pages.size) :
    (readMemory id (address + offset) length).run s = (.ok (slice (s.contents x.kernel pages) offset length), s) := by
  obtain ⟨pieces, htranslate, hcuts⟩ := h.translate_ok hf hfits
  rw [readMemory, Action.run_look, Action.run_except_bind, htranslate]
  dsimp only
  rw [Action.run_look, h.orderly.simple.kernelOf id hf.process,
    HostMemory.readChunks_ok hcuts fun place hp => h.holds hh place (mem_of_mem_slice hp), Action.run_except, HostMemory.bytesAt,
    map_slice]
  rfl

/-- A guest writes to what it is shown. -/
theorem writeMemory_ok (h : Sound x s) (hf : s.Faces id address pages .write) (hfits : offset + bytes.length ≤ pages.size) :
    (writeMemory id (address + offset) bytes).run s = (.ok (), (Deed.write id (address + offset) bytes).after x.kernel s) ∧
      (Deed.write id (address + offset) bytes).stores s = (slice pages.places offset bytes.length).zip bytes := by
  obtain ⟨pieces, htranslate, hcuts⟩ := h.translate_ok hf hfits
  unfold Deed.after Deed.stores
  dsimp only
  rw [if_pos hf.process, if_pos hf.process]
  rcases h.writeMemory_cases hf.process (address + offset) bytes with
    ⟨e, herror, -⟩ | ⟨pieces', places, hok, hcuts', hplaces, hrun⟩
  · cases htranslate.symm.trans herror
  · obtain rfl := Except.ok.inj (htranslate.symm.trans hok)
    rw [hrun, htranslate]
    dsimp only
    rw [filterMap_of_map hplaces, ← hcuts.places, ← hcuts'.places]
    exact ⟨rfl, rfl⟩

/-! ## Views -/

/-- A process is shown the object through its views. -/
theorem faces (h : Sound x s) (ho : s.memory? o = some (kernel, pages)) {view : View} (hv : view.Opens s o pages access) :
    view = .host ∨ ∃ id address, (view = .mapping id address ∨ view = .heap id address) ∧ s.Faces id address pages access := by
  cases view with
  | host => exact .inl rfl
  | mapping id address =>
    obtain ⟨m, hm, hobject, rfl, hallows⟩ := hv
    exact .inr ⟨id, _, .inl rfl, h.faces_mapping ho hm hobject hallows⟩
  | heap id address => exact .inr ⟨id, address, .inr rfl, h.faces_heap hv.1 hv.2⟩

/-- Through every view that may be read, the contents of the object are read. -/
theorem read_ok (h : Sound x s) (ho : s.memory? o = some (kernel, pages)) {view : View} (hv : view.Opens s o pages .read)
    (hfits : offset + length ≤ pages.size) :
    (view.read kernel pages offset length).run s = (.ok (slice (s.contents kernel pages) offset length), s) := by
  obtain rfl : kernel = x.kernel := h.home o _ ho
  obtain ⟨backing, hh⟩ := (isObject_of_memory? ho).holder
  rcases h.faces ho hv with rfl | ⟨id, address, rfl | rfl, hf⟩
  · unfold View.read readPages
    dsimp only
    rw [Action.run_look, PageList.read_ok (h.orderly.backed.secured pages backing hh).once (h.holds hh) hfits, Action.run_except]
    rfl
  · exact h.readMemory_ok hh hf hfits
  · exact h.readMemory_ok hh hf hfits

/-- Through every view that may be written, bytes go where they are meant to in the object. -/
theorem write_ok (h : Sound x s) (ho : s.memory? o = some (kernel, pages)) {view : View} (hv : view.Opens s o pages .write)
    (hfits : offset + bytes.length ≤ pages.size) :
    (view.write kernel pages offset bytes).run s = (.ok (), (view.deed o offset bytes).after x.kernel s) ∧
      landed pages.places ((view.deed o offset bytes).stores s) = (List.range' offset bytes.length).zip bytes := by
  obtain rfl : kernel = x.kernel := h.home o _ ho
  obtain ⟨backing, hh⟩ := (isObject_of_memory? ho).holder
  have hlanded := landed_slice (h.orderly.backed.secured pages backing hh).once (by rwa [pages.length_places])
  rcases h.faces ho hv with rfl | ⟨id, address, rfl | rfl, hf⟩
  · unfold View.write View.deed Deed.after Deed.stores
    dsimp only
    rw [ho]
    dsimp only
    rw [if_pos hfits, h.writePages_ok (isObject_of_memory? ho) hfits]
    exact ⟨rfl, hlanded⟩
  · obtain ⟨hrun, hstores⟩ := h.writeMemory_ok hf hfits
    exact ⟨hrun, (congrArg _ hstores).trans hlanded⟩
  · obtain ⟨hrun, hstores⟩ := h.writeMemory_ok hf hfits
    exact ⟨hrun, (congrArg _ hstores).trans hlanded⟩

end Sound

/-! ## Lenders -/

/-- Right after memory was lent, the lender sees it in its heap. -/
theorem Sound.lendHeap_lent (h : Sound x s) (hid : s.has (.process id) = true) {address size : Nat} {permission : Permission}
    {i : RecordId} (hrun : (lendHeap id address size permission).run s = (.ok i, t)) :
    ∃ pages, t.memory? (.transferMemory i) = some (x.kernel, pages) ∧ pages.size = size ∧ t.Lent id address pages := by
  rcases lendHeap_cases id address size permission s with ⟨e, hfail⟩ | ⟨pages, backing, hcapture, hok⟩
  · cases hrun.symm.trans hfail
  · obtain ⟨hi, rfl⟩ := Prod.mk.inj (hrun.symm.trans hok)
    obtain rfl := Except.ok.inj hi
    have hsize : pages.size = size := by
      rw [← pages.length_places]
      exact (AddressSpace.capture_chain (h.orderly.backed.paged id) hcapture).1.length_eq (h.orderly.backed.paged id)
    refine ⟨pages, ?_, hsize, hid, backing, ?_⟩
    · refine (congrArg (Option.map _) (Records.getElem?_insert _ _ _ _)).trans ?_
      rw [if_pos rfl, Option.map_some, h.orderly.simple.kernelOf id hid]
    · rw [hsize]
      exact hcapture

/-- The lender sees the memory as long as it has its mappings. -/
theorem Sound.lent (h : Sound x s) (ht : Sound x t) (hs : Sustains x.kernel s t) {address : Nat} (hl : s.Lent id address pages)
    (hid : t.Retains id) : t.Lent id address pages := by
  obtain ⟨hprocess, backing, hcapture⟩ := hl
  refine ⟨hid.1, backing, AddressSpace.capture_of_kept (ht.granted.ordered id) (fun m hm hstate => ?_) hcapture⟩
  exact hs.own id (h.orderly.numbered.object _ hprocess).1 hid m hm (h.orderly.backed.heap id m hm hstate)

/-! ## Runs -/

/-- What deeds write to an object, from a machine on: offset and byte, one after the other. -/
def written (x : Setup) (pages : PageList) : List Deed → Machine → List (Nat × UInt8)
  | [], _ => []
  | deed :: rest, s => landed pages.places (deed.stores s) ++ written x pages rest (deed.after x.kernel s)

/-- An object that is still there has its memory. -/
theorem exists_memory? {m : RecordId × PageList} (hs : s.memory? o = some m) (ht : t.has o = true) : ∃ m', t.memory? o = some m' := by
  cases o
  case sharedMemory i => exact ⟨_, congrArg (Option.map _) (Records.getElem?_of_contains ht default)⟩
  case transferMemory i => exact ⟨_, congrArg (Option.map _) (Records.getElem?_of_contains ht default)⟩
  all_goals cases hs

/-- What has memory is there. -/
theorem has_of_memory? {m : RecordId × PageList} (h : s.memory? o = some m) : s.has o = true := by
  cases o
  case sharedMemory i =>
    obtain ⟨b, hb, -⟩ := Option.map_eq_some_iff.1 h
    exact Records.contains_of_getElem? hb
  case transferMemory i =>
    obtain ⟨b, hb, -⟩ := Option.map_eq_some_iff.1 h
    exact Records.contains_of_getElem? hb
  all_goals cases h

namespace Sound

/-- Heap memory and the pages of objects stay, however much is done. -/
theorem run_sustains (h : Sound x s) (deeds : List Deed) :
    Sustains x.kernel s (deeds.foldl (fun s deed => deed.after x.kernel s) s) := by
  induction deeds generalizing s with
  | nil => exact refl _
  | cons deed rest ih => exact IsTrans.trans _ _ _ (h.after_sustains deed) (ih (h.after deed))

/-- An object that was there and is there was there all the time, with the same pages. -/
theorem memory?_eq (h : Sound x s) (hs : Sustains x.kernel s t) {m m' : RecordId × PageList} (ho : s.memory? o = some m)
    (ht : t.memory? o = some m') : m' = m := by
  have hold := (h.orderly.numbered.object o (has_of_memory? ho)).1
  have hsame := (hs.memory o m' ht).resolve_right fun hnew => Nat.lt_irrefl _ (Nat.lt_of_lt_of_le hold hnew.1)
  exact Option.some.inj (hsame.symm.trans ho)

/-- Over deeds that leave an object, it keeps its pages, and has the bytes that they write to it. -/
theorem run_contents (h : Sound x s) (deeds : List Deed) (ho : s.memory? o = some (kernel, pages))
    (ht : deeds.foldl (fun s deed => deed.after x.kernel s) s = t) (hlive : t.has o = true) :
    t.memory? o = some (kernel, pages) ∧
      t.contents kernel pages = replay (s.contents kernel pages) (written x pages deeds s) := by
  obtain rfl : kernel = x.kernel := h.home o _ ho
  induction deeds generalizing s with
  | nil =>
    obtain rfl : s = t := ht
    exact ⟨ho, rfl⟩
  | cons deed rest ih =>
    have hfirst := h.after_sustains deed
    have hlater : Sustains x.kernel (deed.after x.kernel s) t := ht ▸ (h.after deed).run_sustains rest
    obtain ⟨m', hm'⟩ := exists_memory? ho hlive
    have hold : (deed.after x.kernel s).memory? o = some m' := by
      refine (hlater.memory o m' hm').resolve_right fun hnew => ?_
      have := (h.orderly.numbered.object o (has_of_memory? ho)).1
      exact Nat.lt_irrefl _ (Nat.lt_of_lt_of_le (Nat.lt_of_lt_of_le this hfirst.nextId) hnew.1)
    obtain rfl := h.memory?_eq hfirst ho hold
    obtain ⟨hmemory, hcontents⟩ := ih (h.after deed) ht hold
    refine ⟨hmemory, ?_⟩
    rw [hcontents, h.after_contents deed (isObject_of_memory? ho), written, replay, replay, replay, List.foldl_append]

end Sound

/-- Every view of a memory object shows the same bytes. However hosts and guests make calls and write memory after a machine in which
the object exists, and as long as it exists: what is read through any view is what the writes since then have made of the contents.
Writing through any view succeeds and writes the bytes at their offset; calls change nothing. The heap of a lender is a view from the
moment that it lends until it ends. -/
theorem views_agree (x : Setup) (before deeds : List Deed) (hs : afterDeeds x before = s) (ht : afterDeeds x (before ++ deeds) = t)
    (ho : s.memory? o = some (kernel, pages)) (hlive : t.has o = true) :
    (∀ (view : View) offset length, view.Opens t o pages .read → offset + length ≤ pages.size →
      (view.read kernel pages offset length).run t =
        (.ok (slice (replay (s.contents kernel pages) (written x pages deeds s)) offset length), t)) ∧
    (∀ (view : View) offset bytes, view.Opens t o pages .write → offset + bytes.length ≤ pages.size →
      (view.write kernel pages offset bytes).run t = (.ok (), (view.deed o offset bytes).after x.kernel t) ∧
        landed pages.places ((view.deed o offset bytes).stores t) = (List.range' offset bytes.length).zip bytes) ∧
    (∀ move : Move, (move.after x.kernel t).contents kernel pages = t.contents kernel pages) ∧
    (∀ id address, s.Lent id address pages → t.Retains id → t.Lent id address pages) ∧
    ∀ id address size permission i u, t.has (.process id) = true → (lendHeap id address size permission).run t = (.ok i, u) →
      ∃ lent, u.memory? (.transferMemory i) = some (kernel, lent) ∧ lent.size = size ∧ u.Lent id address lent := by
  have h : Sound x s := hs ▸ afterDeeds_sound x before
  have h' : Sound x t := ht ▸ afterDeeds_sound x (before ++ deeds)
  have hrun : deeds.foldl (fun s deed => deed.after x.kernel s) s = t := by
    rw [← hs, ← ht, afterDeeds, afterDeeds, List.foldl_append]
  obtain ⟨ho', hcontents⟩ := h.run_contents deeds ho hrun hlive
  obtain rfl : kernel = x.kernel := h.home o _ ho
  refine ⟨fun view offset length hv hfits => ?_, fun view offset bytes hv hfits => h'.write_ok ho' hv hfits, fun move => ?_,
    fun id address hl hid => ?_, fun id address size permission i u hid hlend => h'.lendHeap_lent hid hlend⟩
  · rw [← hcontents]
    exact h'.read_ok ho' hv hfits
  · exact h'.after_contents (.call move) (isObject_of_memory? ho')
  · exact h.lent h' (hrun ▸ h.run_sustains deeds) hl hid

/-- An application lends memory of its heap to a service, and writes to its heap; the host writes to the memory. -/
def lending : List Deed := [.call (.host (.start (plainCall .application))), .call (.host (.start (plainCall .service))),
  .call (.host (.allocateHeap 1 0x2000 .readWrite)), .call (.guest 3 (.createTransfer 0x2000000000 0x2000 .readWrite))]

def sharing : List Deed := [.call (.host (.mapTransfer 8 4 0 0x2000 .read)), .write 1 0x2000000fff [1, 2, 3],
  .writeObject (.transferMemory 8) 0x1000 [9]]

/-- The service reads through its mapping what the application and the host have written across a page border. -/
theorem views_agree_sharing : ((readMemory 4 (0x1000000000 + 0xfff) 3).run (afterDeeds plainSetup (lending ++ sharing))).1 =
    .ok [1, 9, 3] := by
  have ho : (afterDeeds plainSetup lending).memory? (.transferMemory 8) = some (0, ⟨[⟨0x1000, 2⟩]⟩) := by decide +kernel
  have hlive : (afterDeeds plainSetup (lending ++ sharing)).has (.transferMemory 8) = true := by decide +kernel
  have hmapped : ((afterDeeds plainSetup (lending ++ sharing)).process 4).space.mappings.any
      (fun m => m.object = some 8 ∧ m.address = 0x1000000000 ∧ m.permission.allows .read) = true := by decide +kernel
  have hbytes : slice (replay ((afterDeeds plainSetup lending).contents 0 ⟨[⟨0x1000, 2⟩]⟩)
      (written plainSetup ⟨[⟨0x1000, 2⟩]⟩ sharing (afterDeeds plainSetup lending))) 0xfff 3 = [1, 9, 3] := by decide +kernel
  obtain ⟨m, hm, hopens⟩ := List.any_eq_true.1 hmapped
  obtain ⟨hread, -⟩ := views_agree plainSetup lending sharing rfl rfl ho hlive
  have hservice := hread (.mapping 4 0x1000000000) 0xfff 3 ⟨m, hm, of_decide_eq_true hopens⟩ (by decide)
  rw [hbytes] at hservice
  exact congrArg Prod.fst hservice

end Microkernel.Machine
