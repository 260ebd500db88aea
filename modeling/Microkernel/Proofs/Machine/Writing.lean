import Microkernel.Proofs.Machine.Contents

/-!
# Writing memory

Hosts and guests make calls and write memory, guests through their address spaces and hosts through memory objects (`Deed`). Whatever
they do, objects, mappings and pages fit together (`afterDeeds_sound`). The bytes of a memory object are those that deeds store where its
pages are, the last one stored at each place, and otherwise as before (`Sound.after_contents`, `run_contents`).
-/

namespace Microkernel.Machine

open Wire (Bytes)

variable {x : Setup} {s t : Machine} {kernel : RecordId}

/-! ## Other bytes in the memory -/

/-- Other memory for one kernel leaves the others. -/
theorem kernel_setMemory (kernel other : RecordId) (memory : HostMemory) (s : Machine) : (setMemory kernel memory s).2.kernel other =
    if other = kernel then { s.kernel kernel with host := { (s.kernel kernel).host with memory } } else s.kernel other :=
  kernel_insert s kernel other _

/-- A machine stays orderly when bytes of its memory change. -/
theorem Orderly.setMemory (h : Orderly x s) {memory : HostMemory} (hsize : memory.size = (s.kernel kernel).host.memory.size) :
    Orderly x (setMemory kernel memory s).2 := by
  have hkernel (k : RecordId) : ((Machine.setMemory kernel memory s).2.kernel k).regions = (s.kernel k).regions ∧
      ((Machine.setMemory kernel memory s).2.kernel k).host.memory.size = (s.kernel k).host.memory.size ∧
      ((Machine.setMemory kernel memory s).2.kernel k).processes = (s.kernel k).processes ∧
      ((Machine.setMemory kernel memory s).2.kernel k).namedPorts = (s.kernel k).namedPorts := by
    rw [kernel_setMemory]
    split
    · next heq =>
      subst heq
      exact ⟨rfl, hsize, rfl, rfl⟩
    · exact ⟨rfl, rfl, rfl, rfl⟩
  constructor
  case stocked =>
    refine h.stocked.of_same (Nat.le_refl _) (fun _ => rfl) (fun kind => ?_) (fun hc => ?_) (hkernel x.kernel).2.1
    · rw [Kernel.region, (hkernel x.kernel).1]
      rfl
    · rw [Kernel.Complete, (hkernel x.kernel).1]
      exact hc
  case backed => exact h.backed.add rfl (fun _ => rfl) (fun _ _ hm => .inl hm) fun _ _ hm => .inl hm
  case numbered =>
    refine h.numbered.grow (Nat.le_refl _) (fun _ hid => hid.2) (fun _ ho => .inl ho) (fun k pid id hm => .inl ?_)
      (fun _ _ ho => .inl ho) (fun _ hid => .inl ⟨hid, rfl⟩) fun _ hid => .inl hid
    rwa [(hkernel k).2.2.1] at hm
  case simple =>
    obtain ⟨h1, h2, h3, h4, h5, h6, h7, h8, h9, h10, h11⟩ := h.simple.bare
    exact ⟨h.simple.thread, h.simple.object, h.simple.threadOf, h.simple.kernelOf,
      h1, h2, h3, h4, h5, h6, h7, h8, h9, h10, fun k => (hkernel k).2.2.2.trans (h11 k)⟩

/-- Nothing but bytes of the memory has changed. -/
theorem setMemory_steady (kernel : RecordId) (memory : HostMemory) (s : Machine) :
    Steady (s.nextId ≤ ·) s (setMemory kernel memory s).2 :=
  .of_eq (Nat.le_refl _) rfl rfl rfl

/-- Pages, mappings and objects fit together, and memory objects belong to the kernel. -/
structure Sound (x : Setup) (s : Machine) : Prop where
  orderly : Orderly x s
  granted : Granted s
  home : ∀ o m, s.memory? o = some m → m.1 = x.kernel

/-- The bytes of pages, one after the other. -/
def contents (s : Machine) (kernel : RecordId) (pages : PageList) : Bytes := (s.kernel kernel).host.memory.bytesAt pages.places

namespace Sound

/-- Whoever has pages has them in the memory. -/
theorem holds (h : Sound x s) {pages : PageList} {backing : List AllocationId} (hh : s.Holder pages backing) :
    (s.kernel x.kernel).host.memory.Holds pages.places := by
  intro place hp
  obtain ⟨id, -, a, ha, hin⟩ := (h.orderly.backed.covered pages backing hh).exists_of_place hp
  obtain ⟨page, hpage, hle, hlt⟩ := PageList.mem_places.1 hin
  obtain ⟨hsize, hword⟩ := MemoryArrange.le_totalSize (h.orderly.stocked.taken id a ha page hpage).1
  have := h.orderly.stocked.memory
  omega

/-- A physical address that a process sees is in the memory. -/
theorem holds_of_physicalAt (h : Sound x s) {id : RecordId} {address place : Nat}
    (hp : (s.process id).space.physicalAt address = some place) :
    place < (s.kernel x.kernel).host.memory.size ∧ place + 1 < wordLimit := by
  obtain ⟨m, hm, hp⟩ := Option.bind_eq_some_iff.1 hp
  obtain ⟨⟨physical, contiguous⟩, hl, hp⟩ := Option.bind_eq_some_iff.1 hp
  obtain rfl := Option.some.inj hp
  exact h.holds (.mapping (AddressSpace.mem_of_mappingAt hm)) _ (List.mem_of_getElem? (PageList.getElem?_places hl))

/-- A guest's bytes are written where its addresses are, unless the range is not open to writing. -/
theorem writeMemory_cases (h : Sound x s) {id : RecordId} (hid : s.has (.process id) = true) (address : Nat) (bytes : Bytes) :
    (∃ e, (s.process id).space.translate address bytes.length .write = .error e ∧
      (writeMemory id address bytes).run s = (.error e, s)) ∨
    ∃ pieces places, (s.process id).space.translate address bytes.length .write = .ok pieces ∧ Cuts pieces places ∧
      (List.range' address bytes.length).map (s.process id).space.physicalAt = places.map some ∧
      (writeMemory id address bytes).run s =
        (.ok (), (Machine.setMemory x.kernel ((s.kernel x.kernel).host.memory.put places bytes) s).2) := by
  rw [writeMemory, Action.run_look, Action.run_except_bind]
  cases htranslate : (s.process id).space.translate address bytes.length .write with
  | error e => exact .inl ⟨e, rfl, rfl⟩
  | ok pieces =>
    have hrange := htranslate
    unfold AddressSpace.translate at hrange
    split at hrange
    · cases hrange
    · obtain ⟨places, hcuts, hplaces⟩ := (h.granted.ordered id).translateFrom_places hrange
      have hlength := congrArg List.length hplaces
      rw [List.length_map, List.length_map, List.length_range'] at hlength
      have hholds : (s.kernel x.kernel).host.memory.Holds places := by
        intro place hp
        obtain ⟨address', -, hat⟩ := List.mem_map.1 (hplaces ▸ List.mem_map_of_mem hp)
        exact h.holds_of_physicalAt hat
      refine .inr ⟨pieces, places, rfl, hcuts, hplaces, ?_⟩
      dsimp only
      rw [Action.run_look, h.orderly.simple.kernelOf id hid, HostMemory.writeChunks_ok hcuts hholds hlength, Action.run_lift_bind,
        Action.run_except]

/-- The host's bytes are written to the pages of an object. -/
theorem writePages_ok (h : Sound x s) {pages : PageList} (ho : s.IsObject pages) {offset : Nat} {bytes : Bytes}
    (hfits : offset + bytes.length ≤ pages.size) : (writePages x.kernel pages offset bytes).run s = (.ok (),
      (Machine.setMemory x.kernel ((s.kernel x.kernel).host.memory.put (slice pages.places offset bytes.length) bytes) s).2) := by
  obtain ⟨backing, hh⟩ := ho.holder
  rw [writePages, Action.run_look, PageList.write_ok (h.orderly.backed.secured pages backing hh).once (h.holds hh) hfits,
    Action.run_lift_bind, Action.run_except]

end Sound

/-! ## Deeds -/

/-- What is done to a machine: calls and rests, and writes of guests and of the host. -/
inductive Deed
  | call (move : Move)
  | write (process : RecordId) (address : Nat) (bytes : Bytes)
  | writeObject (object : KernelObject) (offset : Nat) (bytes : Bytes)

namespace Deed

/-- The machine after a deed. Nothing is written through what does not exist. -/
def after (kernel : RecordId) (deed : Deed) (s : Machine) : Machine :=
  match deed with
  | call move => move.after kernel s
  | write process address bytes => if s.has (.process process) then ((writeMemory process address bytes).run s).2 else s
  | writeObject object offset bytes =>
    match s.memory? object with
    | some (k, pages) => ((writePages k pages offset bytes).run s).2
    | none => s

/-- The physical addresses that a deed stores bytes at, in order. A guest stores bytes where its addresses are mapped, if the whole
range is open to writing, and the host stores them in the pages of an object, if they fit; calls store nothing. -/
def stores (s : Machine) : Deed → List (Nat × UInt8)
  | call _ => []
  | write process address bytes =>
    if s.has (.process process) then
      match (s.process process).space.translate address bytes.length .write with
      | .ok _ => ((List.range' address bytes.length).filterMap (s.process process).space.physicalAt).zip bytes
      | .error _ => []
    else []
  | writeObject object offset bytes =>
    match s.memory? object with
    | some (_, pages) => if offset + bytes.length ≤ pages.size then (slice pages.places offset bytes.length).zip bytes else []
    | none => []

end Deed

/-- The machine after deeds. -/
def afterDeeds (x : Setup) (deeds : List Deed) : Machine := deeds.foldl (fun s deed => deed.after x.kernel s) x.machine

namespace Sound

/-- What sustains memory objects leaves them to the kernel. -/
theorem sustains (h : Sound x s) (hs : Sustains x.kernel s t) (o : KernelObject) (m : RecordId × PageList)
    (hm : t.memory? o = some m) : m.1 = x.kernel := by
  rcases hs.memory o m hm with hold | ⟨-, hkernel⟩
  · exact h.home o m hold
  · exact hkernel

/-- Other memory of the same size keeps a machine sound. -/
theorem setMemory (h : Sound x s) {memory : HostMemory} (hsize : memory.size = (s.kernel kernel).host.memory.size) :
    Sound x (setMemory kernel memory s).2 where
  orderly := h.orderly.setMemory hsize
  granted := h.granted.steady (setMemory_steady kernel memory s)
  home := h.home

/-- A deed is a call, or stores its bytes one by one and does nothing else. -/
theorem after_cases (h : Sound x s) (deed : Deed) : (∃ move, deed = .call move) ∨ deed.stores s = [] ∧ deed.after x.kernel s = s ∨
    ∃ targets bytes, deed.stores s = targets.zip bytes ∧ deed.after x.kernel s =
      (Machine.setMemory x.kernel ((s.kernel x.kernel).host.memory.put targets bytes) s).2 := by
  cases deed with
  | call move => exact .inl ⟨move, rfl⟩
  | write process address bytes =>
    unfold Deed.after Deed.stores
    dsimp only
    right
    by_cases hid : s.has (.process process) = true
    · rw [if_pos hid, if_pos hid]
      rcases h.writeMemory_cases hid address bytes with ⟨e, htranslate, hrun⟩ | ⟨pieces, places, htranslate, -, hplaces, hrun⟩ <;>
        rw [htranslate, hrun]
      · exact .inl ⟨rfl, rfl⟩
      · refine .inr ⟨places, bytes, ?_, rfl⟩
        dsimp only
        rw [filterMap_of_map hplaces]
    · rw [if_neg hid, if_neg hid]
      exact .inl ⟨rfl, rfl⟩
  | writeObject object offset bytes =>
    unfold Deed.after Deed.stores
    dsimp only
    right
    cases hmemory : s.memory? object with
    | none => exact .inl ⟨rfl, rfl⟩
    | some m =>
      obtain ⟨k, pages⟩ := m
      obtain rfl : k = x.kernel := h.home object _ hmemory
      right
      dsimp only
      by_cases hfits : offset + bytes.length ≤ pages.size
      · rw [if_pos hfits, h.writePages_ok (isObject_of_memory? hmemory) hfits]
        exact ⟨_, _, rfl, rfl⟩
      · obtain ⟨e, hwrite⟩ := PageList.write_error (m := (s.kernel x.kernel).host.memory) hfits
        rw [if_neg hfits, writePages, Action.run_look, hwrite, Action.run_lift_bind, Action.run_except]
        exact ⟨[], [], rfl, rfl⟩

/-- Every deed keeps a machine sound. -/
theorem after (h : Sound x s) (deed : Deed) : Sound x (deed.after x.kernel s) := by
  rcases h.after_cases deed with ⟨move, rfl⟩ | ⟨-, hafter⟩ | ⟨targets, bytes, -, hafter⟩
  · obtain ⟨horderly, hgranted⟩ := move.after_granted h.orderly h.granted
    exact ⟨horderly, hgranted, h.sustains (move.after_sustains h.orderly h.granted).1⟩
  · rwa [hafter]
  · rw [hafter]
    exact h.setMemory (HostMemory.size_put _ targets bytes)

/-- Heap memory and the pages of objects stay, whatever is done. -/
theorem after_sustains (h : Sound x s) (deed : Deed) : Sustains x.kernel s (deed.after x.kernel s) := by
  rcases h.after_cases deed with ⟨move, rfl⟩ | ⟨-, hafter⟩ | ⟨targets, bytes, -, hafter⟩
  · exact (move.after_sustains h.orderly h.granted).1
  · rw [hafter]
    exact refl _
  · rw [hafter]
    exact .steady (setMemory_steady _ _ s)

/-- The contents of an object after a deed are those before it with the bytes that the deed stores in the object. -/
theorem after_contents (h : Sound x s) (deed : Deed) {pages : PageList} (ho : s.IsObject pages) :
    (deed.after x.kernel s).contents x.kernel pages = replay (s.contents x.kernel pages) (landed pages.places (deed.stores s)) := by
  rcases h.after_cases deed with ⟨move, rfl⟩ | ⟨hstores, hafter⟩ | ⟨targets, bytes, hstores, hafter⟩
  · exact List.map_congr_left fun place hp => (move.after_sustains h.orderly h.granted).2 pages ho place hp
  · rw [hafter, hstores]
    rfl
  · obtain ⟨backing, hh⟩ := ho.holder
    rw [hafter, hstores, contents, kernel_setMemory, if_pos rfl]
    exact HostMemory.bytesAt_put (h.orderly.backed.secured pages backing hh).once

end Sound

/-- The machine with a new kernel is sound. -/
theorem machine_sound (x : Setup) : Sound x x.machine := by
  refine ⟨machine_orderly x, machine_granted x, fun o m hm => ?_⟩
  rw [x.newKernel_run.2] at hm
  cases o <;> cases hm

/-- After all deeds the machine is sound. -/
theorem afterDeeds_sound (x : Setup) (deeds : List Deed) : Sound x (afterDeeds x deeds) := by
  suffices hrun : ∀ {s : Machine}, Sound x s → Sound x (deeds.foldl (fun s deed => deed.after x.kernel s) s) from
    hrun (machine_sound x)
  intro s h
  induction deeds generalizing s with
  | nil => exact h
  | cons deed rest ih => exact ih (h.after deed)

end Microkernel.Machine
