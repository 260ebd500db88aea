import Microkernel.Proofs.Machine.Extents
import Microkernel.Proofs.Machine.Views

/-!
# Memory calls of guests

Whatever was done before, the memory calls of guests succeed for exactly the range that they name, or fail; only a size that cannot be
rounded up to pages and a range of the heap that leaves the word between page borders stop them, and no other sum leaves the word
(`memoryCalls_overflow_iff`).
-/

namespace Microkernel

namespace GuestCall

open Machine

/-- The calls that map, lend, read or write memory. -/
def IsMemory : GuestCall → Prop
  | allocate _ _ | readMemory _ _ | writeMemory _ _ | createTransfer _ _ _ | mapShared _ _ _ _ | unmapShared _ _ _
  | mapTransfer _ _ _ _ | unmapTransfer _ _ _ => True
  | _ => False

/-- The size cannot be rounded up to pages in the word, or the range of whole pages ends behind it. -/
def Overflows : GuestCall → Prop
  | allocate size _ => wordLimit < size + pageSize
  | createTransfer address size _ => size ≠ 0 ∧ pageSize ∣ address ∧ pageSize ∣ size ∧ wordLimit ≤ address + size
  | _ => False

instance (call : GuestCall) : Decidable call.IsMemory := by
  unfold IsMemory
  split <;> infer_instance

instance (call : GuestCall) : Decidable call.Overflows := by
  unfold Overflows
  split <;> infer_instance

/-- The answer to the call of a process and the machine after it, if the call was served for exactly the range that it names. -/
def Serves (kernel id : RecordId) (s t : Machine) : GuestCall → CallStep → Prop
  | allocate size _, .answer (.number address) => ∃ whole, pageAlignUp? size = some whole ∧ MapsRange id address whole s t
  | readMemory address length, .answer (.bytes bytes) =>
    t = s ∧ ∃ places, IsRange s id address length places ∧ bytes = (s.kernel kernel).host.memory.bytesAt places
  | writeMemory address bytes, .answer .unit => ∃ places, IsRange s id address bytes.length places ∧
    t = (setMemory kernel ((s.kernel kernel).host.memory.put places bytes) s).2
  | createTransfer address size _, .answer (.number raw) => ∃ i handle, raw = handle.raw.toNat ∧
    (s.process id).handles.generate (.transferMemory i) = .ok (handle, (t.process id).handles) ∧ LendsRange id address size i s t
  | mapShared _ address size _, .answer (.number a) => (address ≠ 0 → a = address) ∧ MapsRange id a size s t
  | mapTransfer _ address size _, .answer (.number a) => (address ≠ 0 → a = address) ∧ MapsRange id a size s t
  | unmapShared _ address size, .answer .unit => UnmapsRange id address size s t
  | unmapTransfer _ address size, .answer .unit => UnmapsRange id address size s t
  | _, _ => False

end GuestCall

namespace Machine

open Wire (Bytes)

variable {x : Setup} {s t : Machine} {thread id : RecordId} {address size length : Nat}

/-! ## Operations -/

/-- A process has the address space that it was given. -/
theorem space_setSpace (s : Machine) (id : RecordId) (space : AddressSpace) : ((setSpace id space s).2.process id).space = space := by
  rw [process_setSpace, if_pos rfl]

/-- Pages that are taken are no more than there is memory. -/
theorem Orderly.taken_le (h : Orderly x s) {kind : RegionKind} {n : Nat} {allocation : AllocationId} {pages : PageList}
    (hrun : (allocatePages x.kernel kind n).run s = (.ok (allocation, pages), t)) : pages.size ≤ 0x200000000 := by
  rcases allocatePages_cases h kind n with ⟨e, u, hrefused, -⟩ | ⟨pages', u, htaken, hd⟩
  · cases hrun.symm.trans hrefused
  · obtain ⟨hpages, -⟩ := Prod.mk.inj (hrun.symm.trans htaken)
    obtain ⟨-, rfl⟩ := Prod.mk.inj (Except.ok.inj hpages)
    exact hd.orderly.size_le hd.secured

/-- Allocating heap memory stops only for a size that cannot be rounded up, and maps just that size. -/
theorem allocateHeap_ends (h : Sound x s) (hid : s.has (.process id) = true) (size : Nat) (permission : Permission) :
    Ends (allocateHeap id size permission) s (wordLimit < size + pageSize)
      fun a t => ∃ whole, pageAlignUp? size = some whole ∧ MapsRange id a whole s t := by
  have hrun := allocateHeap_run id size permission s
  split at hrun
  · next h0 => exact .of_error hrun (iff_of_false (by simp) (by rw [h0]; decide))
  · cases hwhole : pageAlignUp? size with
    | none =>
      rw [hwhole] at hrun
      exact .of_error hrun (iff_of_true rfl (pageAlignUp?_eq_none_iff.1 hwhole))
    | some whole =>
      obtain ⟨hdvd, -⟩ := pageAlignUp?_eq_some_iff.1 hwhole
      refine Ends.congr ?_ (iff_false_intro (fits_of_pageAlignUp? hwhole)).symm
      rw [hwhole] at hrun
      dsimp only at hrun
      rw [allocateFor_run, h.orderly.simple.kernelOf id hid] at hrun
      rcases allocatePages_answers x.kernel (s.process id).region (whole / pageSize) s with
        ⟨e, u, hrefused, -, he⟩ | ⟨allocation, pages, u, htaken, hpages, hprocesses⟩
      · rw [hrefused] at hrun
        exact .of_refused hrun he
      · have hsame : u.process id = s.process id := by rw [process, process, hprocesses]
        have hsize : (heapMapping allocation pages permission).size = whole := hpages.trans (Nat.div_mul_cancel hdvd)
        have hsmall : whole ≤ 0x200000000 := hsize ▸ h.orderly.taken_le htaken
        rw [htaken] at hrun
        dsimp only at hrun
        rw [hsame] at hrun
        cases hplace : (s.process id).space.place heapBase heapSize 0 whole (heapMapping allocation pages permission) with
        | error e =>
          rw [hplace] at hrun
          exact .of_refused hrun fun he => h.orderly.place_ne_overflow id (by decide) hsmall (hplace.trans (he ▸ rfl))
        | ok result =>
          rw [hplace] at hrun
          exact .of_ok hrun ⟨whole, rfl, (MapsRange.of_place (h.granted.ordered id) hplace hsize (space_setSpace u id _)).2⟩

/-- Mapping an object never stops, and maps its range at the address that was asked for. -/
theorem mapObject_ends (h : Sound x s) {m : Mapping} (hm : m.size = size) (hsmall : size ≤ 0x200000000) (address : Nat) :
    Ends (mapObject id address size m) s False fun a t => (address ≠ 0 → a = address) ∧ MapsRange id a size s t := by
  have hrun := mapObject_run id address size m s
  split at hrun
  · exact .of_refused hrun (by simp)
  · cases hplace : (s.process id).space.place aliasBase aliasSize address size m with
    | error e =>
      rw [hplace] at hrun
      exact .of_refused hrun fun he => h.orderly.place_ne_overflow id (by decide) hsmall (hplace.trans (he ▸ rfl))
    | ok result =>
      rw [hplace] at hrun
      exact .of_ok hrun (MapsRange.of_place (h.granted.ordered id) hplace hm (space_setSpace s id _))

/-- Unmapping an object takes the mapping of exactly its range away, or fails. -/
theorem unmapObject_run (id : RecordId) (address size object : Nat) (s : Machine) : (unmapObject id address size object).run s =
    match (s.process id).space.unmap address size (some object) with
    | .ok (_, space) => (.ok (), (setSpace id space s).2)
    | .error e => (.error e, s) := by
  rw [unmapObject, Action.run_look, Action.run_except_bind]
  cases (s.process id).space.unmap address size (some object) <;> rfl

/-- Unmapping an object never stops. -/
theorem unmapObject_ends (h : Sound x s) (id : RecordId) (address size object : Nat) :
    Ends (unmapObject id address size object) s False fun _ t => UnmapsRange id address size s t := by
  have hrun := unmapObject_run id address size object s
  cases hunmap : (s.process id).space.unmap address size (some object) with
  | error e =>
    rw [hunmap] at hrun
    exact .of_refused hrun fun he => AddressSpace.unmap_ne_overflow _ _ _ _ (hunmap.trans (he ▸ rfl))
  | ok result =>
    obtain ⟨m, space⟩ := result
    rw [hunmap] at hrun
    obtain ⟨hm, rfl, rfl, -, hspace⟩ := (h.granted.ordered id).unmap_eq_ok_iff.1 hunmap
    refine .of_ok hrun ⟨(h.granted.ordered id).below m hm, m, hm, rfl, rfl, fun m' => ?_⟩
    rw [space_setSpace, hspace]
    exact (h.granted.ordered id).mem_filter_address hm

/-! ### Objects -/

/-- Shared memory is no longer than physical memory. -/
theorem Sound.shared_size_le (h : Sound x s) (i : RecordId) : (s.sharedMemory i).pages.size ≤ 0x200000000 := by
  rw [sharedMemory, Std.TreeMap.getD_eq_getD_getElem?]
  cases hi : s.sharedMemories[i]? with
  | none => exact Nat.zero_le _
  | some b => exact h.orderly.size_le (h.orderly.backed.secured _ _ (.shared hi))

/-- Transfer memory is no longer than physical memory. -/
theorem Sound.transfer_size_le (h : Sound x s) (i : RecordId) : (s.transferMemory i).pages.size ≤ 0x200000000 := by
  rw [transferMemory, Std.TreeMap.getD_eq_getD_getElem?]
  cases hi : s.transferMemories[i]? with
  | none => exact Nat.zero_le _
  | some b => exact h.orderly.size_le (h.orderly.backed.secured _ _ (.transfer hi))

/-- Mapping shared memory never stops, and maps its range. -/
theorem mapShared_ends (h : Sound x s) (i id address size : Nat) (asked : Permission) :
    Ends (mapShared i id address size asked) s False fun a t => (address ≠ 0 → a = address) ∧ MapsRange id a size s t := by
  refine .look ?_
  dsimp only
  split
  · exact .of_refused rfl (by simp)
  · split
    · exact .of_refused rfl (by simp)
    · next hsize =>
      have hsize := Decidable.not_not.1 hsize
      exact mapObject_ends h hsize.symm (hsize ▸ h.shared_size_le i) address

/-- Mapping transfer memory never stops, and maps its range. -/
theorem mapTransfer_ends (h : Sound x s) (i id address size : Nat) (asked : Permission) :
    Ends (mapTransfer i id address size asked) s False fun a t => (address ≠ 0 → a = address) ∧ MapsRange id a size s t := by
  refine .look ?_
  dsimp only
  split
  · exact .of_refused rfl (by simp)
  · split
    · exact .of_refused rfl (by simp)
    · next hsize =>
      have hsize := Decidable.not_not.1 hsize
      refine (mapObject_ends h hsize.symm (hsize ▸ h.transfer_size_le i) address).bind fun a t ha => ?_
      -- the list of the memory's mappings is no part of an address space
      exact .of_ok rfl ⟨ha.1, ha.2.positive, ha.2.below, ha.2.unmapped, ha.2.mapping⟩

/-- Unmapping transfer memory never stops, and unmaps its range. -/
theorem unmapTransfer_ends (h : Sound x s) (i id address size : Nat) :
    Ends (unmapTransfer i id address size) s False fun _ t => UnmapsRange id address size s t :=
  (unmapObject_ends h id address size i).bind fun _ _ ha => .of_ok rfl ⟨ha.below, ha.mapping⟩

/-- Lending heap memory stops only for a range of whole pages that leaves the word, and lends just its range. -/
theorem lendHeap_ends (h : Sound x s) (id address size : Nat) (permission : Permission) :
    Ends (lendHeap id address size permission) s (size ≠ 0 ∧ pageSize ∣ address ∧ pageSize ∣ size ∧ wordLimit ≤ address + size)
      fun i t => LendsRange id address size i s t ∧ t.process id = s.process id := by
  unfold lendHeap
  split
  · next h0 => exact .of_error rfl (iff_of_false (by simp) fun hstops => hstops.1 h0)
  · next h0 =>
    refine .look ?_
    dsimp only
    cases hcapture : (s.process id).space.capture address size with
    | error e =>
      refine .of_error rfl ?_
      rw [← AddressSpace.capture_overflow_iff (s := (s.process id).space), hcapture, Except.error.injEq]
      exact (and_iff_right h0).symm
    | ok result =>
      obtain ⟨pages, backing⟩ := result
      obtain ⟨hchain, hbelow⟩ := AddressSpace.capture_chain (h.orderly.backed.paged id) hcapture
      have hfits : ¬ (size ≠ 0 ∧ pageSize ∣ address ∧ pageSize ∣ size ∧ wordLimit ≤ address + size) :=
        fun hstops => Nat.not_le.2 hbelow hstops.2.2.2
      have hfresh : s.transferMemories[s.nextId]? = none := by
        cases hi : s.transferMemories[s.nextId]? with
        | none => rfl
        | some b => exact absurd rfl (h.orderly.not_has_nextId (o := .transferMemory s.nextId) (Records.contains_of_getElem? hi))
      have hsize : pages.size = size := by
        rw [← pages.length_places]
        exact hchain.length_eq (h.orderly.backed.paged id)
      have hlent := (Records.getElem?_insert s.transferMemories s.nextId s.nextId
        { kernel := (s.process id).kernel, pages, backing, permission }).trans (if_pos rfl)
      exact Ends.congr (.of_ok rfl ⟨⟨hbelow, hfresh, _, hlent, hsize,
        hchain.shows (h.orderly.backed.paged id) (h.granted.ordered id)⟩, rfl⟩) (iff_false_intro hfits).symm

/-- Shared memory is made of as many whole pages as it needs. -/
theorem newSharedMemory_run (kernel : RecordId) (kind : RegionKind) (size : Nat) (ownerPermission userPermission : Permission)
    (s : Machine) : (newSharedMemory kernel kind size ownerPermission userPermission).run s =
    match pageAlignUp? size with
    | none => (.error .overflow, s)
    | some whole =>
      match (allocatePages kernel kind (whole / pageSize)).run s with
      | (.error e, t) => (.error e, t)
      | (.ok (allocation, pages), t) => (.ok t.nextId, { t with
          nextId := t.nextId + 1
          sharedMemories := t.sharedMemories.insert t.nextId { kernel, allocation, pages, ownerPermission, userPermission } }) := by
  rw [newSharedMemory, Action.run_bind, wholePages_run]
  cases pageAlignUp? size with
  | none => rfl
  | some whole =>
    dsimp only
    rw [Action.run_bind]
    rcases (allocatePages kernel kind (whole / pageSize)).run s with ⟨e | ⟨allocation, pages⟩, t⟩ <;> rfl

/-- Making shared memory stops only for a size that cannot be rounded up. -/
theorem newSharedMemory_ends (kernel : RecordId) (kind : RegionKind) (size : Nat) (ownerPermission userPermission : Permission)
    (s : Machine) : Ends (newSharedMemory kernel kind size ownerPermission userPermission) s (wordLimit < size + pageSize)
      fun i t => ∃ b, t.sharedMemories[i]? = some b ∧ pageAlignUp? size = some b.pages.size := by
  have hrun := newSharedMemory_run kernel kind size ownerPermission userPermission s
  cases hwhole : pageAlignUp? size with
  | none =>
    rw [hwhole] at hrun
    exact .of_error hrun (iff_of_true rfl (pageAlignUp?_eq_none_iff.1 hwhole))
  | some whole =>
    rw [hwhole] at hrun
    dsimp only at hrun
    refine Ends.congr ?_ (iff_false_intro (fits_of_pageAlignUp? hwhole)).symm
    rcases allocatePages_answers kernel kind (whole / pageSize) s with
      ⟨e, u, hrefused, -, he⟩ | ⟨allocation, pages, u, htaken, hpages, -⟩
    · rw [hrefused] at hrun
      exact .of_refused hrun he
    · rw [htaken] at hrun
      refine .of_ok hrun ⟨_, (Records.getElem?_insert _ _ _ _).trans (if_pos rfl), ?_⟩
      rw [hpages, Nat.div_mul_cancel (pageAlignUp?_eq_some_iff.1 hwhole).1]

/-- Binding an object never stops. -/
theorem generateHandle_ends (id : RecordId) (object : KernelObject) (s : Machine) :
    Ends (generateHandle id object) s False fun handle t =>
      (s.process id).handles.generate object = .ok (handle, (t.process id).handles) ∧ t.transferMemories = s.transferMemories := by
  refine .look ?_
  dsimp only
  cases hgenerate : (s.process id).handles.generate object with
  | ok result =>
    refine .of_ok rfl ⟨?_, rfl⟩
    have hhandles := congrArg Process.handles ((process_insert s id id { s.process id with handles := result.2 }).trans (if_pos rfl))
    exact congrArg (fun handles => Except.ok (result.1, handles)) hhandles.symm
  | error e =>
    cases e with
    | outOfHandles capacity => exact .of_refused rfl (by simp [KernelError.ofHandleError])
    | invalidHandle handle => exact .of_refused rfl (by simp [KernelError.ofHandleError])

/-- What is lent gets a handle. -/
theorem lendHeap_handle_ends (h : Sound x s) (id address size : Nat) (permission : Permission) :
    Ends (lendHeap id address size permission >>= fun i => generateHandle id (.transferMemory i)) s
      (size ≠ 0 ∧ pageSize ∣ address ∧ pageSize ∣ size ∧ wordLimit ≤ address + size) fun handle t => ∃ i,
        (s.process id).handles.generate (.transferMemory i) = .ok (handle, (t.process id).handles) ∧
        LendsRange id address size i s t := by
  refine (lendHeap_ends h id address size permission).bind ?_
  rintro i t ⟨hlends, hprocess⟩
  refine (generateHandle_ends id (.transferMemory i) t).imp ?_
  rintro handle u ⟨hgenerate, hmemories⟩
  exact ⟨i, hprocess ▸ hgenerate, hlends.below, hlends.fresh, hmemories ▸ hlends.memory⟩

/-! ### Accesses -/

/-- A range that can be translated ends within the word. -/
theorem translate_below {space : AddressSpace} {access : Access} {pieces : List (Nat × Nat)}
    (h : space.translate address length access = .ok pieces) : address + length < wordLimit := by
  unfold AddressSpace.translate at h
  split at h
  · cases h
  · next hword => exact Nat.not_le.1 hword

/-- Reading memory never stops, and answers the bytes of its range. -/
theorem readMemory_ends (h : Sound x s) (hid : s.has (.process id) = true) (address length : Nat) :
    Ends (readMemory id address length) s False fun bytes t => t = s ∧
      ∃ places, IsRange s id address length places ∧ bytes = (s.kernel x.kernel).host.memory.bytesAt places := by
  have hrun := readMemory_run id address length s
  cases htranslate : (s.process id).space.translate address length .read with
  | error e =>
    rw [htranslate] at hrun
    exact .of_refused hrun fun he => (h.worded id).tidy.translate_ne_overflow _ _ _ (htranslate.trans (he ▸ rfl))
  | ok pieces =>
    have hbelow := translate_below htranslate
    have hfrom := htranslate
    rw [AddressSpace.translate, if_neg (Nat.not_le.2 hbelow)] at hfrom
    obtain ⟨places, hcuts, hplaces⟩ := (h.granted.ordered id).translateFrom_places hfrom
    have hholds : (s.kernel x.kernel).host.memory.Holds places := by
      intro place hp
      obtain ⟨a, -, hat⟩ := List.mem_map.1 (hplaces ▸ List.mem_map_of_mem hp)
      exact h.holds_of_physicalAt hat
    rw [htranslate, h.orderly.simple.kernelOf id hid] at hrun
    dsimp only at hrun
    rw [HostMemory.readChunks_ok hcuts hholds] at hrun
    exact .of_ok hrun ⟨rfl, places, ⟨hbelow, hplaces⟩, rfl⟩

/-- Writing memory never stops, and changes the bytes of its range. -/
theorem writeMemory_ends (h : Sound x s) (hid : s.has (.process id) = true) (address : Nat) (bytes : Bytes) :
    Ends (writeMemory id address bytes) s False fun _ t => ∃ places, IsRange s id address bytes.length places ∧
      t = (setMemory x.kernel ((s.kernel x.kernel).host.memory.put places bytes) s).2 := by
  rcases h.writeMemory_cases hid address bytes with ⟨e, htranslate, hrun⟩ | ⟨pieces, places, htranslate, -, hplaces, hrun⟩
  · exact .of_refused hrun fun he => (h.worded id).tidy.translate_ne_overflow _ _ _ (htranslate.trans (he ▸ rfl))
  · exact .of_ok hrun ⟨places, ⟨translate_below htranslate, hplaces⟩, rfl⟩

/-! ## Guests -/

/-- Looking a handle up never stops and changes nothing. -/
theorem resolveFor_ends (thread : RecordId) (handle : Handle) (s : Machine) :
    Ends (resolveFor thread handle) s False fun _ t => t = s := by
  refine .look ?_
  dsimp only
  split
  · exact .of_ok rfl rfl
  · split
    · exact .of_ok rfl rfl
    · refine .look ?_
      split
      · exact .of_ok rfl rfl
      · exact .of_refused rfl (by simp)

/-- Looking up what a handle is to stand for never stops and changes nothing. -/
theorem resolveAs_ends {α : Type} (thread : RecordId) (handle : Handle) (cast : KernelObject → Option α) (s : Machine) :
    Ends (resolveAs thread handle cast) s False fun _ t => t = s := by
  refine (resolveFor_ends thread handle s).bind fun object t ht => ?_
  split
  · exact .of_ok rfl ht
  · exact .of_refused rfl (by simp)

/-- The memory call of a guest stops just where it overflows, and serves what it names. -/
theorem runCall_ends (h : Sound x s) (hid : s.has (.process (s.thread thread).process) = true) {call : GuestCall}
    (hmemory : call.IsMemory) :
    Ends (runCall thread call) s call.Overflows fun step t => call.Serves x.kernel (s.thread thread).process s t step := by
  refine .look ?_
  cases call with
  | allocate size permission => exact (allocateHeap_ends h hid size permission).map fun a t ha => ha
  | readMemory address length => exact (readMemory_ends h hid address length).map fun bytes t ha => ha
  | writeMemory address bytes => exact (writeMemory_ends h hid address bytes).map fun _ t ha => ha
  | createTransfer address size permission =>
    refine ((lendHeap_handle_ends h _ address size permission).map fun handle t ha => ?_).map fun raw t ha => ha
    obtain ⟨i, hgenerate, hlends⟩ := ha
    exact ⟨i, handle, rfl, hgenerate, hlends⟩
  | mapShared handle address size asked =>
    refine ((resolveAs_ends thread handle KernelObject.sharedMemory? s).bind ?_).map fun a t ha => ha
    rintro i _ rfl
    exact mapShared_ends h i _ address size asked
  | unmapShared handle address size =>
    refine ((resolveAs_ends thread handle KernelObject.sharedMemory? s).bind ?_).map fun a t ha => ha
    rintro i _ rfl
    exact unmapObject_ends h _ address size i
  | mapTransfer handle address size asked =>
    refine ((resolveAs_ends thread handle KernelObject.transferMemory? s).bind ?_).map fun a t ha => ha
    rintro i _ rfl
    exact mapTransfer_ends h i _ address size asked
  | unmapTransfer handle address size =>
    refine ((resolveAs_ends thread handle KernelObject.transferMemory? s).bind ?_).map fun a t ha => ha
    rintro i _ rfl
    exact unmapTransfer_ends h i _ address size
  | _ => exact hmemory.elim

/-- Whatever was done before, a memory call of a guest and the making of shared memory stop for a sum that leaves the word only if the
arguments say so, and what succeeds was served for exactly the range that was asked for. No other plain sum leaves the word. -/
theorem memoryCalls_overflow_iff (x : Setup) (deeds : List Deed) (hs : afterDeeds x deeds = s) :
    (∀ thread call, s.has (.process (s.thread thread).process) = true → call.IsMemory →
      Ends (runCall thread call) s call.Overflows fun step t => call.Serves x.kernel (s.thread thread).process s t step) ∧
    (∀ kind size ownerPermission userPermission, Ends (newSharedMemory x.kernel kind size ownerPermission userPermission) s
      (wordLimit < size + pageSize) fun i t => ∃ b, t.sharedMemories[i]? = some b ∧ pageAlignUp? size = some b.pages.size) ∧
    (∀ id, (s.process id).space.InWords) ∧ (∀ size, (wholePages size).run s = (pageAlignUpInWords size, s)) ∧
    ∀ kind pages, 0 < pages → Region.takeFirstInWords pages ((s.kernel x.kernel).region kind).free =
      .ok (Region.takeFirst pages ((s.kernel x.kernel).region kind).free) := by
  have h : Sound x s := hs ▸ afterDeeds_sound x deeds
  exact ⟨fun thread call hid hmemory => runCall_ends h hid hmemory, fun kind size _ _ => newSharedMemory_ends x.kernel kind size _ _ s,
    fun id => (h.worded id).inWords, fun size => wholePages_inWords size s,
    fun kind pages hpages => h.orderly.takeFirstInWords_eq kind hpages⟩

/-- The application that lends memory of its heap asks for almost all of the word, and lends a page at its end; the last size that can be
rounded up to pages is refused for another reason. -/
theorem memoryCalls_overflow_iff_lending :
    ((runCall 3 (.allocate 0xfffffffffffff001 .readWrite)).run (afterDeeds plainSetup lending)).1 = .error .overflow ∧
    ((runCall 3 (.allocate 0xfffffffffffff000 .readWrite)).run (afterDeeds plainSetup lending)).1 ≠ .error .overflow ∧
    ((runCall 3 (.createTransfer 0xfffffffffffff000 0x1000 .read)).run (afterDeeds plainSetup lending)).1 = .error .overflow ∧
    ((runCall 3 (.createTransfer 0xfffffffffffff001 0x1000 .read)).run (afterDeeds plainSetup lending)).1 ≠ .error .overflow := by
  obtain ⟨hcalls, -⟩ := memoryCalls_overflow_iff plainSetup lending rfl
  have hid : (afterDeeds plainSetup lending).has (.process ((afterDeeds plainSetup lending).thread 3).process) = true := by decide +kernel
  have hstops (call : GuestCall) (hmemory : call.IsMemory) := (hcalls 3 call hid hmemory).stops_iff
  refine ⟨(hstops _ ?_).2 ?_, (hstops _ ?_).not.2 ?_, (hstops _ ?_).2 ?_, (hstops _ ?_).not.2 ?_⟩
  all_goals decide

/-- Guests stop the machine with a size, and with a range of their heap. -/
theorem memoryCalls_overflow_false : ∃ (x : Setup) (deeds : List Deed) (thread : RecordId),
    ((runCall thread (.allocate 0xffffffffffffffff .readWrite)).run (afterDeeds x deeds)).1 = .error .overflow ∧
    ((runCall thread (.createTransfer 0xfffffffffffff000 0x1000 .read)).run (afterDeeds x deeds)).1 = .error .overflow ∧
    ((newSharedMemory x.kernel .application 0xffffffffffffffff .readWrite .read).run (afterDeeds x deeds)).1 = .error .overflow := by
  have h := afterDeeds_sound plainSetup lending
  have hid : (afterDeeds plainSetup lending).has (.process ((afterDeeds plainSetup lending).thread 3).process) = true := by decide +kernel
  refine ⟨plainSetup, lending, 3, (runCall_ends h hid ?_).stops_iff.2 ?_, (runCall_ends h hid ?_).stops_iff.2 ?_,
    (newSharedMemory_ends _ _ _ _ _ _).stops_iff.2 ?_⟩
  all_goals decide

end Machine

end Microkernel
