import Microkernel.Proofs.Machine.Accesses
import Microkernel.Proofs.Machine.Frames
import Microkernel.Proofs.Memory.Gaps
import Microkernel.Proofs.Memory.Regions
import Microkernel.Proofs.Memory.Words

/-!
# Placing memory

Memory objects and fresh heap memory are placed by one rule (`AddressSpace.place`): where the caller says, or at the first free range
of a region. Without a choice of the caller this fails in a region with a large enough gap exactly if the region is overhung
(`placing_iff`).
-/

namespace Microkernel

namespace AddressSpace

variable {s : AddressSpace} {m : Mapping} {base regionSize size a : Nat}

/-- Makes a mapping at an address, or at the first free range of a region for address zero; answers with its address. -/
def place (s : AddressSpace) (base regionSize address size : Nat) (m : Mapping) : Except KernelError (Nat × AddressSpace) :=
  match if address = 0 then s.findFree base regionSize size else .ok address with
  | .error e => .error e
  | .ok address =>
    match s.map { m with address } with
    | .error e => .error e
    | .ok space => .ok (address, space)

/-- At a page border, what is not empty is refused for its range only. -/
theorem map_error_eq {e : KernelError} (haddress : pageSize ∣ m.address) (hsize : 0 < m.size) (h : s.map m = .error e) :
    e = .invalidMemoryState := by
  have hpage : isPageAligned m.address = true := decide_eq_true (Nat.mod_eq_zero_of_dvd haddress)
  unfold map at h
  rw [hpage, Bool.not_true, if_neg Bool.false_ne_true, if_neg (Nat.pos_iff_ne_zero.1 hsize)] at h
  split at h
  · exact (Except.error.inj h).symm
  · cases h

/-- A gap can be mapped. -/
theorem IsGap.map_ok (ho : s.Ordered) (h : s.IsGap base regionSize size a) (hsize : 0 < size) (hm : m.size = size)
    (hword : base + regionSize < wordLimit) : ∃ s', s.map { m with address := a } = .ok s' := by
  cases hmap : s.map { m with address := a } with
  | ok s' => exact ⟨s', rfl⟩
  | error e =>
    have hfits := h.fits
    rcases ho.map_error_iff.1 ⟨e, hmap⟩ with hbad | hbad | hbad | ⟨b, hc, hb⟩
    · exact absurd h.aligned hbad
    · exact absurd (hm.symm.trans hbad) (Nat.pos_iff_ne_zero.1 hsize)
    · change wordLimit - 1 < a + m.size at hbad
      omega
    · obtain ⟨hle, hlt⟩ := Mapping.covers_iff.1 hc
      exact absurd hb (h.unmapped b hle (hm ▸ hlt))

/-- A region with a gap takes a mapping unless it is overhung. -/
theorem Tidy.place_error_iff (h : s.Tidy) (hbase : pageSize ∣ base) (hsize : 0 < size) (hm : m.size = size)
    (hword : s.findFree base regionSize size ≠ .error .overflow) (hgap : ∃ a, s.IsGap base regionSize size a) :
    s.place base regionSize 0 size m = .error .invalidMemoryState ↔ s.Overhung base size := by
  have hfits : size ≤ regionSize := by
    obtain ⟨a, ha⟩ := hgap
    have := ha.above
    have := ha.fits
    omega
  unfold place
  rw [if_pos rfl]
  constructor
  · intro herror
    refine Classical.byContradiction fun hclear => ?_
    rcases (h.findsLowest_iff hbase hsize hword).2 fun hover => hclear hover.2 with ⟨a, hfind, ⟨ha, -⟩⟩ | ⟨-, hnone⟩
    · obtain ⟨s', hmap⟩ := ha.map_ok h.ordered hsize hm (findFree_region hword)
      rw [hfind] at herror
      dsimp only at herror
      rw [hmap] at herror
      cases herror
    · obtain ⟨a, ha⟩ := hgap
      exact absurd ha (hnone a)
  · intro hover
    obtain ⟨hfind, hmapped⟩ := h.ordered.findFree_overhung hfits hover hword
    rw [hfind]
    dsimp only
    obtain ⟨e, he⟩ := h.ordered.map_error_iff (m := { m with address := base }).2
      (.inr (.inr (.inr ⟨base, Mapping.covers_iff.2 ⟨Nat.le_refl _, Nat.lt_add_of_pos_right (hm ▸ hsize)⟩, hmapped⟩)))
    obtain rfl := map_error_eq hbase (hm ▸ hsize) he
    rw [he]

end AddressSpace

namespace Machine

/-! ## Runs -/

/-- A mapping is made where the caller says. -/
theorem mapAt_run (id : RecordId) (address : Nat) (m : Mapping) (s : Machine) : ExceptT.run (do
      let space ← (s.process id).space.map { m with address }
      setSpace id space
      return address : Action Nat) s =
    match (s.process id).space.map { m with address } with
    | .ok space => (.ok address, (setSpace id space s).2)
    | .error e => (.error e, s) := by
  rw [Action.run_except_bind]
  cases (s.process id).space.map { m with address } <;> rfl

/-- The pages of an object are placed in the alias region, or nothing happens. -/
theorem mapObject_run (id : RecordId) (address size : Nat) (m : Mapping) (s : Machine) : (mapObject id address size m).run s =
    if (s.process id).state.isTerminating then (.error .invalidState, s)
    else
      match (s.process id).space.place aliasBase aliasSize address size m with
      | .ok (address, space) => (.ok address, (setSpace id space s).2)
      | .error e => (.error e, s) := by
  rw [mapObject, Action.run_look]
  dsimp only
  split
  · rfl
  · unfold AddressSpace.place
    split
    · rw [Action.run_except_bind]
      cases (s.process id).space.findFree aliasBase aliasSize size with
      | error e => rfl
      | ok address =>
        dsimp only
        rw [mapAt_run]
        cases (s.process id).space.map { m with address } <;> rfl
    · rw [pure_bind, mapAt_run]
      dsimp only
      cases (s.process id).space.map { m with address } <;> rfl

/-- A size is rounded up to pages, or overflows. -/
theorem wholePages_run (size : Nat) (s : Machine) : (wholePages size).run s =
    match pageAlignUp? size with
    | some whole => (.ok whole, s)
    | none => (.error .overflow, s) := by
  unfold wholePages
  cases pageAlignUp? size <;> rfl

/-- Rounding up stops for nothing but its product. -/
theorem wholePages_inWords (size : Nat) (s : Machine) : (wholePages size).run s = (pageAlignUpInWords size, s) := by
  rw [wholePages_run, pageAlignUpInWords_eq]
  cases pageAlignUp? size <;> rfl

/-- What fresh heap memory is mapped as. -/
def heapMapping (allocation : AllocationId) (pages : PageList) (permission : Permission) : Mapping :=
  { Mapping.ofPages 0 pages permission .normal with backing := [allocation] }

/-- Owned pages are mapped, and the allocation behind them is kept alive; or nothing happens. -/
theorem mapOwned_run (id : RecordId) (address : Nat) (allocation : AllocationId) (pages : PageList) (permission : Permission)
    (state : MemoryState) (s : Machine) : (mapOwned id address allocation pages permission state).run s =
    match (s.process id).space.map { Mapping.ofPages address pages permission state with backing := [allocation] } with
    | .ok space => (.ok (), (setSpace id space s).2)
    | .error e => (.error e, s) := by
  rw [mapOwned, Action.run_look, Action.run_except_bind]
  cases (s.process id).space.map { Mapping.ofPages address pages permission state with backing := [allocation] } <;> rfl

/-- Whole pages are taken and placed in the heap region, or given back. -/
theorem allocateHeap_run (id : RecordId) (size : Nat) (permission : Permission) (s : Machine) :
    (allocateHeap id size permission).run s =
    if size = 0 then (.error (.invalidSize 0), s)
    else
      match pageAlignUp? size with
      | none => (.error .overflow, s)
      | some whole =>
        match (allocateFor id (whole / pageSize)).run s with
        | (.error e, t) => (.error e, t)
        | (.ok (allocation, pages), t) =>
          match (t.process id).space.place heapBase heapSize 0 whole (heapMapping allocation pages permission) with
          | .ok (address, space) => (.ok address, (setSpace id space t).2)
          | .error e => (.error e, (freeAllocation allocation t).2) := by
  unfold allocateHeap
  split
  · rfl
  · rw [Action.run_bind, wholePages_run]
    cases pageAlignUp? size with
    | none => rfl
    | some whole =>
      dsimp only
      rw [Action.run_bind]
      rcases (allocateFor id (whole / pageSize)).run s with ⟨e | ⟨allocation, pages⟩, t⟩
      · rfl
      · have hplace : ExceptT.run (do
            let address ← ((← get).process id).space.findFree heapBase heapSize whole
            mapOwned id address allocation pages permission .normal
            return address : Action Nat) t =
            match (t.process id).space.place heapBase heapSize 0 whole (heapMapping allocation pages permission) with
            | .ok (address, space) => (.ok address, (setSpace id space t).2)
            | .error e => (.error e, t) := by
          rw [Action.run_look, Action.run_except_bind]
          unfold AddressSpace.place
          rw [if_pos rfl]
          cases (t.process id).space.findFree heapBase heapSize whole with
          | error e => rfl
          | ok address =>
            dsimp only
            rw [Action.run_bind, mapOwned_run]
            have hmapping : { Mapping.ofPages address pages permission .normal with backing := [allocation] } =
              { heapMapping allocation pages permission with address } := rfl
            rw [hmapping]
            dsimp only
            cases (t.process id).space.map { heapMapping allocation pages permission with address } <;> rfl
        dsimp only
        rw [givingBack, Action.run_tryCatch, hplace]
        rcases (t.process id).space.place heapBase heapSize 0 whole (heapMapping allocation pages permission) with
          e | ⟨address, space⟩ <;> rfl

/-! ## Refusals -/

/-- As many pages as asked for are taken and processes stay, or the region refuses. -/
theorem allocatePages_answers (kernel : RecordId) (kind : RegionKind) (n : Nat) (s : Machine) :
    (∃ e t, (allocatePages kernel kind n).run s = (.error e, t) ∧ e ≠ .invalidMemoryState ∧ e ≠ .overflow) ∨
    ∃ allocation pages t, (allocatePages kernel kind n).run s = (.ok (allocation, pages), t) ∧ pages.size = n * pageSize ∧
      t.processes = s.processes := by
  rw [allocatePages_run]
  cases hdrawn : (s.drawn kernel kind n).2.2 with
  | error e =>
    refine .inl ⟨e, _, rfl, ?_⟩
    rcases Region.allocate_error hdrawn with rfl | rfl | ⟨reason, rfl⟩ <;> exact ⟨by simp, by simp⟩
  | ok pages => exact .inr ⟨_, pages, _, rfl, Region.allocate_size hdrawn, rfl⟩

/-- Pages for a process come from the region of its kind. -/
theorem allocateFor_run (id : RecordId) (n : Nat) (s : Machine) :
    (allocateFor id n).run s = (allocatePages (s.process id).kernel (s.process id).region n).run s := by
  rw [allocateFor, Action.run_look]

variable {s : Machine} {id : RecordId} {size whole : Nat} {m : Mapping}

/-- Where there is a gap in the alias region, placing an object there fails for what is mapped only if the region is overhung. -/
theorem mapObject_refused_iff (h : (s.process id).space.Tidy) (hrunning : (s.process id).state.isTerminating = false)
    (hsize : 0 < size) (hm : m.size = size) (hword : (s.process id).space.findFree aliasBase aliasSize size ≠ .error .overflow)
    (hgap : ∃ a, (s.process id).space.IsGap aliasBase aliasSize size a) :
    ((mapObject id 0 size m).run s).1 = .error .invalidMemoryState ↔ (s.process id).space.Overhung aliasBase size := by
  rw [← h.place_error_iff (Nat.dvd_of_mod_eq_zero rfl) hsize hm hword hgap, mapObject_run, hrunning, if_neg Bool.false_ne_true]
  rcases (s.process id).space.place aliasBase aliasSize 0 size m with e | ⟨address, space⟩
  · dsimp only
    rw [Except.error.injEq, Except.error.injEq]
  · exact ⟨by rintro ⟨⟩, by rintro ⟨⟩⟩

/-- Where there is a gap in the heap region, allocating fails for what is mapped only if there are pages and the region is overhung. -/
theorem allocateHeap_refused_iff {permission : Permission} (h : (s.process id).space.Tidy) (hsize : 0 < size)
    (hwhole : pageAlignUp? size = some whole) (hword : (s.process id).space.findFree heapBase heapSize whole ≠ .error .overflow)
    (hgap : ∃ a, (s.process id).space.IsGap heapBase heapSize whole a) :
    ((allocateHeap id size permission).run s).1 = .error .invalidMemoryState ↔
      (s.process id).space.Overhung heapBase whole ∧ ∃ taken t, (allocateFor id (whole / pageSize)).run s = (.ok taken, t) := by
  obtain ⟨hdvd, hle, -, -⟩ := pageAlignUp?_eq_some_iff.1 hwhole
  rw [allocateHeap_run, if_neg (Nat.pos_iff_ne_zero.1 hsize), hwhole]
  dsimp only
  rw [allocateFor_run]
  rcases allocatePages_answers (s.process id).kernel (s.process id).region (whole / pageSize) s with
    ⟨e, t, hrun, hother, -⟩ | ⟨allocation, pages, t, hrun, hpages, hprocesses⟩ <;> rw [hrun]
  · refine ⟨fun he => absurd (Except.error.inj he) hother, ?_⟩
    rintro ⟨-, taken, t, htaken⟩
    cases htaken
  · have hsame : t.process id = s.process id := by rw [process, process, hprocesses]
    have hm : (heapMapping allocation pages permission).size = whole := hpages.trans (Nat.div_mul_cancel hdvd)
    rw [← h.place_error_iff (m := heapMapping allocation pages permission) (Nat.dvd_of_mod_eq_zero rfl)
      (Nat.lt_of_lt_of_le hsize hle) hm hword hgap]
    dsimp only
    rw [hsame]
    rcases (s.process id).space.place heapBase heapSize 0 whole (heapMapping allocation pages permission) with e | ⟨address, space⟩
    · dsimp only
      rw [Except.error.injEq, Except.error.injEq]
      exact ⟨fun he => ⟨he, _, t, rfl⟩, fun he => he.1⟩
    · exact ⟨by rintro ⟨⟩, by rintro ⟨⟨⟩, -⟩⟩

/-! ## Gaps that are found -/

/-- Whatever is mapped and unmapped: without overflow, `findFree` finds the lowest gap, or none if there is none, unless the base of
the region is overhung, and placing an object or heap memory in a region with a gap fails for what is mapped only then. -/
theorem placing_iff (requests : List AddressSpace.Request) :
    (∀ base regionSize size, pageSize ∣ base → pageSize ∣ size → 0 < size →
      (AddressSpace.after requests).findFree base regionSize size ≠ .error .overflow →
      ((AddressSpace.after requests).FindsLowest base regionSize size ↔
        ¬ (size ≤ regionSize ∧ (AddressSpace.after requests).Overhung base size))) ∧
    ∀ (s : Machine) id, (s.process id).space = AddressSpace.after requests →
      (∀ size m, (s.process id).state.isTerminating = false → 0 < size → m.size = size →
        (s.process id).space.findFree aliasBase aliasSize size ≠ .error .overflow →
        (∃ a, (s.process id).space.IsGap aliasBase aliasSize size a) →
        (((mapObject id 0 size m).run s).1 = .error .invalidMemoryState ↔ (s.process id).space.Overhung aliasBase size)) ∧
      ∀ size whole permission, 0 < size → pageAlignUp? size = some whole →
        (s.process id).space.findFree heapBase heapSize whole ≠ .error .overflow →
        (∃ a, (s.process id).space.IsGap heapBase heapSize whole a) →
        (((allocateHeap id size permission).run s).1 = .error .invalidMemoryState ↔
          (s.process id).space.Overhung heapBase whole ∧ ∃ taken t, (allocateFor id (whole / pageSize)).run s = (.ok taken, t)) := by
  have htidy := AddressSpace.after_tidy requests
  refine ⟨fun base regionSize size hbase _ hsize hword => htidy.findsLowest_iff hbase hsize hword, fun s id hspace => ?_⟩
  rw [← hspace] at htidy
  exact ⟨fun size m hrunning hsize hm hword hgap => mapObject_refused_iff htidy hrunning hsize hm hword hgap,
    fun size whole permission hsize hwhole hword hgap => allocateHeap_refused_iff htidy hsize hwhole hword hgap⟩

/-- Two pages of an object are mapped over the beginning of the alias region. -/
def overhanging : List AddressSpace.Request :=
  [.map (.ofPages (aliasBase - pageSize) ⟨[⟨0, 2⟩]⟩ .readWrite .shared) rfl]

/-- Two pages begin one page below the alias region. -/
theorem mappings_overhanging : (AddressSpace.after overhanging).mappings =
    [.ofPages (aliasBase - pageSize) ⟨[⟨0, 2⟩]⟩ .readWrite .shared] := rfl

/-- Behind the two pages everything is free. -/
theorem isGap_overhanging {base regionSize a : Nat} (haligned : pageSize ∣ a) (habove : base ≤ a)
    (hfits : a + pageSize ≤ base + regionSize) (hbehind : aliasBase + pageSize ≤ a) :
    (AddressSpace.after overhanging).IsGap base regionSize pageSize a := by
  refine ⟨haligned, habove, hfits, ?_⟩
  rintro b hle - ⟨m, hm, hc⟩
  rw [mappings_overhanging, List.mem_singleton] at hm
  subst hm
  have hlt : b < aliasBase - pageSize + 2 * pageSize := (Mapping.covers_iff.1 hc).2
  simp only [aliasBase, pageSize] at hlt hbehind
  omega

/-- The two pages overhang the alias region by one page. -/
theorem overhung_overhanging : (AddressSpace.after overhanging).Overhung aliasBase pageSize := by
  refine ⟨_, List.mem_of_mem_head? rfl, by decide, by decide, fun m hm hin => ?_⟩
  rw [mappings_overhanging, List.mem_singleton] at hm
  subst hm
  exact absurd hin (by decide)

/-- The object's pages make the alias region fail, and heap memory is still placed. -/
theorem placing_iff_overhanging : ¬ (AddressSpace.after overhanging).FindsLowest aliasBase aliasSize pageSize ∧
    ((mapObject 0 0 pageSize (.ofPages 0 ⟨[⟨0x4000, 1⟩]⟩ .read .shared)).run (seeing (AddressSpace.after overhanging))).1 =
      .error .invalidMemoryState ∧
    ((allocateHeap 0 1 .readWrite).run (seeing (AddressSpace.after overhanging))).1 ≠ .error .invalidMemoryState := by
  obtain ⟨hfinds, hplaces⟩ := placing_iff overhanging
  have hspace : ((seeing (AddressSpace.after overhanging)).process 0).space = AddressSpace.after overhanging := by rw [process_seeing]
  obtain ⟨halias, hheap⟩ := hplaces (seeing (AddressSpace.after overhanging)) 0 hspace
  rw [hspace] at halias hheap
  refine ⟨fun hlowest => ?_, ?_, fun hrefused => ?_⟩
  · have hword : (AddressSpace.after overhanging).findFree aliasBase aliasSize pageSize ≠ .error .overflow := by decide
    exact (hfinds aliasBase aliasSize pageSize (by decide) (by decide) (by decide) hword).1 hlowest ⟨by decide, overhung_overhanging⟩
  · refine (halias pageSize _ ?_ (by decide) rfl (by decide) ⟨aliasBase + pageSize, ?_⟩).2 overhung_overhanging
    · rw [process_seeing]
      rfl
    · exact isGap_overhanging (by decide) (by decide) (by decide) (by decide)
  · have hgap : ∃ a, (AddressSpace.after overhanging).IsGap heapBase heapSize pageSize a :=
      ⟨heapBase, isGap_overhanging (by decide) (by decide) (by decide) (by decide)⟩
    obtain ⟨⟨m, hm, -, hover, -⟩, -⟩ := (hheap 1 pageSize .readWrite (by decide) rfl (by decide) hgap).1 hrefused
    rw [mappings_overhanging, List.mem_singleton] at hm
    subst hm
    exact absurd hover (by decide)

/-- The first page of the alias region is mapped and yet given for free, although the page behind it is a gap, and so no object can be
placed there. -/
theorem placing_false : (AddressSpace.after overhanging).findFree aliasBase aliasSize pageSize = .ok aliasBase ∧
    (AddressSpace.after overhanging).Mapped aliasBase ∧
    (AddressSpace.after overhanging).IsGap aliasBase aliasSize pageSize (aliasBase + pageSize) ∧
    ((mapObject 0 0 pageSize (.ofPages 0 ⟨[⟨0x4000, 1⟩]⟩ .read .shared)).run (seeing (AddressSpace.after overhanging))).1 =
      .error .invalidMemoryState :=
  ⟨rfl, ⟨_, List.mem_of_mem_head? rfl, by decide⟩, isGap_overhanging (by decide) (by decide) (by decide) (by decide),
    by decide +kernel⟩

end Machine

end Microkernel
