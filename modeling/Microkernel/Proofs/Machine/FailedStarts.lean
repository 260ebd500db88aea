import Microkernel.Proofs.Machine.Placing
import Microkernel.Proofs.Machine.ProcessIds
import Microkernel.Proofs.Machine.Writing

/-!
# Starts that fail

A process that is being made has taken pages from its region, for its code and for the page of its thread. When a later step fails all
of them go back, and as the free runs of a region are known from what is out of it (`Allocator.Kept.region_eq`), the region is as it
was, run by run. So a start that fails leaves no trace in the kernel (`failed_start_traceless`).
-/

namespace Microkernel

variable {a : MemoryArrange} {kind : RegionKind} {held : List PageList}

/-! ## Regions of an arrangement -/

/-- The region of a kind, with the allocations that are out of it. -/
def Region.KeptIn (a : MemoryArrange) (r : Region) (kind : RegionKind) (held : List PageList) : Prop :=
  Allocator.Kept kind (a.base kind) (a.regionSize kind) { region := r, held }

namespace Region.KeptIn

variable {r : Region}

/-- A region that is kept is of its kind. -/
theorem kind_eq (h : r.KeptIn a kind held) : r.kind = kind := congrArg Region.kind h.frame

/-- The region lies in a memory that is as large as the arrangement asks for. -/
theorem fitsIn (h : r.KeptIn a kind held) {size : Nat} (hsize : a.totalSize ≤ size) : r.FitsIn size := by
  intro page hp
  obtain ⟨htotal, hword⟩ := MemoryArrange.le_totalSize (h.covers.subset (List.mem_append_left _ hp))
  exact ⟨Nat.le_trans htotal hsize, hword⟩

/-- The region hands out pages, or it refuses and nothing has happened. -/
theorem allocate_cases (h : r.KeptIn a kind held) {host : Host} (hsize : a.totalSize ≤ host.memory.size) (n : Nat) :
    (∃ e, r.allocate host n = (r, host, .error e)) ∨
    ∃ pages r' host', r.allocate host n = (r', host', .ok pages) ∧ host'.memory.size = host.memory.size ∧
      r'.KeptIn a kind (pages :: held) := by
  rcases Region.allocate_cases r host n (h.fitsIn hsize) with hrefused | ⟨address, free, host', hrun, hmemory, -, -⟩
  · exact .inl hrefused
  · refine .inr ⟨_, _, host', hrun, hmemory, ?_⟩
    have hgrant := Allocator.Kept.grant h (show (r.allocate host n).2.2 = .ok (.ofRun address n) by rw [hrun])
    rwa [hrun] at hgrant

end Region.KeptIn

/-! ## Kernels -/

namespace Kernel

/-- The regions of the kernel have come about by allocations and drops, whatever was asked of them. -/
def Used (k : Kernel) : Prop :=
  ∃ requests : RegionKind → List Allocator.Request,
    (∀ kind, ∀ request ∈ requests kind,
      request.Clears (k.config.memoryArrange.base kind) (k.config.memoryArrange.regionSize kind)) ∧
    k.regions = RegionKind.all.map fun kind =>
      (Allocator.after kind (k.config.memoryArrange.base kind) (k.config.memoryArrange.regionSize kind) (requests kind)).region

/-- The kernel has all its regions in the memory of its host, and allocations are out of them. -/
structure Arranged (k : Kernel) (a : MemoryArrange) : Prop where
  complete : k.Complete
  memory : a.totalSize ≤ k.host.memory.size
  kept : ∀ kind, ∃ held, (k.region kind).KeptIn a kind held

/-- Used regions in the memory of their host are arranged. -/
theorem Used.arranged {k : Kernel} (h : k.Used) (hmemory : k.config.memoryArrange.totalSize ≤ k.host.memory.size) :
    k.Arranged k.config.memoryArrange := by
  obtain ⟨requests, hclears, hregions⟩ := h
  have hkept (kind : RegionKind) := (Allocator.kept_new kind (k.config.memoryArrange.base kind)
    (k.config.memoryArrange.regionSize kind)).foldl (hclears kind)
  have hkind (kind : RegionKind) : (Allocator.after kind (k.config.memoryArrange.base kind)
      (k.config.memoryArrange.regionSize kind) (requests kind)).region.kind = kind := congrArg Region.kind (hkept kind).frame
  constructor
  case complete =>
    rw [Complete, hregions, List.map_map]
    exact (List.map_congr_left fun kind _ => hkind kind).trans (List.map_id _)
  case memory => exact hmemory
  case kept =>
    intro kind
    have hregion : k.region kind = (Allocator.after kind (k.config.memoryArrange.base kind)
        (k.config.memoryArrange.regionSize kind) (requests kind)).region := by
      unfold region
      rw [hregions]
      cases kind <;> simp [RegionKind.all, hkind]
    rw [hregion]
    exact ⟨_, hkept kind⟩

/-- What has become of a kernel that handed pages of one region out: those in the list are out, and all else that the kernel
remembers is as it was. -/
structure Handed (a : MemoryArrange) (k : Kernel) (kind : RegionKind) (held : List PageList) (k' : Kernel) : Prop where
  processes : k'.processes = k.processes
  audit : k'.audit = k.audit
  namedPorts : k'.namedPorts = k.namedPorts
  memory : a.totalSize ≤ k'.host.memory.size
  complete : k'.Complete
  others : ∀ other, other ≠ kind → k'.region other = k.region other
  kept : (k'.region kind).KeptIn a kind held

namespace Handed

variable {k k' k'' : Kernel}

/-- At first nothing was handed out. -/
theorem refl (h : k.Arranged a) (hkept : (k.region kind).KeptIn a kind held) : Handed a k kind held k :=
  ⟨rfl, rfl, rfl, h.memory, h.complete, fun _ _ => rfl, hkept⟩

/-- A kernel that differs in none of this. -/
theorem of_same (h : Handed a k kind held k') (hprocesses : k''.processes = k'.processes) (haudit : k''.audit = k'.audit)
    (hports : k''.namedPorts = k'.namedPorts) (hhost : k''.host = k'.host) (hregions : k''.regions = k'.regions) :
    Handed a k kind held k'' := by
  have hregion (kind : RegionKind) : k''.region kind = k'.region kind := by rw [region, hregions, region]
  refine ⟨hprocesses.trans h.processes, haudit.trans h.audit, hports.trans h.namedPorts, hhost ▸ h.memory, ?_,
    fun other ho => (hregion other).trans (h.others other ho), hregion kind ▸ h.kept⟩
  rw [Complete, hregions]
  exact h.complete

/-- In which order the pages are out does not matter. -/
theorem perm (h : Handed a k kind held k') {held' : List PageList} (hperm : held'.Perm held) : Handed a k kind held' k' :=
  ⟨h.processes, h.audit, h.namedPorts, h.memory, h.complete, h.others, Allocator.Kept.perm h.kept hperm⟩

/-- Another region of the kind, and another host with as much memory. -/
theorem replace (h : Handed a k kind held k') {r : Region} {held' : List PageList} (hr : r.KeptIn a kind held')
    {host : Host} (hhost : host.memory.size = k'.host.memory.size) : Handed a k kind held' { k'.setRegion r with host } := by
  have hregion (other : RegionKind) : (k'.setRegion r).region other = if other = kind then r else k'.region other := by
    rw [h.complete.region_setRegion, hr.kind_eq]
  refine ⟨h.processes, h.audit, h.namedPorts, hhost.symm ▸ h.memory, h.complete.setRegion r, fun other ho => ?_, ?_⟩
  · exact ((hregion other).trans (if_neg ho)).trans (h.others other ho)
  · exact (congrArg (Region.KeptIn a · kind held') ((hregion kind).trans (if_pos rfl))).mpr hr

/-- When all that was handed out has come back the regions are as they were. -/
theorem regions_eq (h : Handed a k kind held k') (hk : k.Complete) (hkept : (k.region kind).KeptIn a kind held) :
    k'.regions = k.regions := by
  rw [h.complete.regions_eq, hk.regions_eq]
  refine List.map_congr_left fun other _ => ?_
  by_cases heq : other = kind
  · exact heq ▸ Allocator.Kept.region_eq h.kept hkept
  · exact h.others other heq

end Handed

end Kernel

namespace AddressSpace

/-- The mappings with a new one are the new one and the others, in some order. -/
theorem perm_insert (m : Mapping) (mappings : List Mapping) : (insert m mappings).Perm (m :: mappings) := by
  induction mappings with
  | nil => exact List.Perm.refl _
  | cons next rest ih =>
    unfold insert
    split
    · exact List.Perm.refl _
    · exact (ih.cons next).trans (List.Perm.swap m next rest)

end AddressSpace

namespace Machine

variable {α : Type} {s t u : Machine} {kernel id : RecordId} {own rest : List (AllocationId × PageList)} {e : KernelError}

/-! ## Allocations on the way -/

/-- A kernel has handed out the pages of allocations that were made since, on top of what was out before. -/
structure Underway (a : MemoryArrange) (kernel : RecordId) (kind : RegionKind) (held : List PageList) (s : Machine)
    (own : List (AllocationId × PageList)) (t : Machine) : Prop where
  handed : (s.kernel kernel).Handed a kind (own.map Prod.snd ++ held) (t.kernel kernel)
  others : ∀ other, other ≠ kernel → t.kernel other = s.kernel other
  allocations : ∀ mine ∈ own, t.allocations[mine.1]? = some { kernel, region := kind, pages := mine.2 }
  old : ∀ mine ∈ own, mine.1 < t.nextId
  distinct : (own.map Prod.fst).Nodup

namespace Underway

/-- Only kernels and allocations count. -/
theorem of_same (h : Underway a kernel kind held s own t) (hkernels : u.kernels = t.kernels)
    (hallocations : u.allocations = t.allocations) (hnext : t.nextId ≤ u.nextId) : Underway a kernel kind held s own u := by
  have hkernel (other : RecordId) : u.kernel other = t.kernel other := by rw [Machine.kernel, hkernels, Machine.kernel]
  refine ⟨hkernel kernel ▸ h.handed, fun other ho => (hkernel other).trans (h.others other ho), ?_, ?_, h.distinct⟩
  · rw [hallocations]
    exact h.allocations
  · exact fun mine hm => Nat.lt_of_lt_of_le (h.old mine hm) hnext

/-- A kernel that has changed in nothing that counts. -/
theorem setKernel (h : Underway a kernel kind held s own t) {k : Kernel}
    (hk : (s.kernel kernel).Handed a kind (own.map Prod.snd ++ held) k) :
    Underway a kernel kind held s own (setKernel kernel k t).2 := by
  have hkernel (other : RecordId) : (Machine.setKernel kernel k t).2.kernel other = if other = kernel then k else t.kernel other :=
    kernel_insert t kernel other k
  refine ⟨?_, fun other ho => ?_, h.allocations, h.old, h.distinct⟩
  · rw [hkernel, if_pos rfl]
    exact hk
  · rw [hkernel, if_neg ho]
    exact h.others other ho

/-- A thread id costs no pages. -/
theorem takeThreadId (h : Underway a kernel kind held s own t) : Underway a kernel kind held s own (takeThreadId kernel t).2 :=
  h.setKernel (h.handed.of_same rfl rfl rfl rfl rfl)

/-- Pages are taken under a fresh number, or nothing happens. -/
theorem allocate (h : Underway a kernel kind held s own t) (n : Nat) :
    (∃ e u, (allocatePages kernel kind n).run t = (.error e, u) ∧ u.processes = t.processes ∧
      Underway a kernel kind held s own u) ∨
    ∃ pages u, (allocatePages kernel kind n).run t = (.ok (t.nextId, pages), u) ∧ u.processes = t.processes ∧
      Underway a kernel kind held s ((t.nextId, pages) :: own) u := by
  have hkernel (other : RecordId) : (t.afterDrawing kernel kind n).kernel other = if other = kernel then
      { (t.kernel kernel).setRegion (t.drawn kernel kind n).1 with host := (t.drawn kernel kind n).2.1 } else t.kernel other :=
    kernel_insert _ _ _ _
  rw [allocatePages_run]
  rcases h.handed.kept.allocate_cases h.handed.memory n with ⟨e, hdrawn⟩ | ⟨pages, r, host, hdrawn, hhost, hr⟩
  · have hdrawn : t.drawn kernel kind n = ((t.kernel kernel).region kind, (t.kernel kernel).host, .error e) := hdrawn
    refine .inl ⟨e, t.afterDrawing kernel kind n, by rw [hdrawn], rfl, ?_⟩
    refine ⟨?_, fun other ho => ?_, h.allocations, h.old, h.distinct⟩
    · rw [hkernel, if_pos rfl, hdrawn]
      exact h.handed.replace h.handed.kept rfl
    · rw [hkernel, if_neg ho]
      exact h.others other ho
  · have hdrawn : t.drawn kernel kind n = (r, host, .ok pages) := hdrawn
    refine .inr ⟨pages, { t.afterDrawing kernel kind n with
      nextId := t.nextId + 1
      allocations := t.allocations.insert t.nextId { kernel, region := kind, pages } }, by rw [hdrawn], rfl, ?_⟩
    have hfresh : ∀ mine ∈ own, mine.1 ≠ t.nextId := fun mine hm => Nat.ne_of_lt (h.old mine hm)
    constructor
    case handed =>
      refine (congrArg ((s.kernel kernel).Handed a kind _) ((hkernel kernel).trans (if_pos rfl))).mpr ?_
      rw [hdrawn]
      exact h.handed.replace hr hhost
    case others => exact fun other ho => ((hkernel other).trans (if_neg ho)).trans (h.others other ho)
    case allocations =>
      intro mine hm
      refine (Records.getElem?_insert _ _ _ _).trans ?_
      rcases List.mem_cons.1 hm with rfl | hm
      · exact if_pos rfl
      · exact (if_neg (hfresh mine hm)).trans (h.allocations mine hm)
    case old =>
      intro mine hm
      rcases List.mem_cons.1 hm with rfl | hm
      · exact Nat.lt_succ_self _
      · exact Nat.lt_succ_of_lt (h.old mine hm)
    case distinct =>
      refine List.nodup_cons.2 ⟨fun hin => ?_, h.distinct⟩
      obtain ⟨mine, hm, heq⟩ := List.mem_map.1 hin
      exact hfresh mine hm heq

/-- The pages of the last allocation go back. -/
theorem free {mine : AllocationId × PageList} (h : Underway a kernel kind held s (mine :: own) t) :
    Underway a kernel kind held s own (freeAllocation mine.1 t).2 := by
  obtain ⟨hnew, hdistinct⟩ := List.nodup_cons.1 h.distinct
  have hkernel (other : RecordId) :
      (t.withRegion kernel (((t.kernel kernel).region kind).release mine.2) (t.kernel kernel).host).kernel other =
      if other = kernel then { (t.kernel kernel).setRegion (((t.kernel kernel).region kind).release mine.2) with
        host := (t.kernel kernel).host } else t.kernel other := kernel_insert _ _ _ _
  rw [freeAllocation_run, h.allocations mine List.mem_cons_self]
  constructor
  case handed =>
    refine (congrArg ((s.kernel kernel).Handed a kind _) ((hkernel kernel).trans (if_pos rfl))).mpr ?_
    exact h.handed.replace (Allocator.Kept.release h.handed.kept) rfl
  case others => exact fun other ho => ((hkernel other).trans (if_neg ho)).trans (h.others other ho)
  case allocations =>
    intro other ho
    refine (Records.getElem?_erase _ _ _).trans ?_
    rw [if_neg fun heq : other.1 = mine.1 => hnew (heq ▸ List.mem_map_of_mem ho)]
    exact h.allocations other (List.mem_cons_of_mem _ ho)
  case old => exact fun other ho => h.old other (List.mem_cons_of_mem _ ho)
  case distinct => exact hdistinct

/-- In which order the own pages are out does not matter. -/
theorem perm (h : Underway a kernel kind held s own t) (hperm : rest.Perm own) : Underway a kernel kind held s rest t where
  handed := h.handed.perm ((hperm.map Prod.snd).append_right held)
  others := h.others
  allocations mine hm := h.allocations mine (hperm.subset hm)
  old mine hm := h.old mine (hperm.subset hm)
  distinct := (hperm.map Prod.fst).nodup_iff.2 h.distinct

/-- All of them go back, in whatever order. -/
theorem freed (h : Underway a kernel kind held s own t) {ids : List AllocationId} (hids : ids.Perm (own.map Prod.fst)) :
    Underway a kernel kind held s [] (t.freed ids) := by
  induction ids generalizing t own with
  | nil =>
    obtain rfl : own = [] := List.map_eq_nil_iff.1 hids.symm.eq_nil
    exact h
  | cons id ids ih =>
    obtain ⟨mine, hmine, rfl⟩ := List.mem_map.1 (hids.subset List.mem_cons_self)
    obtain ⟨before, after, rfl⟩ := List.append_of_mem hmine
    have hfirst : (mine :: (before ++ after)).Perm (before ++ mine :: after) := List.perm_middle.symm
    exact ih ((h.perm hfirst).free) ((hids.trans (hfirst.map Prod.fst).symm).cons_inv)

end Underway

/-! ## A process in the making -/

/-- A process that is being made: the pages that are out because of it are those that its mappings keep. -/
structure Equipping (a : MemoryArrange) (kernel : RecordId) (kind : RegionKind) (held : List PageList) (s : Machine) (id : RecordId)
    (own : List (AllocationId × PageList)) (t : Machine) : Prop where
  underway : Underway a kernel kind held s own t
  kernel : (t.process id).kernel = kernel
  region : (t.process id).region = kind
  backing : ((t.process id).space.mappings.flatMap Mapping.backing).Perm (own.map Prod.fst)

namespace Equipping

/-- Nothing that counts has changed about the process. -/
theorem of_same (h : Equipping a kernel kind held s id own t) (hu : Underway a kernel kind held s own u)
    (hprocess : u.process id = t.process id) : Equipping a kernel kind held s id own u :=
  ⟨hu, hprocess ▸ h.kernel, hprocess ▸ h.region, hprocess ▸ h.backing⟩

/-- Pages that were taken for the process are mapped into it. -/
theorem setSpace {allocation : AllocationId} {pages : PageList} {space : AddressSpace} {m : Mapping}
    (h : Equipping a kernel kind held s id own t) (hu : Underway a kernel kind held s ((allocation, pages) :: own) u)
    (hprocess : u.process id = t.process id) (hmap : (u.process id).space.map m = .ok space) (hm : m.backing = [allocation]) :
    Equipping a kernel kind held s id ((allocation, pages) :: own) (setSpace id space u).2 := by
  have hset : (Machine.setSpace id space u).2.process id = { u.process id with space } :=
    (process_setSpace u id id space).trans (if_pos rfl)
  refine ⟨hu.of_same rfl rfl (Nat.le_refl _), ?_, ?_, ?_⟩
  · rw [hset, hprocess]
    exact h.kernel
  · rw [hset, hprocess]
    exact h.region
  · rw [hset]
    dsimp only
    rw [(AddressSpace.map_ok hmap).2, hprocess]
    refine ((AddressSpace.perm_insert m _).flatMap_right Mapping.backing).trans ?_
    rw [List.flatMap_cons, hm]
    exact h.backing.cons allocation

/-- Pages are taken and mapped, or they have gone back. -/
theorem claim (h : Equipping a kernel kind held s id own t) (n : Nat) (program : AllocationId → PageList → Action α)
    (hprogram : ∀ allocation pages u, (∃ e, (program allocation pages).run u = (.error e, u)) ∨
      ∃ answer space m, (program allocation pages).run u = (.ok answer, (Machine.setSpace id space u).2) ∧
        (u.process id).space.map m = .ok space ∧ m.backing = [allocation]) :
    ∃ own', Equipping a kernel kind held s id own' ((do
      let (allocation, pages) ← allocateFor id n
      givingBack allocation (program allocation pages) : Action α).run t).2 := by
  rw [Action.run_bind, allocateFor_run, h.kernel, h.region]
  rcases h.underway.allocate n with ⟨e, u, hrun, hprocesses, hu⟩ | ⟨pages, u, hrun, hprocesses, hu⟩
  all_goals
    have hprocess : u.process id = t.process id := by rw [process, hprocesses, process]
    rw [hrun]
    dsimp only
  · exact ⟨own, h.of_same hu hprocess⟩
  · rw [givingBack, Action.run_tryCatch]
    rcases hprogram t.nextId pages u with ⟨e, hfails⟩ | ⟨answer, space, m, hruns, hmap, hm⟩
    · rw [hfails]
      refine ⟨own, h.of_same hu.free ?_⟩
      obtain ⟨kernels, allocations, hfree⟩ := freeAllocation_rest t.nextId u
      change (freeAllocation t.nextId u).2.process id = t.process id
      rw [hfree]
      exact hprocess
    · rw [hruns]
      exact ⟨_, h.setSpace hu hprocess hmap hm⟩

/-- Pages of an allocation are mapped with it behind them, or nothing happens. -/
theorem mapOwned_cases (id : RecordId) (address : Nat) (allocation : AllocationId) (pages : PageList) (permission : Permission)
    (state : MemoryState) (u : Machine) :
    (∃ e, (mapOwned id address allocation pages permission state).run u = (.error e, u)) ∨
    ∃ space m, (mapOwned id address allocation pages permission state).run u = (.ok (), (Machine.setSpace id space u).2) ∧
      (u.process id).space.map m = .ok space ∧ m.backing = [allocation] := by
  rw [mapOwned_run]
  cases hmap : (u.process id).space.map { Mapping.ofPages address pages permission state with backing := [allocation] } with
  | error e => exact .inl ⟨e, rfl⟩
  | ok space => exact .inr ⟨space, _, rfl, hmap, rfl⟩

/-- Mapping code takes its pages, or gives them back where it fails. -/
theorem mapCode (h : Equipping a kernel kind held s id own t) (address pages : Nat) :
    ∃ own', Equipping a kernel kind held s id own' ((mapCode id address pages).run t).2 := by
  unfold Machine.mapCode
  split
  · refine h.claim pages (fun allocation pages => mapOwned id address allocation pages .readExecute .code)
      fun allocation pages u => ?_
    exact (mapOwned_cases id address allocation pages .readExecute .code u).imp_right fun hmapped => ⟨(), hmapped⟩
  · exact ⟨own, h⟩

/-- Mapping the page of a thread takes it, or gives it back where it fails. -/
theorem allocateThreadLocal (h : Equipping a kernel kind held s id own t) :
    ∃ own', Equipping a kernel kind held s id own' ((allocateThreadLocal id).run t).2 := by
  refine h.claim 1 (fun allocation pages => do
    let address ← ((← get).process id).space.findFree threadLocalBase threadLocalSize pageSize
    mapOwned id address allocation pages .readWrite .threadLocal
    return address) fun allocation pages u => ?_
  rw [Action.run_look, Action.run_except_bind]
  cases (u.process id).space.findFree threadLocalBase threadLocalSize pageSize with
  | error e => exact .inl ⟨e, rfl⟩
  | ok address =>
    dsimp only
    rw [Action.run_bind]
    rcases mapOwned_cases id address allocation pages .readWrite .threadLocal u with ⟨e, hfails⟩ | ⟨space, m, hruns, hmap, hm⟩
    · rw [hfails]
      exact .inl ⟨e, rfl⟩
    · rw [hruns]
      exact .inr ⟨address, space, m, rfl, hmap, hm⟩

/-- A thread that cannot be made leaves nothing that its process does not keep. -/
theorem createThread (h : Equipping a kernel kind held s id own t) {threadId priority : Nat} {body : ThreadBody}
    (hrun : (createThread id threadId priority .guest body).run t = (.error e, u)) :
    ∃ own', Equipping a kernel kind held s id own' u := by
  unfold Machine.createThread at hrun
  rw [Action.run_look] at hrun
  dsimp only at hrun
  split at hrun
  · obtain ⟨-, rfl⟩ := Prod.mk.inj hrun
    exact ⟨own, h⟩
  · split at hrun
    · obtain ⟨-, rfl⟩ := Prod.mk.inj hrun
      exact ⟨own, h⟩
    · obtain ⟨own', hlocal⟩ := h.allocateThreadLocal
      rw [Action.run_bind] at hrun
      rcases hresult : (Machine.allocateThreadLocal id).run t with ⟨e' | address, v⟩ <;> rw [hresult] at hrun hlocal
      · obtain ⟨-, rfl⟩ := Prod.mk.inj hrun
        exact ⟨own', hlocal⟩
      · cases (Prod.mk.inj hrun).1

/-- What the process keeps goes back when it is dropped. -/
theorem discard (h : Equipping a kernel kind held s id own t) :
    Underway a kernel kind held s [] (discardProcess id t).2 := by
  rw [discardProcess_run]
  exact Underway.freed (h.underway.of_same (u := { t with processes := t.processes.erase id }) rfl rfl (Nat.le_refl _)) h.backing

end Equipping

/-! ## Starts -/

/-- A new process has nothing yet. -/
theorem StartCall.create_equipping (x : StartCall) (capabilities : Capabilities) (hk : (s.kernel kernel).Arranged a)
    (hheld : ((s.kernel kernel).region x.creation.flags.region).KeptIn a x.creation.flags.region held) :
    Equipping a kernel x.creation.flags.region held s s.nextId [] (x.create kernel capabilities s).2 := by
  have hprocess (p : Process) (k : Kernel) :
      ({ s with nextId := s.nextId + 1, kernels := s.kernels.insert kernel k, processes := s.processes.insert s.nextId p } :
        Machine).process s.nextId = p := (process_insert _ _ _ _).trans (if_pos rfl)
  have hnew : ∃ p : Process, (x.create kernel capabilities s).2.process s.nextId = p ∧ p.kernel = kernel ∧
      p.region = x.creation.flags.region ∧ p.space = {} := ⟨_, hprocess _ _, rfl, rfl, rfl⟩
  have hkernel (other : RecordId) : (x.create kernel capabilities s).2.kernel other = if other = kernel then
      { ((s.kernel kernel).takePid x.creation.flags.isApplication).2 with
        nextCreationOrder := ((s.kernel kernel).takePid x.creation.flags.isApplication).2.nextCreationOrder + 1 }
      else s.kernel other := kernel_insert _ _ _ _
  obtain ⟨p, hp, hpkernel, hpregion, hpspace⟩ := hnew
  refine ⟨⟨?_, fun other ho => (hkernel other).trans (if_neg ho), List.forall_mem_nil _, List.forall_mem_nil _, List.nodup_nil⟩,
    hp ▸ hpkernel, hp ▸ hpregion, ?_⟩
  · rw [hkernel, if_pos rfl]
    have hhanded := Kernel.Handed.refl hk hheld
    unfold Kernel.takePid
    split
    · exact hhanded.of_same rfl rfl rfl rfl rfl
    · exact hhanded.of_same rfl rfl rfl rfl rfl
  · rw [hp, hpspace]
    exact List.Perm.refl _

/-- If the new process cannot be equipped, all that it was given goes back. -/
theorem StartCall.makeThread_underway (x : StartCall) (h : Equipping a kernel kind held s id own t)
    (hrun : (x.makeThread kernel id).run t = (.error e, u)) : Underway a kernel kind held s [] u := by
  rw [makeThread, Action.run_tryCatch] at hrun
  have hequip {e : KernelError} {v : Machine} (hequip : (x.equip kernel id).run t = (.error e, v)) :
      ∃ own', Equipping a kernel kind held s id own' v := by
    rw [equip, Action.run_bind] at hequip
    obtain ⟨own', hcode⟩ := h.mapCode x.creation.codeAddress.toNat x.creation.codePages.toNat
    rcases hmap : (Machine.mapCode id x.creation.codeAddress.toNat x.creation.codePages.toNat).run t with ⟨e' | _, v'⟩ <;>
      rw [hmap] at hequip hcode
    · obtain ⟨-, rfl⟩ := Prod.mk.inj hequip
      exact ⟨own', hcode⟩
    · dsimp only at hequip
      rw [Action.run_lift_bind] at hequip
      exact (hcode.of_same hcode.underway.takeThreadId rfl).createThread hequip
  rcases hresult : (x.equip kernel id).run t with ⟨e' | thread, v⟩ <;> rw [hresult] at hrun
  · obtain ⟨own', hv⟩ := hequip hresult
    obtain ⟨-, rfl⟩ := Prod.mk.inj hrun
    exact hv.discard
  · cases (Prod.mk.inj hrun).1

/-- The kernel has the same process set, log and names, and its regions have the same free runs; other kernels are the same
altogether. -/
structure Traceless (kernel : RecordId) (s t : Machine) : Prop where
  processes : (t.kernel kernel).processes = (s.kernel kernel).processes
  audit : (t.kernel kernel).audit = (s.kernel kernel).audit
  namedPorts : (t.kernel kernel).namedPorts = (s.kernel kernel).namedPorts
  regions : (t.kernel kernel).regions = (s.kernel kernel).regions
  others : ∀ other, other ≠ kernel → t.kernel other = s.kernel other

/-- A start that fails leaves no trace in a kernel whose regions are as allocations have left them. -/
theorem StartCall.start_traceless (call : StartCall) (hk : (s.kernel kernel).Arranged a)
    (h : ((call.start kernel).run s).1 = .error e) : Traceless kernel s ((call.start kernel).run s).2 := by
  cases hadmitted : call.admitted? (s.kernel kernel) with
  | none =>
    obtain ⟨e', journal, hrun⟩ := StartCall.start_of_refused hadmitted
    rw [hrun]
    exact ⟨rfl, rfl, rfl, rfl, fun _ _ => rfl⟩
  | some capabilities =>
    obtain ⟨held, hheld⟩ := hk.kept call.creation.flags.region
    have hcreated := call.create_equipping capabilities hk hheld
    have hnext : (call.create kernel capabilities s).1 = s.nextId := rfl
    rw [StartCall.start_of_admitted hadmitted, hnext] at h ⊢
    rcases hrun : (call.makeThread kernel s.nextId).run (call.create kernel capabilities s).2 with ⟨e' | thread, t⟩ <;>
      rw [hrun] at h
    · have hback := call.makeThread_underway hcreated hrun
      have hregions := hback.handed.regions_eq hk.complete hheld
      exact ⟨hback.handed.processes, hback.handed.audit, hback.handed.namedPorts, hregions, hback.others⟩
    · cases h

/-- What is out of the regions of an orderly machine are the allocations that exist. -/
theorem Stocked.arranged {x : Setup} (h : Stocked x s) : (s.kernel x.kernel).Arranged x.config.memoryArrange := by
  refine ⟨h.complete, h.memory, fun kind => ?_⟩
  let ofKind := s.allocations.toList.filter fun entry => entry.2.region = kind
  have hmem {entry : AllocationId × Allocation} :
      entry ∈ ofKind ↔ s.allocations[entry.1]? = some entry.2 ∧ entry.2.region = kind := by
    rw [List.mem_filter, decide_eq_true_iff, Std.TreeMap.mem_toList_iff_getElem?_eq_some]
  have hpages : ((ofKind.map fun entry => entry.2.pages).flatMap PageList.pages) = ofKind.flatMap fun entry => entry.2.pages.pages :=
    List.flatMap_map ..
  have hnodup : (ofKind.flatMap fun entry => entry.2.pages.pages).Nodup := by
    refine List.nodup_flatMap.2 ⟨fun entry he => h.once entry.1 entry.2 (hmem.1 he).1, ?_⟩
    have hdistinct := (Std.TreeMap.distinct_keys_toList (t := s.allocations)).filter fun entry => entry.2.region = kind
    refine hdistinct.imp_of_mem fun {entry entry'} he he' hne page hp hp' => ?_
    have hids : entry.1 ≠ entry'.1 := fun heq => hne (compare_eq_iff.2 heq.symm)
    exact h.apart entry.1 entry'.1 entry.2 entry'.2 (hmem.1 he).1 (hmem.1 he').1 hids page hp hp'
  refine ⟨ofKind.map fun entry => entry.2.pages, ?_, h.spaced kind, fun pages hp => ?_, ?_⟩
  · obtain ⟨haddress, hsize⟩ := h.placed kind
    have hkind := h.complete.kind_region kind
    dsimp only
    rw [← haddress, ← hsize]
    cases hregion : (s.kernel x.kernel).region kind with
    | mk kind' address size free =>
      rw [hregion] at hkind
      exact congrArg (Region.mk · address size free) hkind
  · obtain ⟨entry, he, rfl⟩ := List.mem_map.1 hp
    exact h.single entry.1 entry.2 (hmem.1 he).1
  · rw [hpages]
    refine (List.perm_ext_iff_of_nodup ?_ (PageRun.nodup_toList _)).2 fun page => ⟨fun hp => ?_, fun hp => ?_⟩
    · refine List.nodup_append.2 ⟨h.nodup kind, hnodup, fun page hp page' hp' heq => ?_⟩
      obtain ⟨entry, he, hpage⟩ := List.mem_flatMap.1 hp'
      obtain ⟨hget, hregion⟩ := hmem.1 he
      exact (h.taken entry.1 entry.2 hget page' hpage).2 (hregion ▸ heq ▸ hp)
    · rcases List.mem_append.1 hp with hp | hp
      · exact h.free kind page hp
      · obtain ⟨entry, he, hpage⟩ := List.mem_flatMap.1 hp
        obtain ⟨hget, hregion⟩ := hmem.1 he
        exact hregion ▸ (h.taken entry.1 entry.2 hget page hpage).1
    · rcases h.whole kind page hp with hfree | ⟨id, allocation, hget, hregion, hpage⟩
      · exact List.mem_append_left _ hfree
      · exact List.mem_append_right _ (List.mem_flatMap.2 ⟨(id, allocation), hmem.2 ⟨hget, hregion⟩, hpage⟩)

/-- A start that fails, for whatever reason, leaves no trace: not in a kernel whose regions were used in any way, nor in one that
hosts and guests have worked with. -/
theorem failed_start_traceless (call : StartCall) :
    (∀ (s : Machine) (kernel : RecordId), (s.kernel kernel).Used →
      (s.kernel kernel).config.memoryArrange.totalSize ≤ (s.kernel kernel).host.memory.size →
      ∀ e, ((call.start kernel).run s).1 = .error e → Traceless kernel s ((call.start kernel).run s).2) ∧
    ∀ (x : Setup) (deeds : List Deed) (e : KernelError), ((call.start x.kernel).run (afterDeeds x deeds)).1 = .error e →
      Traceless x.kernel (afterDeeds x deeds) ((call.start x.kernel).run (afterDeeds x deeds)).2 :=
  ⟨fun _ _ hused hmemory _ h => call.start_traceless (hused.arranged hmemory) h,
    fun x deeds _ h => call.start_traceless (afterDeeds_sound x deeds).orderly.stocked.arranged h⟩

/-- A process whose code reaches into the pages of threads. -/
def longCall : StartCall :=
  { plainCall .service with creation := { (plainCall .service).creation with codeAddress := 0xfffff000, codePages := 2 } }

/-- Its code is taken and mapped, and a page for its thread is taken too; then there is no place for that page. -/
theorem failed_start_traceless_overhanging :
    ((longCall.start 0).run plainSetup.machine).1 = .error .invalidMemoryState ∧
      Traceless 0 plainSetup.machine ((longCall.start 0).run plainSetup.machine).2 := by
  have hkernel : plainSetup.machine.kernel 0 = plainSetup.newKernel := plainSetup.kernel_machine
  have hused : (plainSetup.machine.kernel 0).Used := by
    rw [hkernel]
    exact ⟨fun _ => [], fun _ => List.forall_mem_nil _, MemoryArrange.layout_eq _⟩
  have hfails : ((longCall.start 0).run plainSetup.machine).1 = .error .invalidMemoryState := by decide +kernel
  refine ⟨hfails, (failed_start_traceless longCall).1 plainSetup.machine 0 hused ?_ _ hfails⟩
  rw [hkernel]
  decide

end Machine

end Microkernel
