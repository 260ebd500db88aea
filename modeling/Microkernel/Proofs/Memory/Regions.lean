import Microkernel.Kernel.Basic
import Microkernel.Proofs.Memory.Places

/-!
# The pages of regions

Taking pages out of a region and putting them back moves pages about and makes or loses none (`Region.allocate_cases`,
`Region.release_perm`). The regions of an arrangement share no page and fill the memory that the arrangement asks for.
-/

namespace Microkernel

/-- A range of the memory can be cleared; the rest of the memory stays as it is. -/
theorem Host.zero_ok (h : Host) {address length : Nat} (hw : address + length < wordLimit) (hs : address + length ≤ h.memory.size) :
    ∃ h', h.zero address length = (h', .ok ()) ∧ h'.memory.size = h.memory.size ∧
      ∀ place, place < address ∨ address + length ≤ place → h'.memory.byteAt place = h.memory.byteAt place := by
  obtain ⟨hdone, hbytes, hsize⟩ := zeroBy_of_fits h.zeroing hw hs
  refine ⟨_, Prod.ext rfl hdone, hsize, fun place hplace => ?_⟩
  rw [← zeroBy_self, hbytes, HostMemory.overlaid_zeros, if_neg (by omega)]

/-! ## Regions -/

namespace Region

/-- The addresses of the free pages. -/
def available (r : Region) : List Nat := r.free.flatMap PageRun.toList

/-- The pages that are taken out and those that stay are the free ones. -/
theorem takeFirst_perm {n address : Nat} {runs rest : List PageRun} (h : takeFirst n runs = some (address, rest)) :
    (runs.flatMap PageRun.toList).Perm ((PageRun.mk address n).toList ++ rest.flatMap PageRun.toList) := by
  induction runs generalizing rest with
  | nil => cases h
  | cons run others ih =>
    unfold takeFirst at h
    split at h
    · next hle =>
      obtain ⟨rfl, rfl⟩ := Prod.mk.inj (Option.some.inj h)
      rw [List.flatMap_cons]
      have hsplit : run.toList = (PageRun.mk run.address n).toList ++
          (PageRun.mk (run.address + n * pageSize) (run.pages - n)).toList := by
        rw [← PageRun.toList_add, Nat.add_sub_cancel' hle]
      rw [hsplit]
      split
      · rw [List.flatMap_cons, List.append_assoc]
      · next hlt =>
        have hnone : run.pages - n = 0 := by omega
        rw [hnone]
        simp [PageRun.toList]
    · obtain ⟨⟨address', rest'⟩, htake, heq⟩ := Option.map_eq_some_iff.1 h
      obtain ⟨rfl, rfl⟩ := Prod.mk.inj heq
      rw [List.flatMap_cons, List.flatMap_cons]
      refine ((ih htake).append_left _).trans ?_
      rw [← List.append_assoc, ← List.append_assoc]
      exact List.perm_append_comm.append_right _

/-- The pages of a run that is put back join the free ones. -/
theorem putBack_perm (run : PageRun) (runs : List PageRun) :
    ((putBack run runs).flatMap PageRun.toList).Perm (run.toList ++ runs.flatMap PageRun.toList) := by
  induction runs generalizing run with
  | nil => exact List.Perm.refl _
  | cons next rest ih =>
    unfold putBack
    split
    · split
      · next htouch =>
        rw [List.flatMap_cons, PageRun.toList_add, List.flatMap_cons, List.append_assoc]
        have hnext : PageRun.mk (run.address + run.pages * pageSize) next.pages = next := congrArg (PageRun.mk · next.pages) htouch
        rw [hnext]
      · rw [List.flatMap_cons]
    · split
      · next htouch =>
        refine (ih _).trans ?_
        rw [PageRun.toList_add, List.flatMap_cons, ← List.append_assoc]
        have hrun : PageRun.mk (next.address + next.pages * pageSize) run.pages = run := congrArg (PageRun.mk · run.pages) htouch
        rw [hrun]
        exact List.perm_append_comm.append_right _
      · rw [List.flatMap_cons, List.flatMap_cons]
        refine ((ih run).append_left _).trans ?_
        rw [← List.append_assoc, ← List.append_assoc]
        exact List.perm_append_comm.append_right _

/-- The pages of a list are free once they have come back. -/
theorem release_perm (r : Region) (pages : PageList) : (r.release pages).available.Perm (pages.pages ++ r.available) := by
  have hfold (runs free : List PageRun) : ((runs.foldl (fun free run => putBack run free) free).flatMap PageRun.toList).Perm
      (runs.flatMap PageRun.toList ++ free.flatMap PageRun.toList) := by
    induction runs generalizing free with
    | nil => exact List.Perm.refl _
    | cons run rest ih =>
      rw [List.foldl_cons, List.flatMap_cons]
      refine (ih _).trans (((putBack_perm run free).append_left _).trans ?_)
      rw [← List.append_assoc]
      exact List.perm_append_comm.append_right _
  exact hfold pages.runs r.free

/-- The region lies in a memory of a size. -/
def FitsIn (r : Region) (size : Nat) : Prop := ∀ page ∈ r.available, page + pageSize ≤ size ∧ page + pageSize < wordLimit

/-- A region whose free pages lie in the memory hands pages out and clears only them, or refuses and stays as it is. -/
theorem allocate_cases (r : Region) (host : Host) (n : Nat) (h : r.FitsIn host.memory.size) :
    (∃ e, r.allocate host n = (r, host, .error e)) ∨
    ∃ address free host', r.allocate host n = ({ r with free }, host', .ok (.ofRun address n)) ∧
      host'.memory.size = host.memory.size ∧
      (∀ place ∉ (PageRun.mk address n).places, host'.memory.byteAt place = host.memory.byteAt place) ∧
      r.available.Perm ((PageRun.mk address n).toList ++ free.flatMap PageRun.toList) := by
  unfold allocate
  split
  · exact .inl ⟨_, rfl⟩
  · next h0 =>
    split
    · exact .inl ⟨_, rfl⟩
    · next address free htake =>
      right
      have hperm := takeFirst_perm htake
      -- the last page that is taken ends where the range to clear ends
      have hlast : address + (n - 1) * pageSize ∈ (PageRun.mk address n).toList :=
        PageRun.mem_toList.2 ⟨n - 1, Nat.sub_lt (Nat.pos_of_ne_zero h0) Nat.one_pos, rfl⟩
      obtain ⟨hs, hw⟩ := h _ (hperm.symm.subset (List.mem_append_left _ hlast))
      have hend : address + (n - 1) * pageSize + pageSize = address + n * pageSize := by
        rw [Nat.add_assoc, ← Nat.succ_mul, Nat.succ_eq_add_one, Nat.sub_add_cancel (Nat.pos_of_ne_zero h0)]
      rw [hend] at hs hw
      obtain ⟨host', hzero, hsize, hrest⟩ := host.zero_ok hw hs
      rw [hzero]
      refine ⟨address, free, host', rfl, hsize, fun place hp => hrest place ?_, hperm⟩
      rw [PageRun.places, List.mem_range'_1] at hp
      simp only [PageRun.size] at hp
      omega

/-- What a region hands out is as large as what it was asked for. -/
theorem allocate_size {r : Region} {host : Host} {pages : PageList} {n : Nat} (h : (r.allocate host n).2.2 = .ok pages) :
    pages.size = n * pageSize := by
  unfold allocate at h
  split at h
  · cases h
  · next hn =>
    split at h
    · cases h
    · split at h
      · cases h
        unfold PageList.ofRun PageList.addRun
        rw [if_neg hn]
        exact congrArg (· * pageSize) (Nat.add_zero n)
      · cases h

/-- Why a region hands nothing out. -/
theorem allocate_error {r : Region} {host : Host} {n : Nat} {e : KernelError} (h : (r.allocate host n).2.2 = .error e) :
    e = .invalidSize 0 ∨ e = .outOfMemory ∨ ∃ reason, e = .host reason := by
  unfold allocate at h
  split at h
  · exact .inl (Except.error.inj h).symm
  · split at h
    · exact .inr (.inl (Except.error.inj h).symm)
    · split at h
      · cases h
      · exact .inr (.inr ⟨_, (Except.error.inj h).symm⟩)

/-- All pages of a new region are free. -/
theorem available_new (kind : RegionKind) (address size : Nat) :
    (new kind address size).available = (PageRun.mk address (size / pageSize)).toList := by
  unfold new available
  dsimp only
  split
  · exact List.append_nil _
  · next h =>
    rw [Nat.div_eq_of_lt (Nat.not_le.1 h)]
    rfl

end Region

/-! ## Arrangements -/

namespace MemoryArrange

/-- Where a region begins. -/
def base (a : MemoryArrange) : RegionKind → Nat
  | .application => 0
  | .applet => a.regionSize .application
  | .service => a.regionSize .application + a.regionSize .applet
  | .nvServices => a.regionSize .application + a.regionSize .applet + a.regionSize .service

/-- The pages of a region, free or not. -/
def pages (a : MemoryArrange) (kind : RegionKind) : List Nat := (PageRun.mk (a.base kind) (a.regionSize kind / pageSize)).toList

/-- An arrangement lays out one new region of each kind. -/
theorem layout_eq (a : MemoryArrange) :
    Region.layout a = RegionKind.all.map fun kind => Region.new kind (a.base kind) (a.regionSize kind) := by
  simp [Region.layout, RegionKind.all, base, Nat.add_assoc]

variable {a : MemoryArrange} {kind kind' : RegionKind} {page : Nat}

/-- The pages of a region lie within its range. -/
theorem mem_pages (h : page ∈ a.pages kind) : a.base kind ≤ page ∧ page + pageSize ≤ a.base kind + a.regionSize kind := by
  obtain ⟨i, hi, rfl⟩ := PageRun.mem_toList.1 h
  have hsize : a.regionSize kind / pageSize * pageSize ≤ a.regionSize kind := Nat.div_mul_le_self _ _
  simp only [pageSize] at hi hsize ⊢
  omega

/-- Pages stand at page borders. -/
theorem dvd_page (h : page ∈ a.pages kind) : pageSize ∣ page := by
  have hbase : pageSize ∣ a.base kind := Nat.dvd_of_mod_eq_zero (by cases a <;> cases kind <;> decide)
  obtain ⟨i, -, rfl⟩ := PageRun.mem_toList.1 h
  exact Nat.dvd_add hbase (Nat.dvd_mul_left _ _)

/-- No page belongs to two regions. -/
theorem pages_disjoint (h : page ∈ a.pages kind) (h' : page ∈ a.pages kind') : kind = kind' := by
  have hb := mem_pages h
  have hb' := mem_pages h'
  have hpos : 0 < pageSize := by decide
  cases kind <;> cases kind' <;> simp only [base] at hb hb' <;> first | rfl | omega

/-- Every page lies in the memory that the arrangement asks for. -/
theorem le_totalSize (h : page ∈ a.pages kind) : page + pageSize ≤ a.totalSize ∧ page + pageSize < wordLimit := by
  have hend : a.base kind + a.regionSize kind ≤ a.totalSize ∧ a.totalSize < wordLimit := by
    cases a <;> cases kind <;> decide
  have hb := mem_pages h
  omega

end MemoryArrange

/-! ## Regions of kernels -/

namespace Kernel

/-- The kernel has one region of every kind, in their order. -/
def Complete (k : Kernel) : Prop := k.regions.map Region.kind = RegionKind.all

/-- A complete kernel has a region of each kind. -/
theorem Complete.exists_mem {k : Kernel} (h : k.Complete) (kind : RegionKind) : ∃ r ∈ k.regions, r.kind = kind :=
  List.mem_map.1 (h.symm ▸ (by cases kind <;> decide : kind ∈ RegionKind.all))

/-- A region that is set is found by its kind, and others as before. -/
theorem find?_setRegion (regions : List Region) (r : Region) (kind : RegionKind) (h : ∃ old ∈ regions, old.kind = kind) :
    ((regions.map fun old => if old.kind = r.kind then r else old).find? (·.kind = kind)) =
      if kind = r.kind then some r else regions.find? (·.kind = kind) := by
  induction regions with
  | nil => simp at h
  | cons first rest ih =>
    rw [List.map_cons, List.find?_cons, List.find?_cons]
    by_cases hf : first.kind = r.kind
    · rw [if_pos hf]
      by_cases hk : kind = r.kind
      · simp [hk]
      · have hrest : ∃ old ∈ rest, old.kind = kind := by
          obtain ⟨old, hold, ho⟩ := h
          rcases List.mem_cons.1 hold with rfl | hold
          · exact absurd (ho.symm.trans hf) hk
          · exact ⟨old, hold, ho⟩
        rw [ih hrest, if_neg hk, if_neg hk]
        simp [hf, Ne.symm hk]
    · rw [if_neg hf]
      by_cases hk : first.kind = kind
      · have hr : kind ≠ r.kind := fun he => hf (hk.trans he)
        simp [hk, hr]
      · have hrest : ∃ old ∈ rest, old.kind = kind := by
          obtain ⟨old, hold, ho⟩ := h
          rcases List.mem_cons.1 hold with rfl | hold
          · exact absurd ho hk
          · exact ⟨old, hold, ho⟩
        simp only [hk, decide_false, ih hrest]

variable {k : Kernel}

/-- Changing one region leaves the others alone. -/
theorem Complete.region_setRegion (h : k.Complete) (r : Region) (kind : RegionKind) :
    (k.setRegion r).region kind = if kind = r.kind then r else k.region kind := by
  unfold region setRegion
  rw [find?_setRegion _ _ _ (h.exists_mem kind)]
  split <;> rfl

/-- Setting a region leaves a kernel complete. -/
theorem Complete.setRegion (h : k.Complete) (r : Region) : (k.setRegion r).Complete := by
  refine Eq.trans ?_ h
  unfold Kernel.setRegion
  rw [List.map_map]
  refine List.map_congr_left fun old _ => ?_
  rw [Function.comp_apply]
  split
  · next he => exact he.symm
  · rfl

/-- A complete kernel looks up the region of the kind that is asked for. -/
theorem Complete.kind_region (h : k.Complete) (kind : RegionKind) : (k.region kind).kind = kind := by
  obtain ⟨old, hold, hk⟩ := h.exists_mem kind
  have hsome : (k.regions.find? (·.kind = kind)).isSome := List.find?_isSome.2 ⟨old, hold, decide_eq_true hk⟩
  obtain ⟨r, hr⟩ := Option.isSome_iff_exists.1 hsome
  have hkind := List.find?_some hr
  unfold region
  rw [hr]
  exact of_decide_eq_true hkind

/-- The regions are those that the kernel finds by their kinds. -/
theorem Complete.regions_eq (h : k.Complete) : k.regions = RegionKind.all.map k.region := by
  have hnodup : (k.regions.map Region.kind).Nodup := h.symm ▸ (by decide : RegionKind.all.Nodup)
  rw [← h, List.map_map]
  refine (List.map_id k.regions).symm.trans (List.map_congr_left fun r hr => ?_)
  have hkind : (k.region r.kind).kind = r.kind := h.kind_region r.kind
  have hfound : k.region r.kind ∈ k.regions := by
    unfold region
    cases hfind : k.regions.find? (·.kind = r.kind) with
    | none => exact absurd (List.find?_eq_none.1 hfind r hr) (by simp)
    | some found => exact List.mem_of_find?_eq_some hfind
  exact List.inj_on_of_nodup_map hnodup hr hfound hkind.symm

end Kernel

end Microkernel
