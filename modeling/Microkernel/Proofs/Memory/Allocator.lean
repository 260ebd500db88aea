import Microkernel.Proofs.Memory.FreeRuns

/-!
# The page allocator

A region and the allocations that are out share the whole pages of the region out among themselves, in whatever order allocations are
made and dropped (`Allocator.after_partitions`): the free runs stay apart, each allocation is the first that fits, and a region whose
allocations have all come back is as it was at the start.

An allocation that fails leaves the region alone, unless it is the clearing that fails. The pages were taken before and belong to
nobody then (`Region.failed_allocation_keeps_region_iff`).
-/

namespace Microkernel

/-! ## Counting pages -/

namespace PageRun

/-- The last page of a run ends where the run does. -/
theorem exists_last {run : PageRun} (h : 0 < run.pages) : ∃ page ∈ run.toList, page + pageSize = run.limit := by
  refine ⟨run.address + (run.pages - 1) * pageSize, mem_toList.2 ⟨run.pages - 1, Nat.sub_lt h Nat.one_pos, rfl⟩, ?_⟩
  rw [Nat.add_assoc, ← Nat.succ_mul, Nat.succ_eq_add_one, Nat.sub_add_cancel h, limit_eq]

/-- The pages of a run lie at one distance from page borders. -/
theorem mod_of_mem {run : PageRun} {page : Nat} (h : page ∈ run.toList) : page % pageSize = run.address % pageSize := by
  obtain ⟨i, -, rfl⟩ := mem_toList.1 h
  exact Nat.add_mul_mod_self_right _ _ _

/-- A run of pages of another one lies in it. -/
theorem inside_of_subset {run whole : PageRun} (hrun : 0 < run.pages) (h : ∀ page ∈ run.toList, page ∈ whole.toList) :
    whole.address ≤ run.address ∧ run.limit ≤ whole.limit := by
  obtain ⟨last, hlast, hend⟩ := exists_last hrun
  exact ⟨(bounds_of_mem (h _ (address_mem hrun))).1, hend ▸ (bounds_of_mem (h _ hlast)).2⟩

end PageRun

namespace PageList

/-- The list is one run and not empty. -/
def Single (l : PageList) : Prop := ∃ run : PageRun, 0 < run.pages ∧ l.runs = [run]

/-- A list that is made of pages in a row has one run, if it has pages. -/
theorem ofRun_runs {address n : Nat} (h : 0 < n) : (ofRun address n).runs = [⟨address, n⟩] := by
  rw [ofRun, addRun, if_neg (Nat.ne_of_gt h)]
  rfl

/-- The list of such pages is one run. -/
theorem single_ofRun {address n : Nat} (h : 0 < n) : (ofRun address n).Single := ⟨⟨address, n⟩, h, ofRun_runs h⟩

end PageList

/-! ## The host -/

namespace Host

/-- What the host answers when it is to clear a range. -/
def clearing (h : Host) (address length : Nat) : Except HostError Unit := (h.zero address length).2

/-- The host clears whatever lies in a range. -/
def Clears (h : Host) (address size : Nat) : Prop :=
  ∀ start length, address ≤ start → start + length ≤ address + size → h.clearing start length = .ok ()

/-- A host with the range in its memory clears it. -/
theorem clears_of_le {h : Host} {address size : Nat} (hw : address + size < wordLimit) (hs : address + size ≤ h.memory.size) :
    h.Clears address size := by
  intro start length _ hend
  obtain ⟨h', hzero, -⟩ := h.zero_ok (Nat.lt_of_le_of_lt hend hw) (Nat.le_trans hend hs)
  exact congrArg Prod.snd hzero

end Host

namespace Region

variable {r : Region} {host : Host} {n : Nat} {pages : PageList}

/-! ## One allocation -/

/-- Taking pages out of the region, where all that is known of the host is what it answers when it is to clear them. -/
def allocateBy (r : Region) (clear : Nat → Nat → Except HostError Unit) (pages : Nat) : Region × Except KernelError PageList :=
  if pages = 0 then (r, .error (.invalidSize 0))
  else
    match takeFirst pages r.free with
    | none => (r, .error .outOfMemory)
    | some (address, free) =>
      match clear address (pages * pageSize) with
      | .ok () => ({ r with free }, .ok (.ofRun address pages))
      | .error e => ({ r with free }, .error (.host e))

/-- Nothing else of the host matters to a region and to what it hands out. -/
theorem allocate_eq_allocateBy (r : Region) (host : Host) (n : Nat) :
    (r.allocate host n).1 = (r.allocateBy host.clearing n).1 ∧ (r.allocate host n).2.2 = (r.allocateBy host.clearing n).2 := by
  unfold allocate allocateBy Host.clearing
  split
  · exact ⟨rfl, rfl⟩
  · cases takeFirst n r.free with
    | none => exact ⟨rfl, rfl⟩
    | some found =>
      dsimp only
      rcases host.zero found.1 (n * pageSize) with ⟨host', _ | _⟩
      · exact ⟨rfl, rfl⟩
      · exact ⟨rfl, rfl⟩

/-- An allocation takes the first free run that is long enough; it is then cleared, or lost. -/
theorem allocateBy_cases (r : Region) (clear : Nat → Nat → Except HostError Unit) (n : Nat) :
    (n = 0 ∧ r.allocateBy clear n = (r, .error (.invalidSize 0))) ∨
    (0 < n ∧ takeFirst n r.free = none ∧ r.allocateBy clear n = (r, .error .outOfMemory)) ∨
    ∃ address free, 0 < n ∧ takeFirst n r.free = some (address, free) ∧
      ((clear address (n * pageSize) = .ok () ∧ r.allocateBy clear n = ({ r with free }, .ok (.ofRun address n))) ∨
        ∃ reason, clear address (n * pageSize) = .error reason ∧
          r.allocateBy clear n = ({ r with free }, .error (.host reason))) := by
  unfold allocateBy
  split
  · next h0 => exact .inl ⟨h0, rfl⟩
  · next h0 =>
    have hpos := Nat.pos_of_ne_zero h0
    right
    split
    · next hnone => exact .inl ⟨hpos, hnone, rfl⟩
    · next address free htake =>
      refine .inr ⟨address, free, hpos, htake, ?_⟩
      split
      · next hclear => exact .inl ⟨hclear, rfl⟩
      · next reason hclear => exact .inr ⟨reason, hclear, rfl⟩

/-- What is handed out are the first pages that were free and enough. -/
theorem allocate_ok (h : (r.allocate host n).2.2 = .ok pages) :
    ∃ address free, 0 < n ∧ takeFirst n r.free = some (address, free) ∧ pages = .ofRun address n ∧
      (r.allocate host n).1 = { r with free } := by
  have heq := allocate_eq_allocateBy r host n
  rw [heq.2] at h
  rw [heq.1]
  rcases allocateBy_cases r host.clearing n with
    ⟨-, hrun⟩ | ⟨-, -, hrun⟩ | ⟨address, free, hpos, htake, ⟨-, hrun⟩ | ⟨_, -, hrun⟩⟩
  all_goals rw [hrun] at h ⊢
  · cases h
  · cases h
  · exact ⟨address, free, hpos, htake, (Except.ok.inj h).symm, rfl⟩
  · cases h

/-- The pages that are handed out are no longer free; the others are as before. -/
theorem allocate_ok_spaced (hs : Spaced r.free) (h : (r.allocate host n).2.2 = .ok pages) :
    (r.allocate host n).1 = { r with free := (r.allocate host n).1.free } ∧ Spaced (r.allocate host n).1.free ∧ pages.Single ∧
      r.available.Perm (pages.pages ++ (r.allocate host n).1.available) := by
  obtain ⟨address, free, hpos, htake, rfl, hregion⟩ := allocate_ok h
  rw [hregion]
  refine ⟨rfl, hs.takeFirst htake, PageList.single_ofRun hpos, ?_⟩
  rw [PageList.ofRun_pages]
  exact takeFirst_perm htake

/-- Where the host clears all pages of a region, an allocation fails only for want of a run, and then it leaves the region alone. -/
theorem allocate_error_of_clears (hclears : ∀ address free, takeFirst n r.free = some (address, free) →
      host.clearing address (n * pageSize) = .ok ()) {e : KernelError} (h : (r.allocate host n).2.2 = .error e) :
    (r.allocate host n).1 = r ∧ ¬ (0 < n ∧ ∃ run ∈ r.free, n ≤ run.pages) := by
  have heq := allocate_eq_allocateBy r host n
  rw [heq.2] at h
  rw [heq.1]
  rcases allocateBy_cases r host.clearing n with
    ⟨h0, hrun⟩ | ⟨-, hnone, hrun⟩ | ⟨address, free, -, htake, ⟨-, hrun⟩ | ⟨_, hclear, -⟩⟩
  · rw [hrun]
    exact ⟨rfl, fun h => absurd h.1 (h0 ▸ Nat.lt_irrefl 0)⟩
  · rw [hrun]
    refine ⟨rfl, ?_⟩
    rintro ⟨-, run, hmem, hle⟩
    exact absurd (takeFirst_eq_none_iff.1 hnone run hmem) (Nat.not_lt.2 hle)
  · rw [hrun] at h
    cases h
  · cases (hclears address free htake).symm.trans hclear

/-! ### Failures -/

/-- Taking pages takes as many as were asked for. -/
theorem total_of_takeFirst {address : Nat} {runs rest : List PageRun} (h : takeFirst n runs = some (address, rest)) :
    total PageRun.pages rest + n = total PageRun.pages runs := by
  have hlength := (takeFirst_perm h).length_eq
  rw [List.length_append, PageRun.length_flatMap_toList, PageRun.length_flatMap_toList, PageRun.length_toList] at hlength
  exact (Nat.add_comm _ _).trans hlength.symm

/-- If the allocation fails the region stays as it is. -/
def CostsNothing (r : Region) (clear : Nat → Nat → Except HostError Unit) (n : Nat) : Prop :=
  ∀ e, (r.allocateBy clear n).2 = .error e → (r.allocateBy clear n).1 = r

/-- A failed allocation costs nothing exactly if the pages that it finds can be cleared; pages that cannot be cleared are lost. A host
that clears memory counts by its answers alone. -/
theorem failed_allocation_keeps_region_iff (r : Region) (clear : Nat → Nat → Except HostError Unit) (n : Nat) :
    (r.CostsNothing clear n ↔
      ∀ address free, 1 ≤ n → takeFirst n r.free = some (address, free) → clear address (n * pageSize) = .ok ()) ∧
    (∀ reason, (r.allocateBy clear n).2 = .error (.host reason) →
      1 ≤ n ∧ (r.allocateBy clear n).1.freePages + n = r.freePages) ∧
    ∀ host : Host, (∀ e, (r.allocate host n).2.2 = .error e → (r.allocate host n).1 = r) ↔ r.CostsNothing host.clearing n := by
  have hlost {address : Nat} {free : List PageRun} (htake : takeFirst n r.free = some (address, free)) :
      Region.freePages { r with free } + n = r.freePages := total_of_takeFirst htake
  have hhost (host : Host) :
      (∀ e, (r.allocate host n).2.2 = .error e → (r.allocate host n).1 = r) ↔ r.CostsNothing host.clearing n := by
    rw [(allocate_eq_allocateBy r host n).1, (allocate_eq_allocateBy r host n).2]
    exact Iff.rfl
  rw [← and_assoc]
  refine ⟨?_, hhost⟩
  unfold CostsNothing
  rcases allocateBy_cases r clear n with
    ⟨h0, hrun⟩ | ⟨-, hnone, hrun⟩ | ⟨address, free, hpos, htake, ⟨hclear, hrun⟩ | ⟨reason, hclear, hrun⟩⟩
  all_goals rw [hrun]
  · refine ⟨⟨fun _ _ _ hpos => absurd hpos (h0 ▸ Nat.not_succ_le_zero 0), fun _ _ _ => rfl⟩, fun reason h => ?_⟩
    cases h
  · refine ⟨⟨fun _ _ _ _ htake => ?_, fun _ _ _ => rfl⟩, fun reason h => ?_⟩
    · cases hnone.symm.trans htake
    · cases h
  · refine ⟨⟨fun _ address' free' _ htake' => ?_, fun _ e h => ?_⟩, fun reason h => ?_⟩
    · obtain ⟨rfl, rfl⟩ := Prod.mk.inj (Option.some.inj (htake.symm.trans htake'))
      exact hclear
    · cases h
    · cases h
  · refine ⟨⟨fun hkeeps => ?_, fun hclears => ?_⟩, fun _ _ => ⟨hpos, hlost htake⟩⟩
    · -- a region that is as before has all of its pages
      have hsame : { r with free } = r := hkeeps _ rfl
      have hcount := hlost htake
      rw [hsame] at hcount
      omega
    · cases (hclears address free hpos htake).symm.trans hclear

/-- A memory of one page cannot clear two: the two pages are gone, and an allocation that would have found room finds none. -/
theorem failed_allocation_keeps_region_false :
    ((new .service 0 0x8000).allocate { memory := .new 0x1000 } 2).2.2 = .error (.host (.outOfRange 0 0x2000)) ∧
      (new .service 0 0x8000).freePages = 8 ∧ ((new .service 0 0x8000).allocate { memory := .new 0x1000 } 2).1.freePages = 6 ∧
      ((new .service 0 0x8000).allocate { memory := .new 0x8000 } 8).2.2 = .ok (.ofRun 0 8) ∧
      (((new .service 0 0x8000).allocate { memory := .new 0x1000 } 2).1.allocate { memory := .new 0x8000 } 8).2.2 =
        .error .outOfMemory ∧
      ¬ (new .service 0 0x8000).CostsNothing (Host.clearing { memory := .new 0x1000 }) 2 := by
  refine ⟨rfl, rfl, rfl, rfl, rfl, fun h => ?_⟩
  have hsame := h (.host (.outOfRange 0 0x2000)) rfl
  exact absurd (congrArg freePages hsame) (by decide)

/-! ### Giving back -/

/-- An allocation that came from pages of the region is merged with the free runs that it touches. -/
theorem Spaced.release (hs : Spaced r.free) (hsingle : pages.Single) (hnodup : (pages.pages ++ r.available).Nodup) (whole : PageRun)
    (hin : ∀ page ∈ pages.pages ++ r.available, page ∈ whole.toList) : Spaced (r.release pages).free := by
  obtain ⟨run, hrun, hruns⟩ := hsingle
  have hpages : pages.pages = run.toList := by
    rw [PageList.pages, hruns]
    exact List.append_nil _
  rw [hpages] at hnodup hin
  unfold Region.release
  rw [hruns]
  refine hs.putBack hrun fun free hf => ?_
  have hfree {page : Nat} (hp : page ∈ free.toList) : page ∈ r.available := List.mem_flatMap.2 ⟨free, hf, hp⟩
  have hmod : run.address % pageSize = free.address % pageSize := by
    rw [PageRun.mod_of_mem (hin _ (List.mem_append_left _ (PageRun.address_mem hrun))),
      PageRun.mod_of_mem (hin _ (List.mem_append_right _ (hfree (PageRun.address_mem (hs.positive free hf)))))]
  exact PageRun.limit_le_or_limit_le hrun (hs.positive free hf) hmod fun page hp hp' =>
    List.disjoint_of_nodup_append hnodup hp (hfree hp')

/-- The free runs of a new region stand apart. -/
theorem spaced_new (kind : RegionKind) (address size : Nat) : Spaced (new kind address size).free := by
  unfold new
  dsimp only
  split
  · next h =>
    exact spaced_cons.2 ⟨Nat.div_pos h (by decide), fun _ hn => absurd hn List.not_mem_nil, spaced_nil⟩
  · exact spaced_nil

/-- Giving pages back, with the plain sums. -/
def releaseInWords (r : Region) (pages : PageList) : Except KernelError Region := do
  return { r with free := ← pages.runs.foldlM (fun free run => putBackInWords run free) r.free }

end Region

/-! ## Any number of allocations -/

/-- A region with the allocations that are out, oldest first. -/
structure Allocator where
  region : Region
  held : List PageList
  deriving DecidableEq

namespace Allocator

/-- What is asked of an allocator: pages, which the host as it is then clears, or to drop one of the allocations that are out. -/
inductive Request
  | allocate (host : Host) (pages : Nat)
  | drop (index : Nat)

def step (a : Allocator) : Request → Allocator
  | .allocate host n =>
    match a.region.allocate host n with
    | (region, _, .ok pages) => { region, held := a.held ++ [pages] }
    | (region, _, .error _) => { a with region }
  | .drop index =>
    match a.held[index]? with
    | none => a
    | some pages => { region := a.region.release pages, held := a.held.eraseIdx index }

/-- An allocator that begins with a region of free pages, after requests. -/
def after (kind : RegionKind) (address size : Nat) (requests : List Request) : Allocator :=
  requests.foldl step { region := .new kind address size, held := [] }

/-- The host clears a range whenever it is asked to. -/
def Request.Clears (address size : Nat) : Request → Prop
  | .allocate host _ => host.Clears address size
  | .drop _ => True

variable {kind : RegionKind} {address size : Nat} {a : Allocator}

/-- The pages of the region are free or out, each in one place; the free runs are apart. -/
structure Kept (kind : RegionKind) (address size : Nat) (a : Allocator) : Prop where
  frame : a.region = { kind, address, size, free := a.region.free }
  spaced : Region.Spaced a.region.free
  single : ∀ pages ∈ a.held, pages.Single
  covers : (a.region.available ++ a.held.flatMap PageList.pages).Perm (PageRun.mk address (size / pageSize)).toList

/-- A new region with nothing out keeps its pages. -/
theorem kept_new (kind : RegionKind) (address size : Nat) :
    Kept kind address size { region := .new kind address size, held := [] } where
  frame := rfl
  spaced := Region.spaced_new kind address size
  single := fun _ h => absurd h List.not_mem_nil
  covers := by rw [List.flatMap_nil, List.append_nil, Region.available_new]

/-- No page is both free and out, and none is out twice. -/
theorem Kept.nodup (hk : Kept kind address size a) : (a.region.available ++ a.held.flatMap PageList.pages).Nodup :=
  hk.covers.nodup_iff.2 (PageRun.nodup_toList _)

/-- A run of whole pages of a region lies between the ends of the region. -/
theorem inside_region {run : PageRun} (hrun : 0 < run.pages)
    (h : ∀ page ∈ run.toList, page ∈ (PageRun.mk address (size / pageSize)).toList) :
    address ≤ run.address ∧ run.limit ≤ address + size := by
  obtain ⟨hbegin, hend⟩ := PageRun.inside_of_subset hrun h
  rw [PageRun.limit_eq (PageRun.mk address _)] at hend
  exact ⟨hbegin, Nat.le_trans hend (Nat.add_le_add_left (Nat.div_mul_le_self _ _) _)⟩

/-- The free runs lie in the range of the region. -/
theorem Kept.inside (hk : Kept kind address size a) {run : PageRun} (h : run ∈ a.region.free) :
    address ≤ run.address ∧ run.limit ≤ address + size :=
  inside_region (hk.spaced.positive run h) fun _ hp => hk.covers.subset (List.mem_append_left _ (List.mem_flatMap.2 ⟨run, h, hp⟩))

/-- An allocation that is out is one run of the region. -/
theorem Kept.held_inside (hk : Kept kind address size a) {pages : PageList} (h : pages ∈ a.held) :
    ∃ run : PageRun, pages.runs = [run] ∧ address ≤ run.address ∧ run.limit ≤ address + size := by
  obtain ⟨run, hpos, hruns⟩ := hk.single pages h
  refine ⟨run, hruns, inside_region hpos fun page hp => ?_⟩
  refine hk.covers.subset (List.mem_append_right _ (List.mem_flatMap.2 ⟨pages, h, ?_⟩))
  rw [PageList.pages, hruns]
  exact List.mem_append_left _ hp

/-- The pages that are taken can be cleared. -/
theorem Kept.clears (hk : Kept kind address size a) {host : Host} (h : host.Clears address size) {n start : Nat} {free : List PageRun}
    (htake : Region.takeFirst n a.region.free = some (start, free)) : host.clearing start (n * pageSize) = .ok () := by
  obtain ⟨before, run, after, hsplit, -, hlong, rfl⟩ := Region.exists_first_of_takeFirst htake
  obtain ⟨hbegin, hend⟩ := hk.inside (hsplit ▸ List.mem_append_right before List.mem_cons_self)
  refine h _ _ hbegin (Nat.le_trans ?_ hend)
  exact Nat.add_le_add_left (Nat.mul_le_mul_right _ hlong) _

/-- It does not matter in which order allocations are listed. -/
theorem Kept.perm (hk : Kept kind address size a) {held : List PageList} (h : held.Perm a.held) :
    Kept kind address size { a with held } where
  frame := hk.frame
  spaced := hk.spaced
  single pages hp := hk.single pages (h.subset hp)
  covers := ((h.flatMap_right PageList.pages).append_left _).trans hk.covers

/-- An allocation that succeeds keeps the pages: they go from the free ones to those that are out. -/
theorem Kept.grant (hk : Kept kind address size a) {host : Host} {n : Nat} {pages : PageList}
    (hok : (a.region.allocate host n).2.2 = .ok pages) :
    Kept kind address size { region := (a.region.allocate host n).1, held := pages :: a.held } := by
  obtain ⟨hframe, hspaced, hsingle, hperm⟩ := Region.allocate_ok_spaced hk.spaced hok
  refine ⟨?_, hspaced, List.forall_mem_cons.2 ⟨hsingle, hk.single⟩, ?_⟩
  · exact hframe.trans (by rw [hk.frame])
  · refine List.Perm.trans ?_ hk.covers
    refine List.Perm.trans ?_ (hperm.symm.append_right _)
    rw [List.flatMap_cons, ← List.append_assoc]
    exact List.perm_append_comm.append_right _

/-- An allocation that comes back has been apart from the free pages. -/
theorem Kept.release {region : Region} {pages : PageList} {held : List PageList}
    (hk : Kept kind address size { region, held := pages :: held }) :
    Kept kind address size { region := region.release pages, held } := by
  have hcovers := hk.covers
  have hnodup := hk.nodup
  rw [List.flatMap_cons, ← List.append_assoc] at hcovers hnodup
  have hmine : (pages.pages ++ region.available).Perm (region.available ++ pages.pages) := List.perm_append_comm
  have hspaced : Region.Spaced (region.release pages).free := by
    refine hk.spaced.release (hk.single pages List.mem_cons_self) ?_ ⟨address, size / pageSize⟩ fun page hp => ?_
    · exact hmine.nodup_iff.2 (List.nodup_append.1 hnodup).1
    · exact hcovers.subset (List.mem_append_left _ (hmine.subset hp))
  refine ⟨?_, hspaced, fun other ho => hk.single other (List.mem_cons_of_mem _ ho), ?_⟩
  · exact congrArg (fun r : Region => { r with free := (region.release pages).free }) hk.frame
  · exact (((Region.release_perm region pages).trans hmine).append_right _).trans hcovers

/-- The region is known from the allocations that are out. -/
theorem Kept.region_eq {region region' : Region} {held : List PageList} (hk : Kept kind address size { region, held })
    (hk' : Kept kind address size { region := region', held }) : region = region' := by
  have hpages : region.available.Perm region'.available := (List.perm_append_right_iff _).1 (hk.covers.trans hk'.covers.symm)
  have hfree := hk.spaced.eq_of_mem_iff hk'.spaced fun _ => hpages.mem_iff
  exact hk.frame.trans ((congrArg (Region.mk kind address size) hfree).trans hk'.frame.symm)

/-- One request keeps the pages. -/
theorem Kept.step (hk : Kept kind address size a) {request : Request} (h : request.Clears address size) :
    Kept kind address size (a.step request) := by
  unfold Allocator.step
  cases request with
  | allocate host n =>
    dsimp only
    split
    · next region host' pages hrun =>
      have hgrant := hk.grant (show (a.region.allocate host n).2.2 = .ok pages by rw [hrun])
      rw [hrun] at hgrant
      exact hgrant.perm List.perm_append_comm
    · next region host' e hrun =>
      have hsame := (Region.allocate_error_of_clears (fun _ _ => hk.clears h)
        (show (a.region.allocate host n).2.2 = .error e by rw [hrun])).1
      rw [hrun] at hsame
      obtain rfl : region = a.region := hsame
      exact hk
  | drop index =>
    dsimp only
    split
    · exact hk
    · next pages hget =>
      obtain ⟨hindex, rfl⟩ := List.getElem?_eq_some_iff.1 hget
      exact (hk.perm (List.getElem_cons_eraseIdx_perm hindex)).release

/-- Requests one after the other keep the pages. -/
theorem Kept.foldl (hk : Kept kind address size a) {requests : List Request}
    (h : ∀ request ∈ requests, request.Clears address size) : Kept kind address size (requests.foldl Allocator.step a) := by
  induction requests generalizing a with
  | nil => exact hk
  | cons request rest ih =>
    exact ih (hk.step (h request List.mem_cons_self)) fun later hl => h later (List.mem_cons_of_mem _ hl)

/-- What the pages of a region are shared out as. -/
structure Partitions (kind : RegionKind) (address size : Nat) (a : Allocator) : Prop where
  /-- The free pages and those of the allocations are the whole pages of the region, -/
  covers : (a.region.available ++ a.held.flatMap PageList.pages).Perm (PageRun.mk address (size / pageSize)).toList
  /-- and no page is free twice, out twice, or both. -/
  disjoint : (a.region.available ++ a.held.flatMap PageList.pages).Nodup
  /-- No free run is empty, and no two of them touch. -/
  spaced : Region.Spaced a.region.free
  /-- Pages are handed out exactly if a free run is long enough. -/
  grants : ∀ (host : Host) (n : Nat), host.Clears address size →
    ((∃ pages, (a.region.allocate host n).2.2 = .ok pages) ↔ 1 ≤ n ∧ ∃ run ∈ a.region.free, n ≤ run.pages)
  /-- They begin at the lowest address from which so many pages are free. -/
  lowest : ∀ (host : Host) (n : Nat) (pages : PageList), (a.region.allocate host n).2.2 = .ok pages →
    ∃ start, pages = .ofRun start n ∧
      IsLeast {start | ∀ page ∈ (PageRun.mk start n).toList, page ∈ a.region.available} start
  /-- The count of free pages and the pages of the allocations add up. -/
  counts : a.region.freePages + total PageList.pageCount a.held = size / pageSize
  /-- Once no allocation is out the region is as it began. -/
  emptied : a.held = [] → a.region = .new kind address size
  /-- None of the plain sums that an allocation, a drop and the count of the free pages take leaves the word. -/
  words : (∀ n, 1 ≤ n → Region.takeFirstInWords n a.region.free = .ok (Region.takeFirst n a.region.free)) ∧
    (∀ pages ∈ a.held, a.region.releaseInWords pages = .ok (a.region.release pages)) ∧
    PageList.countInWords 0 a.region.free = .ok a.region.freePages

/-- The pages that are free and those that are out are all pages of the region in number. -/
theorem Kept.counts (hk : Kept kind address size a) : a.region.freePages + total PageList.pageCount a.held = size / pageSize := by
  have hlength := hk.covers.length_eq
  rwa [List.length_append, length_flatMap_eq_total PageList.length_pages, Region.available, PageRun.length_flatMap_toList,
    PageRun.length_toList] at hlength

/-- Where the region ends within the word, no sum of an allocation or a release overflows. -/
theorem Kept.words (hk : Kept kind address size a) (hword : address + size < wordLimit) :
    (∀ n, 1 ≤ n → Region.takeFirstInWords n a.region.free = .ok (Region.takeFirst n a.region.free)) ∧
      (∀ pages ∈ a.held, a.region.releaseInWords pages = .ok (a.region.release pages)) ∧
      PageList.countInWords 0 a.region.free = .ok a.region.freePages := by
  have hfits : PageList.Fits a.region.free := fun run hrun => Nat.lt_of_le_of_lt (hk.inside hrun).2 hword
  refine ⟨fun n hn => Region.takeFirstInWords_eq hn fun run hrun _ => hfits run hrun, fun pages hp => ?_, ?_⟩
  · obtain ⟨run, hruns, -, hend⟩ := hk.held_inside hp
    unfold Region.releaseInWords Region.release
    rw [hruns, List.foldlM_cons, Region.putBackInWords_eq (Nat.lt_of_le_of_lt hend hword) hfits]
    rfl
  · have hcount : 0 + total PageRun.pages a.region.free < wordLimit := by
      have htotal : total PageRun.pages a.region.free + total PageList.pageCount a.held = size / pageSize := hk.counts
      have hle : size / pageSize ≤ size := Nat.div_le_self _ _
      omega
    rw [PageList.countInWords_eq hcount, Nat.zero_add]
    rfl

/-- Whatever is allocated and dropped, in whatever order, the allocator shares the pages of its region out. -/
theorem after_partitions (kind : RegionKind) {address size : Nat} (hword : address + size < wordLimit) (requests : List Request)
    (hclears : ∀ request ∈ requests, request.Clears address size) :
    Partitions kind address size (after kind address size requests) := by
  have hk : Kept kind address size (after kind address size requests) := (kept_new kind address size).foldl hclears
  refine ⟨hk.covers, hk.nodup, hk.spaced, fun host n hhost => ⟨?_, fun hrun => ?_⟩, fun host n pages hok => ?_, hk.counts,
    fun hempty => ?_, hk.words hword⟩
  · rintro ⟨pages, hok⟩
    obtain ⟨start, free, hpos, htake, -, -⟩ := Region.allocate_ok hok
    obtain ⟨before, run, behind, hsplit, -, hlong, -⟩ := Region.exists_first_of_takeFirst htake
    exact ⟨hpos, run, hsplit ▸ List.mem_append_right before List.mem_cons_self, hlong⟩
  · cases hresult : ((after kind address size requests).region.allocate host n).2.2 with
    | ok pages => exact ⟨pages, rfl⟩
    | error e => exact absurd hrun (Region.allocate_error_of_clears (fun _ _ => hk.clears hhost) hresult).2
  · obtain ⟨start, free, hpos, htake, rfl, -⟩ := Region.allocate_ok hok
    exact ⟨start, rfl, hk.spaced.takeFirst_isLeast hpos htake⟩
  · have hnone : Kept kind address size { region := (after kind address size requests).region, held := [] } := hempty ▸ hk
    exact hnone.region_eq (kept_new kind address size)

/-- Two allocations are dropped out of order; the next one takes what the first one had and goes on behind it. -/
theorem after_partitions_reused :
    let host : Host := { memory := .new 0x9000 }
    let requests : List Request := [.allocate host 2, .allocate host 1, .allocate host 1, .drop 1, .drop 0, .allocate host 3]
    Partitions .service 0x1000 0x8000 (after .service 0x1000 0x8000 requests) ∧
      after .service 0x1000 0x8000 requests =
        { region := { kind := .service, address := 0x1000, size := 0x8000, free := [⟨0x5000, 4⟩] },
          held := [.ofRun 0x4000 1, .ofRun 0x1000 3] } := by
  intro host requests
  have hhost : host.Clears 0x1000 0x8000 := Host.clears_of_le (by decide) (by decide)
  have hclears : ∀ request ∈ requests, request.Clears 0x1000 0x8000 := by simp [requests, Request.Clears, hhost]
  exact ⟨after_partitions .service (by decide) requests hclears, by decide⟩

end Allocator

end Microkernel
