import Microkernel.Proofs.Machine.Subsiding
import Microkernel.Proofs.Memory.Allocator

/-!
# Orderly machines

In an orderly machine every page of every region is free or belongs to one allocation (`Stocked`), whoever has pages keeps the
allocations alive that they belong to (`Backed`), and the numbers of allocations are used for nothing else (`Numbered`). What subsides
stays orderly; so does a machine that draws pages, or gives back pages that nobody has.
-/

namespace Microkernel.Machine

/-! ## Pages and their allocations -/

/-- The free pages of a region. -/
def available (s : Machine) (kernel : RecordId) (kind : RegionKind) : List Nat := ((s.kernel kernel).region kind).available

/-- Every page of every region is free or belongs to exactly one allocation, once. -/
structure Stocked (x : Setup) (s : Machine) : Prop where
  complete : (s.kernel x.kernel).Complete
  placed : ∀ kind, ((s.kernel x.kernel).region kind).address = x.config.memoryArrange.base kind ∧
    ((s.kernel x.kernel).region kind).size = x.config.memoryArrange.regionSize kind
  spaced : ∀ kind, Region.Spaced ((s.kernel x.kernel).region kind).free
  single : ∀ (id : AllocationId) a, s.allocations[id]? = some a → a.pages.Single
  memory : x.config.memoryArrange.totalSize ≤ (s.kernel x.kernel).host.memory.size
  nodup : ∀ kind, (s.available x.kernel kind).Nodup
  free : ∀ kind, ∀ page ∈ s.available x.kernel kind, page ∈ x.config.memoryArrange.pages kind
  old : ∀ (id : AllocationId) a, s.allocations[id]? = some a → id < s.nextId
  origin : ∀ (id : AllocationId) a, s.allocations[id]? = some a → a.kernel = x.kernel
  taken : ∀ (id : AllocationId) a, s.allocations[id]? = some a → ∀ page ∈ a.pages.pages,
    page ∈ x.config.memoryArrange.pages a.region ∧ page ∉ s.available x.kernel a.region
  once : ∀ (id : AllocationId) a, s.allocations[id]? = some a → a.pages.pages.Nodup
  apart : ∀ (id id' : AllocationId) a a', s.allocations[id]? = some a → s.allocations[id']? = some a' → id ≠ id' →
    ∀ page ∈ a.pages.pages, page ∉ a'.pages.pages
  whole : ∀ kind, ∀ page ∈ x.config.memoryArrange.pages kind, page ∈ s.available x.kernel kind ∨
    ∃ (id : AllocationId) (a : Allocation), s.allocations[id]? = some a ∧ a.region = kind ∧ page ∈ a.pages.pages

/-- Something alive has these pages and keeps these allocations alive: a mapping, a block of shared memory, or transfer memory. -/
inductive Holder (s : Machine) : PageList → List AllocationId → Prop
  | mapping {id : RecordId} {m : Mapping} (h : m ∈ (s.process id).space.mappings) : Holder s m.pages m.backing
  | shared {id : RecordId} {m : SharedMemory} (h : s.sharedMemories[id]? = some m) : Holder s m.pages [m.allocation]
  | transfer {id : RecordId} {m : TransferMemory} (h : s.transferMemories[id]? = some m) : Holder s m.pages m.backing

/-- The pages are those of a memory object. -/
def IsObject (s : Machine) (pages : PageList) : Prop :=
  (∃ (i : RecordId) (m : SharedMemory), s.sharedMemories[i]? = some m ∧ m.pages = pages) ∨
    ∃ (i : RecordId) (m : TransferMemory), s.transferMemories[i]? = some m ∧ m.pages = pages

/-- A memory object has its pages. -/
theorem IsObject.holder {s : Machine} {pages : PageList} (h : s.IsObject pages) : ∃ backing, s.Holder pages backing := by
  rcases h with ⟨i, m, hm, rfl⟩ | ⟨i, m, hm, rfl⟩
  · exact ⟨_, .shared hm⟩
  · exact ⟨_, .transfer hm⟩

/-- The allocations exist, and the pages belong to them. -/
def Covered (s : Machine) (pages : PageList) (backing : List AllocationId) : Prop :=
  (∀ id ∈ backing, s.allocations.contains id = true) ∧
    ∀ page ∈ pages.pages, ∃ id ∈ backing, ∃ a, s.allocations[id]? = some a ∧ page ∈ a.pages.pages

/-- The pages are covered, and have no place twice. -/
structure Secured (s : Machine) (pages : PageList) (backing : List AllocationId) : Prop where
  covered : s.Covered pages backing
  once : pages.places.Nodup

/-- Whoever has pages keeps the allocations alive that they belong to. -/
structure Backed (s : Machine) : Prop where
  secured : ∀ pages backing, s.Holder pages backing → s.Secured pages backing
  paged : ∀ id, (s.process id).space.Paged
  /-- Heap memory belongs to no object. -/
  heap : ∀ id, ∀ m ∈ (s.process id).space.mappings, m.state = .normal → m.object = none
  /-- What is mapped for no object is mapped once. -/
  own : ∀ id id' m m', m ∈ (s.process id).space.mappings → m' ∈ (s.process id').space.mappings → m.object = none →
    m'.object = none → ∀ a ∈ m.backing, a ∈ m'.backing → id = id' ∧ ∃ permission, m' = { m with permission }

/-- A number that was given to something, but not to an allocation that exists. -/
def NoAllocation (s : Machine) (id : RecordId) : Prop := id < s.nextId ∧ s.allocations[id]? = none

/-- Allocations are referred to by those who have their pages only. -/
structure Numbered (s : Machine) : Prop where
  object : ∀ o, s.has o = true → s.NoAllocation o.id
  member : ∀ k (pid : Nat) (id : RecordId), (s.kernel k).processes[pid]? = some id → s.NoAllocation id
  handle : ∀ id, ∀ o ∈ (s.process id).handles.objects, s.NoAllocation o.id
  processOf : ∀ id, s.has (.thread id) = true → s.NoAllocation (s.thread id).process
  held : ∀ id ∈ s.held, s.NoAllocation id

/-- A machine in which pages, those who have them and numbers belong together. -/
structure Orderly (x : Setup) (s : Machine) : Prop where
  stocked : Stocked x s
  backed : Backed s
  numbered : Numbered s
  simple : Simple x.kernel s

/-! ## Growing and subsiding -/

section

variable {x : Setup} {s t : Machine}

/-- Regions and allocations stay as they are. -/
theorem Stocked.of_same (h : Stocked x s) (hn : s.nextId ≤ t.nextId)
    (ha : ∀ id : AllocationId, t.allocations[id]? = s.allocations[id]?)
    (hregion : ∀ kind, (t.kernel x.kernel).region kind = (s.kernel x.kernel).region kind)
    (hcomplete : (s.kernel x.kernel).Complete → (t.kernel x.kernel).Complete)
    (hmemory : (t.kernel x.kernel).host.memory.size = (s.kernel x.kernel).host.memory.size) : Stocked x t := by
  have havailable (kind : RegionKind) : t.available x.kernel kind = s.available x.kernel kind :=
    congrArg Region.available (hregion kind)
  constructor
  case complete => exact hcomplete h.complete
  case placed => exact fun kind => hregion kind ▸ h.placed kind
  case spaced => exact fun kind => hregion kind ▸ h.spaced kind
  case single => exact fun id a hid => h.single id a (ha id ▸ hid)
  case memory => exact hmemory ▸ h.memory
  case nodup => exact fun kind => havailable kind ▸ h.nodup kind
  case free => exact fun kind => havailable kind ▸ h.free kind
  case old => exact fun id a hid => Nat.lt_of_lt_of_le (h.old id a (ha id ▸ hid)) hn
  case origin => exact fun id a hid => h.origin id a (ha id ▸ hid)
  case taken =>
    intro id a hid
    rw [havailable]
    exact h.taken id a (ha id ▸ hid)
  case once => exact fun id a hid => h.once id a (ha id ▸ hid)
  case apart => exact fun id id' a a' hid hid' => h.apart id id' a a' (ha id ▸ hid) (ha id' ▸ hid')
  case whole =>
    intro kind page hp
    rw [havailable]
    refine (h.whole kind page hp).imp_right ?_
    rintro ⟨id, a, hid, hkind, hpage⟩
    exact ⟨id, a, (ha id).trans hid, hkind, hpage⟩

/-- Who has pages depends on processes and memory objects alone. -/
theorem Holder.of_same {pages : PageList} {backing : List AllocationId} (h : t.Holder pages backing) (hp : t.processes = s.processes)
    (hs : t.sharedMemories = s.sharedMemories) (ht : t.transferMemories = s.transferMemories) : s.Holder pages backing := by
  cases h with
  | @mapping id m hm =>
    have hm : m ∈ (s.process id).space.mappings := by
      unfold process at hm ⊢
      exact hp ▸ hm
    exact .mapping hm
  | shared hm => exact .shared (hs ▸ hm)
  | transfer hm => exact .transfer (ht ▸ hm)

/-- Allocations that are held stay held. -/
theorem Covered.of_same {pages : PageList} {backing : List AllocationId} (h : s.Covered pages backing)
    (ha : ∀ id ∈ backing, t.allocations[id]? = s.allocations[id]?) : t.Covered pages backing := by
  refine ⟨fun id hid => ?_, fun page hp => ?_⟩
  · exact (Records.contains_congr (ha id hid)).trans (h.1 id hid)
  · obtain ⟨id, hid, a, hsome, hpage⟩ := h.2 page hp
    exact ⟨id, hid, a, (ha id hid).trans hsome, hpage⟩

/-- Pages stay secured as long as their allocations stay. -/
theorem Secured.of_same {pages : PageList} {backing : List AllocationId} (h : s.Secured pages backing)
    (ha : ∀ id ∈ backing, t.allocations[id]? = s.allocations[id]?) : t.Secured pages backing :=
  ⟨h.covered.of_same ha, h.once⟩

/-- In a backed machine all pages that somebody has are covered. -/
theorem Backed.covered (h : Backed s) (pages : PageList) (backing : List AllocationId) (hh : s.Holder pages backing) :
    s.Covered pages backing := (h.secured pages backing hh).covered

/-- Whoever has pages had them before, or has pages of allocations that it keeps alive. -/
theorem Backed.grow (h : Backed s)
    (ha : ∀ pages backing, s.Holder pages backing → ∀ id ∈ backing, t.allocations[id]? = s.allocations[id]?)
    (hholder : ∀ pages backing, t.Holder pages backing → s.Holder pages backing ∨ t.Secured pages backing)
    (hpaged : ∀ id, (t.process id).space.Paged)
    (hheap : ∀ id, ∀ m ∈ (t.process id).space.mappings, m.state = .normal → m.object = none)
    (hown : ∀ id id' m m', m ∈ (t.process id).space.mappings → m' ∈ (t.process id').space.mappings → m.object = none →
      m'.object = none → ∀ a ∈ m.backing, a ∈ m'.backing → id = id' ∧ ∃ permission, m' = { m with permission }) : Backed t where
  secured pages backing hh := by
    rcases hholder pages backing hh with hh | hc
    · exact (h.secured pages backing hh).of_same (ha pages backing hh)
    · exact hc
  paged := hpaged
  heap := hheap
  own := hown

/-- The mappings stay as they are; there may be new memory objects. -/
theorem Backed.add (h : Backed s) (ha : t.allocations = s.allocations)
    (hspace : ∀ id, (t.process id).space.mappings = (s.process id).space.mappings)
    (hshared : ∀ (id : RecordId) m, t.sharedMemories[id]? = some m →
      s.sharedMemories[id]? = some m ∨ s.Secured m.pages [m.allocation])
    (htransfer : ∀ (id : RecordId) m, t.transferMemories[id]? = some m →
      s.transferMemories[id]? = some m ∨ s.Secured m.pages m.backing) : Backed t := by
  have hsame (id : AllocationId) : t.allocations[id]? = s.allocations[id]? := by rw [ha]
  refine h.grow (fun _ _ _ id _ => hsame id) (fun pages backing hh => ?_) (fun id m hm => h.paged id m (hspace id ▸ hm))
    (fun id m hm => h.heap id m (hspace id ▸ hm)) ?_
  · cases hh with
    | @mapping id m hm =>
      rw [hspace] at hm
      exact .inl (.mapping hm)
    | shared hm => exact (hshared _ _ hm).imp .shared fun hc => hc.of_same fun id _ => hsame id
    | transfer hm => exact (htransfer _ _ hm).imp .transfer fun hc => hc.of_same fun id _ => hsame id
  · intro id id' m m' hm hm'
    rw [hspace] at hm hm'
    exact h.own id id' m m' hm hm'

/-- A number that is no allocation's stays so, if none is made under an old number. -/
theorem NoAllocation.of_same {id : RecordId} (h : s.NoAllocation id) (hn : s.nextId ≤ t.nextId)
    (ha : ∀ id, s.NoAllocation id → t.allocations[id]? = none) : t.NoAllocation id :=
  ⟨Nat.lt_of_lt_of_le h.1 hn, ha id h⟩

/-- What is referred to was referred to before, or is no allocation. -/
theorem Numbered.grow (h : Numbered s) (hn : s.nextId ≤ t.nextId) (ha : ∀ id, s.NoAllocation id → t.allocations[id]? = none)
    (hobject : ∀ o, t.has o = true → s.has o = true ∨ t.NoAllocation o.id)
    (hmember : ∀ k (pid : Nat) (id : RecordId), (t.kernel k).processes[pid]? = some id →
      (s.kernel k).processes[pid]? = some id ∨ t.NoAllocation id)
    (hhandle : ∀ id, ∀ o ∈ (t.process id).handles.objects, o ∈ (s.process id).handles.objects ∨ t.NoAllocation o.id)
    (hprocess : ∀ id, t.has (.thread id) = true → s.has (.thread id) = true ∧ (t.thread id).process = (s.thread id).process ∨
      t.NoAllocation (t.thread id).process)
    (hheld : ∀ id ∈ t.held, id ∈ s.held ∨ t.NoAllocation id) : Numbered t where
  object o ho := (hobject o ho).elim (fun ho => (h.object o ho).of_same hn ha) id
  member k pid id hm := (hmember k pid id hm).elim (fun hm => (h.member k pid id hm).of_same hn ha) fun h => h
  handle id o ho := (hhandle id o ho).elim (fun ho => (h.handle id o ho).of_same hn ha) fun h => h
  processOf id hid := by
    rcases hprocess id hid with ⟨hs, heq⟩ | hno
    · rw [heq]
      exact (h.processOf id hs).of_same hn ha
    · exact hno
  held id hid := (hheld id hid).elim (fun hid => (h.held id hid).of_same hn ha) fun h => h

/-- Whoever has pages after a machine has subsided had them before. -/
theorem Subsides.holder (hs : Subsides s t) {pages : PageList} {backing : List AllocationId} (h : t.Holder pages backing) :
    s.Holder pages backing := by
  cases h with
  | @mapping id m hm =>
    obtain ⟨m₀, hm₀, permission, rfl⟩ := (hs.process id).mapping m hm
    exact (Holder.mapping hm₀ : s.Holder m₀.pages m₀.backing)
  | @shared id m hm => exact .shared (hs.shared id m hm)
  | @transfer id m hm =>
    obtain ⟨m₀, hm₀, hpages, hbacking⟩ := hs.transfer id m hm
    rw [hpages, hbacking]
    exact .transfer hm₀

/-- A machine that subsides stays backed. -/
theorem Backed.of_subsides (h : Backed s) (hs : Subsides s t) : Backed t := by
  refine h.grow (fun _ _ _ id _ => hs.allocation id) (fun _ _ hh => .inl (hs.holder hh)) (fun id m hm => ?_) (fun id m hm => ?_) ?_
  · obtain ⟨m₀, hm₀, permission, rfl⟩ := (hs.process id).mapping m hm
    exact h.paged id m₀ hm₀
  · obtain ⟨m₀, hm₀, permission, rfl⟩ := (hs.process id).mapping m hm
    exact h.heap id m₀ hm₀
  · intro id id' m m' hm hm' ho ho' a ha ha'
    obtain ⟨m₀, hm₀, permission, rfl⟩ := (hs.process id).mapping m hm
    obtain ⟨m₀', hm₀', permission', rfl⟩ := (hs.process id').mapping m' hm'
    obtain ⟨hid, permission₀, rfl⟩ := h.own id id' m₀ m₀' hm₀ hm₀' ho ho' a ha ha'
    exact ⟨hid, permission', rfl⟩

/-- A machine that subsides uses the numbers of allocations for nothing else. -/
theorem Numbered.of_subsides (h : Numbered s) (hs : Subsides s t) : Numbered t :=
  h.grow (Nat.le_of_eq hs.nextId.symm) (fun id hid => (hs.allocation id).trans hid.2) (fun o ho => .inl (hs.object o ho))
    (fun k pid id hm => .inl ((hs.kernel k).member pid id hm)) (fun id o ho => .inl ((hs.process id).object o ho))
    (fun id hid => .inl ⟨hs.object _ hid, hs.processOf id hid⟩) fun id hid => .inl (hs.held id hid)

/-- What subsides stays orderly, as long as it does not lose the threads of its processes. -/
theorem Orderly.of_subsides (h : Orderly x s) (hs : Subsides s t)
    (hthread : ∀ id, ∀ th ∈ (t.process id).threads, t.has (.thread th) = true) : Orderly x t where
  stocked := h.stocked.of_same (Nat.le_of_eq hs.nextId.symm) hs.allocation (hs.kernel x.kernel).region (hs.kernel x.kernel).complete
    (congrArg HostMemory.size (hs.kernel x.kernel).memory)
  backed := h.backed.of_subsides hs
  numbered := h.numbered.of_subsides hs
  simple := h.simple.of_subsides hs hthread

/-- What a calm program leaves behind is orderly. -/
theorem Orderly.of_calm {known : KernelObject → Prop} (h : Orderly x s) (hc : Calm x.kernel known s t)
    (hk : ∀ o, known o → s.has o = true) : Orderly x t :=
  h.of_subsides (hc h.simple hk).1 (hc.simple h.simple hk).threadOf

/-- What a calm program about one object leaves behind is orderly. -/
theorem Orderly.of_calm_for {o : KernelObject} (h : Orderly x s) (hc : Calm x.kernel (o = ·) s t) (ho : s.has o = true) :
    Orderly x t :=
  h.of_calm hc fun _ heq => heq ▸ ho

/-! ## Drawing pages -/

/-- Nobody keeps the allocation alive. -/
def Unheld (s : Machine) (id : AllocationId) : Prop := ∀ pages backing, s.Holder pages backing → id ∉ backing

/-- An allocation that somebody keeps alive exists. -/
theorem Backed.exists_of_holder (h : Backed s) {pages : PageList} {backing : List AllocationId} (hh : s.Holder pages backing)
    {id : AllocationId} (hid : id ∈ backing) : ∃ a, s.allocations[id]? = some a :=
  Records.contains_iff.1 ((h.covered pages backing hh).1 id hid)

/-- The number of the next allocation has not been given. -/
theorem Stocked.fresh (h : Stocked x s) : s.allocations[s.nextId]? = none := by
  cases ha : s.allocations[s.nextId]? with
  | none => rfl
  | some a => exact absurd (h.old _ a ha) (Nat.lt_irrefl _)

/-- The kernel's regions fit into the memory of its host. -/
theorem Stocked.fitsIn (h : Stocked x s) (kind : RegionKind) :
    ((s.kernel x.kernel).region kind).FitsIn (s.kernel x.kernel).host.memory.size := by
  intro page hp
  obtain ⟨hsize, hword⟩ := MemoryArrange.le_totalSize (h.free kind page hp)
  exact ⟨Nat.le_trans hsize h.memory, hword⟩

/-- The byte at a physical address. -/
def byteAt (s : Machine) (kernel : RecordId) (place : Nat) : UInt8 := (s.kernel kernel).host.memory.byteAt place

/-- Pages have been taken under the next number and cleared; nobody has them yet. -/
structure Draws (x : Setup) (kind : RegionKind) (pages : PageList) (s t : Machine) : Prop where
  orderly : Orderly x t
  allocation : t.allocations[s.nextId]? = some { kernel := x.kernel, region := kind, pages }
  others : ∀ id : AllocationId, id ≠ s.nextId → t.allocations[id]? = s.allocations[id]?
  bytes : ∀ place ∉ pages.places, t.byteAt x.kernel place = s.byteAt x.kernel place
  unheld : t.Unheld s.nextId
  processes : t.processes = s.processes
  sharedMemories : t.sharedMemories = s.sharedMemories
  transferMemories : t.transferMemories = s.transferMemories
  has : ∀ o, t.has o = s.has o

/-- Pages of allocations stand at page borders. -/
theorem Stocked.dvd_page (h : Stocked x s) {id : AllocationId} {a : Allocation} (ha : s.allocations[id]? = some a) {page : Nat}
    (hp : page ∈ a.pages.pages) : pageSize ∣ page :=
  MemoryArrange.dvd_page (h.taken id a ha page hp).1

/-- No allocation has a place twice. -/
theorem Stocked.nodup_places (h : Stocked x s) {id : AllocationId} {a : Allocation} (ha : s.allocations[id]? = some a) :
    a.pages.places.Nodup :=
  PageList.nodup_places (fun _ hp => h.dvd_page ha hp) (h.once id a ha)

/-- Two allocations have no place in common. -/
theorem Stocked.eq_of_place (h : Stocked x s) {id id' : AllocationId} {a a' : Allocation} (ha : s.allocations[id]? = some a)
    (ha' : s.allocations[id']? = some a') {place : Nat} (hp : place ∈ a.pages.places) (hp' : place ∈ a'.pages.places) : id = id' := by
  obtain ⟨page, hpage, hle, hlt⟩ := PageList.mem_places.1 hp
  obtain ⟨page', hpage', hle', hlt'⟩ := PageList.mem_places.1 hp'
  have hsame : page = page' := by
    rw [PageList.eq_of_mem_page (h.dvd_page ha hpage) hle hlt, PageList.eq_of_mem_page (h.dvd_page ha' hpage') hle' hlt']
  exact Classical.byContradiction fun hne => h.apart id id' a a' ha ha' hne page hpage (hsame ▸ hpage')

/-- A place of somebody's pages belongs to an allocation that it keeps alive. -/
theorem Covered.exists_of_place {pages : PageList} {backing : List AllocationId} (h : s.Covered pages backing) {place : Nat}
    (hp : place ∈ pages.places) : ∃ id ∈ backing, ∃ a, s.allocations[id]? = some a ∧ place ∈ a.pages.places := by
  obtain ⟨page, hpage, hin⟩ := PageList.mem_places.1 hp
  obtain ⟨id, hid, a, ha, hpage⟩ := h.2 page hpage
  exact ⟨id, hid, a, ha, PageList.mem_places.2 ⟨page, hpage, hin⟩⟩

/-- Mappings of heap memory that have a place in common differ in their permissions only. -/
theorem Orderly.heap_eq (h : Orderly x s) {id id' : RecordId} {m m' : Mapping} (hm : m ∈ (s.process id).space.mappings)
    (hm' : m' ∈ (s.process id').space.mappings) (hstate : m.state = .normal) (hstate' : m'.state = .normal) {place : Nat}
    (hp : place ∈ m.pages.places) (hp' : place ∈ m'.pages.places) : ∃ permission, m' = { m with permission } := by
  obtain ⟨i, hi, a, ha, hin⟩ := (h.backed.covered _ _ (.mapping hm)).exists_of_place hp
  obtain ⟨i', hi', a', ha', hin'⟩ := (h.backed.covered _ _ (.mapping hm')).exists_of_place hp'
  obtain rfl := h.stocked.eq_of_place ha ha' hin hin'
  exact (h.backed.own id id' m m' hm hm' (h.backed.heap id m hm hstate) (h.backed.heap id' m' hm' hstate') i hi hi').2

/-- What is taken is secured for whoever keeps it alive. -/
theorem Draws.secured {kind : RegionKind} {pages : PageList} (h : Draws x kind pages s t) : t.Secured pages [s.nextId] := by
  refine ⟨⟨fun a ha => ?_, fun page hp => ⟨s.nextId, List.mem_singleton_self _, _, h.allocation, hp⟩⟩,
    h.orderly.stocked.nodup_places h.allocation⟩
  exact List.mem_singleton.1 ha ▸ Records.contains_of_getElem? h.allocation

/-- Putting one region back changes no other. -/
theorem region_withRegion {kernel : RecordId} (h : (s.kernel kernel).Complete) (r : Region) (host : Host) (kind : RegionKind) :
    ((s.withRegion kernel r host).kernel kernel).region kind = if kind = r.kind then r else (s.kernel kernel).region kind := by
  have hkernel : (s.withRegion kernel r host).kernel kernel = { (s.kernel kernel).setRegion r with host } :=
    (kernel_insert _ _ _ _).trans (if_pos rfl)
  rw [hkernel]
  exact h.region_setRegion r kind

/-- What is bare stays so with another region. -/
theorem bare_withRegion {kernel : RecordId} {r : Region} {host : Host} (h : s.Bare) : (s.withRegion kernel r host).Bare := by
  obtain ⟨h1, h2, h3, h4, h5, h6, h7, h8, h9, h10, h11⟩ := h
  refine ⟨h1, h2, h3, h4, h5, h6, h7, h8, h9, h10, fun k => ?_⟩
  refine (congrArg Kernel.namedPorts (kernel_insert s kernel k _)).trans ?_
  split
  · exact h11 kernel
  · exact h11 k

/-- Another region changes no process set. -/
theorem member_withRegion {kernel k : RecordId} {r : Region} {host : Host} :
    ((s.withRegion kernel r host).kernel k).processes = (s.kernel k).processes := by
  refine (congrArg Kernel.processes (kernel_insert s kernel k _)).trans ?_
  split
  · next heq =>
    subst heq
    rfl
  · rfl

/-- A kernel that has all its regions has them with another one in its place. -/
theorem complete_withRegion {kernel : RecordId} (h : (s.kernel kernel).Complete) (r : Region) (host : Host) :
    ((s.withRegion kernel r host).kernel kernel).Complete := by
  have hkernel : (s.withRegion kernel r host).kernel kernel = { (s.kernel kernel).setRegion r with host } :=
    (kernel_insert _ _ _ _).trans (if_pos rfl)
  rw [hkernel]
  exact h.setRegion r

/-- The memory of a kernel is that of the host that comes with the region. -/
theorem memory_withRegion {kernel : RecordId} (r : Region) (host : Host) :
    ((s.withRegion kernel r host).kernel kernel).host.memory.size = host.memory.size :=
  congrArg (·.host.memory.size) ((kernel_insert s kernel kernel _).trans (if_pos rfl))

/-- The pages of an allocation leave the free pages of its region. -/
theorem Stocked.draw (h : Stocked x s) {kind : RegionKind} {address n : Nat} {free : List PageRun} {host : Host}
    (hsize : host.memory.size = (s.kernel x.kernel).host.memory.size) (hspaced : Region.Spaced free)
    (hsingle : (PageList.ofRun address n).Single)
    (hperm : (s.available x.kernel kind).Perm ((PageRun.mk address n).toList ++ free.flatMap PageRun.toList)) :
    Stocked x { s.withRegion x.kernel { (s.kernel x.kernel).region kind with free } host with
      nextId := s.nextId + 1
      allocations := s.allocations.insert s.nextId { kernel := x.kernel, region := kind, pages := .ofRun address n } } := by
  have hkind : ((s.kernel x.kernel).region kind).kind = kind := h.complete.kind_region kind
  have hregion (kind' : RegionKind) :
      ((s.withRegion x.kernel { (s.kernel x.kernel).region kind with free } host).kernel x.kernel).region kind' =
        if kind' = kind then { (s.kernel x.kernel).region kind with free } else (s.kernel x.kernel).region kind' := by
    rw [region_withRegion h.complete]
    dsimp only
    rw [hkind]
  have havailable (kind' : RegionKind) :
      (s.withRegion x.kernel { (s.kernel x.kernel).region kind with free } host).available x.kernel kind' =
        if kind' = kind then free.flatMap PageRun.toList else s.available x.kernel kind' := by
    refine (congrArg Region.available (hregion kind')).trans ?_
    split <;> rfl
  have hlookup (id : AllocationId) : (s.allocations.insert s.nextId
      { kernel := x.kernel, region := kind, pages := .ofRun address n })[id]? = if id = s.nextId then
        some { kernel := x.kernel, region := kind, pages := .ofRun address n } else s.allocations[id]? :=
    Records.getElem?_insert _ _ _ _
  have hpages : (PageList.ofRun address n).pages = (PageRun.mk address n).toList := PageList.ofRun_pages address n
  -- the pages that are taken and those that stay free make up what was free
  obtain ⟨-, hfree, hdisjoint⟩ := List.nodup_append.1 (hperm.nodup_iff.1 (h.nodup kind))
  have htaken (page : Nat) (hp : page ∈ (PageRun.mk address n).toList) : page ∈ s.available x.kernel kind :=
    hperm.symm.subset (List.mem_append_left _ hp)
  have hstays (page : Nat) (hp : page ∈ free.flatMap PageRun.toList) : page ∈ s.available x.kernel kind :=
    hperm.symm.subset (List.mem_append_right _ hp)
  have hnew (id : AllocationId) (a : Allocation) (hid : s.allocations[id]? = some a) (page : Nat)
      (hp : page ∈ (PageRun.mk address n).toList) : page ∉ a.pages.pages := by
    intro hpage
    obtain ⟨hin, hout⟩ := h.taken id a hid page hpage
    rw [MemoryArrange.pages_disjoint hin (h.free kind page (htaken page hp))] at hout
    exact hout (htaken page hp)
  constructor
  case complete => exact complete_withRegion h.complete _ _
  case placed =>
    intro kind'
    refine (congrArg (fun r : Region => r.address = _ ∧ r.size = _) (hregion kind')).mpr ?_
    split
    · next heq => exact heq ▸ h.placed kind
    · exact h.placed kind'
  case spaced =>
    intro kind'
    refine (congrArg (Region.Spaced ·.free) (hregion kind')).mpr ?_
    split
    · exact hspaced
    · exact h.spaced kind'
  case single =>
    intro id a hid
    rw [hlookup] at hid
    split at hid
    · exact Option.some.inj hid ▸ hsingle
    · exact h.single id a hid
  case memory => exact ((memory_withRegion _ _).trans hsize) ▸ h.memory
  case nodup =>
    intro kind'
    refine (congrArg List.Nodup (havailable kind')).mpr ?_
    split
    · exact hfree
    · exact h.nodup kind'
  case free =>
    intro kind' page hp
    have hp : page ∈ if kind' = kind then free.flatMap PageRun.toList else s.available x.kernel kind' := havailable kind' ▸ hp
    split at hp
    · next heq => exact heq ▸ h.free kind page (hstays page hp)
    · exact h.free kind' page hp
  case old =>
    intro id a hid
    rw [hlookup] at hid
    split at hid
    · next heq => exact heq ▸ Nat.lt_succ_self _
    · exact Nat.lt_succ_of_lt (h.old id a hid)
  case origin =>
    intro id a hid
    rw [hlookup] at hid
    split at hid
    · exact (Option.some.inj hid) ▸ rfl
    · exact h.origin id a hid
  case taken =>
    intro id a hid page hp
    rw [hlookup] at hid
    split at hid
    · obtain rfl := Option.some.inj hid
      rw [hpages] at hp
      refine ⟨h.free kind page (htaken page hp), fun hav => ?_⟩
      exact hdisjoint page hp page (((havailable kind).trans (if_pos rfl)) ▸ hav) rfl
    · obtain ⟨hin, hout⟩ := h.taken id a hid page hp
      refine ⟨hin, fun hav => hout ?_⟩
      have hav : page ∈ if a.region = kind then free.flatMap PageRun.toList else s.available x.kernel a.region :=
        havailable a.region ▸ hav
      split at hav
      · next heq => exact heq ▸ hstays page hav
      · exact hav
  case once =>
    intro id a hid
    rw [hlookup] at hid
    split at hid
    · obtain rfl := Option.some.inj hid
      rw [hpages]
      exact PageRun.nodup_toList _
    · exact h.once id a hid
  case apart =>
    intro id id' a a' hid hid' hne page hp hp'
    rw [hlookup] at hid hid'
    split at hid
    · next heq =>
      obtain rfl := Option.some.inj hid
      rw [if_neg fun heq' => hne (heq.trans heq'.symm)] at hid'
      exact hnew id' a' hid' page (hpages ▸ hp) hp'
    · split at hid'
      · obtain rfl := Option.some.inj hid'
        exact hnew id a hid page (hpages ▸ hp') hp
      · exact h.apart id id' a a' hid hid' hne page hp hp'
  case whole =>
    intro kind' page hp
    rcases h.whole kind' page hp with hav | ⟨id, a, hid, hk, hpage⟩
    · by_cases heq : kind' = kind
      · subst heq
        rcases List.mem_append.1 (hperm.subset hav) with hrun | hstay
        · exact .inr ⟨s.nextId, _, (hlookup _).trans (if_pos rfl), rfl, hpages ▸ hrun⟩
        · exact .inl ((havailable kind').symm ▸ (if_pos rfl).symm ▸ hstay)
      · exact .inl ((havailable kind').symm ▸ (if_neg heq).symm ▸ hav)
    · exact .inr ⟨id, a, ((hlookup id).trans (if_neg (Nat.ne_of_lt (h.old id a hid)))).trans hid, hk, hpage⟩

/-- A region hands pages out, or refuses and stays as it is. -/
theorem allocatePages_cases (h : Orderly x s) (kind : RegionKind) (n : Nat) :
    (∃ e t, (allocatePages x.kernel kind n).run s = (.error e, t) ∧ Orderly x t ∧ Subsides s t ∧ (∀ o, t.has o = s.has o) ∧
      t.sharedMemories = s.sharedMemories ∧ t.transferMemories = s.transferMemories) ∨
    ∃ pages t, (allocatePages x.kernel kind n).run s = (.ok (s.nextId, pages), t) ∧ Draws x kind pages s t := by
  have hkind : ((s.kernel x.kernel).region kind).kind = kind := h.stocked.complete.kind_region kind
  rw [allocatePages_run]
  rcases ((s.kernel x.kernel).region kind).allocate_cases (s.kernel x.kernel).host n (h.stocked.fitsIn kind) with
    ⟨e, hrefuse⟩ | ⟨address, free, host, hgive, hsize, hrest, hperm⟩
  · left
    have hdrawn : s.drawn x.kernel kind n = ((s.kernel x.kernel).region kind, (s.kernel x.kernel).host, .error e) := hrefuse
    unfold afterDrawing
    rw [hdrawn]
    have hsub : Subsides s (s.withRegion x.kernel ((s.kernel x.kernel).region kind) (s.kernel x.kernel).host) := by
      refine .setKernel ⟨fun kind' => ?_, fun hc => hc.setRegion _, rfl, fun _ _ hm => hm, rfl⟩
      change ((s.kernel x.kernel).setRegion _).region kind' = _
      rw [h.stocked.complete.region_setRegion, hkind]
      split
      · next heq => rw [heq]
      · rfl
    exact ⟨e, _, rfl, h.of_subsides hsub h.simple.threadOf, hsub, fun _ => rfl, rfl, rfl⟩
  · right
    have hdrawn : s.drawn x.kernel kind n =
        ({ (s.kernel x.kernel).region kind with free }, host, .ok (.ofRun address n)) := hgive
    unfold afterDrawing
    rw [hdrawn]
    refine ⟨_, _, rfl, ?_⟩
    have hlookup (id : AllocationId) (hid : id ≠ s.nextId) : (s.allocations.insert s.nextId
        { kernel := x.kernel, region := kind, pages := .ofRun address n })[id]? = s.allocations[id]? :=
      (Records.getElem?_insert _ _ _ _).trans (if_neg hid)
    have hold (pages : PageList) (backing : List AllocationId) (hh : s.Holder pages backing) (id : AllocationId)
        (hid : id ∈ backing) : id ≠ s.nextId := by
      obtain ⟨a, ha⟩ := h.backed.exists_of_holder hh hid
      exact Nat.ne_of_lt (h.stocked.old id a ha)
    constructor
    case orderly =>
      constructor
      case stocked =>
        obtain ⟨-, hspaced, hsingle, -⟩ := Region.allocate_ok_spaced (h.stocked.spaced kind) (congrArg (·.2.2) hgive)
        rw [hgive] at hspaced
        exact h.stocked.draw hsize hspaced hsingle hperm
      case backed =>
        exact h.backed.grow (fun pages backing hh id hid => hlookup id (hold pages backing hh id hid))
          (fun pages backing hh => .inl (hh.of_same rfl rfl rfl)) h.backed.paged h.backed.heap h.backed.own
      case numbered =>
        refine h.numbered.grow (Nat.le_succ _) (fun id hid => (hlookup id (Nat.ne_of_lt hid.1)).trans hid.2) (fun _ ho => .inl ho)
          (fun k pid id hm => .inl ?_) (fun _ _ ho => .inl ho) (fun _ hid => .inl ⟨hid, rfl⟩) fun _ hid => .inl hid
        exact member_withRegion (s := s) ▸ hm
      case simple => exact ⟨h.simple.thread, h.simple.object, h.simple.threadOf, h.simple.kernelOf, bare_withRegion h.simple.bare⟩
    case allocation => exact (Records.getElem?_insert _ _ _ _).trans (if_pos rfl)
    case others => exact hlookup
    case bytes =>
      intro place hp
      have hhost (r : Region) : ((s.withRegion x.kernel r host).kernel x.kernel).host = host :=
        congrArg Kernel.host ((kernel_insert s x.kernel x.kernel _).trans (if_pos rfl))
      refine (congrArg (·.memory.byteAt place) (hhost _)).trans (hrest place fun hin => hp ?_)
      rwa [PageList.ofRun, PageList.addRun_places]
    case unheld => exact fun pages backing hh hid => hold pages backing (hh.of_same rfl rfl rfl) _ hid rfl
    case processes => rfl
    case sharedMemories => rfl
    case transferMemories => rfl
    case has => exact fun _ => rfl

/-! ## Giving pages back -/

/-- The pages of an allocation become free pages of its region. -/
theorem Stocked.giveBack (h : Stocked x s) {id : AllocationId} {a : Allocation} (ha : s.allocations[id]? = some a) (host : Host)
    (hsize : host.memory.size = (s.kernel x.kernel).host.memory.size) :
    Stocked x { s.withRegion x.kernel (((s.kernel x.kernel).region a.region).release a.pages) host with
      allocations := s.allocations.erase id } := by
  have hkind : ((s.kernel x.kernel).region a.region).kind = a.region := h.complete.kind_region a.region
  have hperm := ((s.kernel x.kernel).region a.region).release_perm a.pages
  have hregion (kind : RegionKind) :
      ((s.withRegion x.kernel (((s.kernel x.kernel).region a.region).release a.pages) host).kernel x.kernel).region kind =
        if kind = a.region then ((s.kernel x.kernel).region a.region).release a.pages else (s.kernel x.kernel).region kind := by
    rw [region_withRegion h.complete]
    change (if kind = ((s.kernel x.kernel).region a.region).kind then _ else _) = _
    rw [hkind]
  have havailable (kind : RegionKind) :
      (s.withRegion x.kernel (((s.kernel x.kernel).region a.region).release a.pages) host).available x.kernel kind =
        if kind = a.region then (((s.kernel x.kernel).region a.region).release a.pages).available else s.available x.kernel kind :=
    (congrArg Region.available (hregion kind)).trans (apply_ite Region.available _ _ _)
  have hlookup {id' : AllocationId} {a' : Allocation} (hid' : (s.allocations.erase id)[id']? = some a') :
      id' ≠ id ∧ s.allocations[id']? = some a' := by
    rw [Records.getElem?_erase] at hid'
    split at hid'
    · cases hid'
    · next hne => exact ⟨hne, hid'⟩
  -- what was free and the pages that come back make up what is free now
  have hback (page : Nat) : page ∈ (((s.kernel x.kernel).region a.region).release a.pages).available ↔
      page ∈ a.pages.pages ∨ page ∈ s.available x.kernel a.region := hperm.mem_iff.trans List.mem_append
  have hnodup : (a.pages.pages ++ s.available x.kernel a.region).Nodup :=
    List.nodup_append.2 ⟨h.once id a ha, h.nodup a.region, fun page hp page' hp' heq => (h.taken id a ha page hp).2 (heq ▸ hp')⟩
  constructor
  case complete => exact complete_withRegion h.complete _ _
  case placed =>
    intro kind
    refine (congrArg (fun r : Region => r.address = _ ∧ r.size = _) (hregion kind)).mpr ?_
    split
    · next heq => exact heq ▸ h.placed a.region
    · exact h.placed kind
  case spaced =>
    intro kind
    refine (congrArg (Region.Spaced ·.free) (hregion kind)).mpr ?_
    split
    · refine (h.spaced a.region).release (h.single id a ha) hnodup
        ⟨x.config.memoryArrange.base a.region, x.config.memoryArrange.regionSize a.region / pageSize⟩ fun page hp => ?_
      rcases List.mem_append.1 hp with hp | hp
      · exact (h.taken id a ha page hp).1
      · exact h.free a.region page hp
    · exact h.spaced kind
  case single => exact fun id' a' hid' => h.single id' a' (hlookup hid').2
  case memory => exact ((memory_withRegion _ _).trans hsize) ▸ h.memory
  case nodup =>
    intro kind
    refine (congrArg List.Nodup (havailable kind)).mpr ?_
    split
    · exact hperm.nodup_iff.2 hnodup
    · exact h.nodup kind
  case free =>
    intro kind page hp
    have hin : page ∈ if kind = a.region then (((s.kernel x.kernel).region a.region).release a.pages).available
      else s.available x.kernel kind := havailable kind ▸ hp
    split at hin
    · next heq =>
      rw [heq]
      rcases (hback page).1 hin with hin | hin
      · exact (h.taken id a ha page hin).1
      · exact h.free a.region page hin
    · exact h.free kind page hin
  case old => exact fun id' a' hid' => h.old id' a' (hlookup hid').2
  case origin => exact fun id' a' hid' => h.origin id' a' (hlookup hid').2
  case taken =>
    intro id' a' hid' page hp
    obtain ⟨hne, hid'⟩ := hlookup hid'
    obtain ⟨hin, hout⟩ := h.taken id' a' hid' page hp
    refine ⟨hin, fun hav => ?_⟩
    have hav : page ∈ if a'.region = a.region then (((s.kernel x.kernel).region a.region).release a.pages).available
      else s.available x.kernel a'.region := havailable a'.region ▸ hav
    split at hav
    · next heq =>
      rcases (hback page).1 hav with hav | hav
      · exact h.apart id' id a' a hid' ha hne page hp hav
      · exact hout (heq ▸ hav)
    · exact hout hav
  case once => exact fun id' a' hid' => h.once id' a' (hlookup hid').2
  case apart => exact fun id₁ id₂ a₁ a₂ h₁ h₂ => h.apart id₁ id₂ a₁ a₂ (hlookup h₁).2 (hlookup h₂).2
  case whole =>
    intro kind page hp
    rcases h.whole kind page hp with hav | ⟨id', a', hid', hk, hpage⟩
    · refine .inl ((havailable kind).symm ▸ ?_)
      split
      · next heq => exact (hback page).2 (.inr (heq ▸ hav))
      · exact hav
    · by_cases hne : id' = id
      · subst hne
        obtain rfl := Option.some.inj (ha.symm.trans hid')
        exact .inl ((havailable kind).symm ▸ (if_pos hk.symm).symm ▸ (hback page).2 (.inl hpage))
      · exact .inr ⟨id', a', (Records.getElem?_erase _ _ _).trans ((if_neg hne).trans hid'), hk, hpage⟩

/-- Pages that nobody has can be given back. -/
theorem freeAllocation_orderly (h : Orderly x s) {id : AllocationId} (hid : s.Unheld id) : Orderly x (freeAllocation id s).2 := by
  rw [freeAllocation_run]
  split
  · next a ha =>
    have hkernel := h.stocked.origin id a ha
    rw [hkernel]
    have hlookup (id' : AllocationId) (hne : id' ≠ id) : (s.allocations.erase id)[id']? = s.allocations[id']? :=
      (Records.getElem?_erase _ _ _).trans (if_neg hne)
    constructor
    case stocked => exact h.stocked.giveBack ha _ rfl
    case backed =>
      exact h.backed.grow (fun pages backing hh id' hid' => hlookup id' fun heq => hid pages backing hh (heq ▸ hid'))
        (fun pages backing hh => .inl (hh.of_same rfl rfl rfl)) h.backed.paged h.backed.heap h.backed.own
    case numbered =>
      refine h.numbered.grow (Nat.le_refl _) (fun id' hid' => ?_) (fun _ ho => .inl ho) (fun k pid id hm => .inl ?_)
        (fun _ _ ho => .inl ho) (fun _ hid => .inl ⟨hid, rfl⟩) fun _ hid => .inl hid
      · refine (Records.getElem?_erase _ _ _).trans ?_
        split
        · rfl
        · exact hid'.2
      · exact member_withRegion (s := s) ▸ hm
    case simple => exact ⟨h.simple.thread, h.simple.object, h.simple.threadOf, h.simple.kernelOf, bare_withRegion h.simple.bare⟩
  · exact h

end

end Microkernel.Machine
