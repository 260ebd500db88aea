import Microkernel.Proofs.Machine.Sweeping

/-!
# Physical pages

Whatever hosts do, a page of a region is taken exactly as long as somebody keeps an allocation alive that it belongs to, whoever has
a page keeps such an allocation alive, and two processes have a page in common only through a memory object (`pages_held`).
-/

namespace Microkernel.Machine

variable {x : Setup} {s : Machine}

/-! ## Runs -/

/-- The regions of a new kernel are laid out by its arrangement, all of their pages free. -/
theorem region_newKernel (x : Setup) (kind : RegionKind) : x.newKernel.region kind =
    Region.new kind (x.config.memoryArrange.base kind) (x.config.memoryArrange.regionSize kind) := by
  unfold Kernel.region
  change ((Region.layout x.config.memoryArrange).find? _).getD default = _
  rw [MemoryArrange.layout_eq]
  cases kind <;> rfl

/-- In a new machine every page is free, and nobody has any. -/
theorem machine_orderly (x : Setup) : Orderly x x.machine := by
  have hkernel := x.kernel_machine
  have havailable (kind : RegionKind) : x.machine.available x.kernel kind = x.config.memoryArrange.pages kind := by
    unfold available
    rw [hkernel, region_newKernel, Region.available_new]
    rfl
  have hcomplete : x.newKernel.Complete := by
    change (Region.layout x.config.memoryArrange).map Region.kind = _
    rw [MemoryArrange.layout_eq, List.map_map]
    rfl
  have hmachine := x.newKernel_run.2
  generalize x.machine.journal = journal at hmachine
  generalize x.machine = s at hkernel havailable hmachine ⊢
  have hnone {α : Type} {a : α} {id : RecordId} (h : ({} : Records α)[id]? = some a) : False := nomatch h
  have hallocation {id : AllocationId} {a : Allocation} (h : s.allocations[id]? = some a) : False := by
    subst hmachine
    exact hnone h
  have hprocess (id : RecordId) : s.process id = default := by
    subst hmachine
    rfl
  have hobject (o : KernelObject) : s.has o = false := by
    subst hmachine
    cases o <;> rfl
  have hmember (k : RecordId) : (s.kernel k).processes = {} ∧ (s.kernel k).namedPorts = {} := by
    subst hmachine
    unfold kernel
    rw [Records.getD_insert]
    split <;> exact ⟨rfl, rfl⟩
  constructor
  case stocked =>
    constructor
    case complete => exact hkernel ▸ hcomplete
    case placed =>
      intro kind
      rw [hkernel, region_newKernel]
      exact ⟨rfl, rfl⟩
    case spaced =>
      intro kind
      rw [hkernel, region_newKernel]
      exact Region.spaced_new _ _ _
    case single => exact fun id a ha => (hallocation ha).elim
    case memory => exact hkernel ▸ x.fits
    case nodup => exact fun kind => havailable kind ▸ PageRun.nodup_toList _
    case free => exact fun kind page hp => havailable kind ▸ hp
    case old => exact fun id a ha => (hallocation ha).elim
    case origin => exact fun id a ha => (hallocation ha).elim
    case taken => exact fun id a ha => (hallocation ha).elim
    case once => exact fun id a ha => (hallocation ha).elim
    case apart => exact fun id id' a a' ha => (hallocation ha).elim
    case whole => exact fun kind page hp => .inl ((havailable kind).symm ▸ hp)
  case backed =>
    constructor
    case secured =>
      intro pages backing hh
      subst hmachine
      cases hh with
      | mapping hm => cases hm
      | shared hm => exact (hnone hm).elim
      | transfer hm => exact (hnone hm).elim
    case paged =>
      intro id m hm
      rw [hprocess] at hm
      cases hm
    case heap =>
      intro id m hm
      rw [hprocess] at hm
      cases hm
    case own =>
      intro id id' m m' hm
      rw [hprocess] at hm
      cases hm
  case numbered =>
    constructor
    case object => exact fun o ho => nomatch (hobject o).symm.trans ho
    case member =>
      intro k pid id hm
      rw [(hmember k).1] at hm
      exact (hnone hm).elim
    case handle =>
      intro id o ho
      rw [hprocess] at ho
      cases ho
    case processOf => exact fun id ho => nomatch (hobject _).symm.trans ho
    case held =>
      subst hmachine
      exact fun id hid => nomatch hid
  case simple =>
    constructor
    case thread =>
      subst hmachine
      exact fun id => ⟨rfl, .inl rfl⟩
    case object =>
      intro id o ho
      rw [hprocess] at ho
      cases ho
    case threadOf =>
      intro id th hth
      rw [hprocess] at hth
      cases hth
    case kernelOf => exact fun id ho => nomatch (hobject _).symm.trans ho
    case bare =>
      have hports := fun k => (hmember k).2
      subst hmachine
      exact ⟨rfl, rfl, rfl, rfl, rfl, rfl, rfl, rfl, rfl, rfl, hports⟩

/-- What a host holds on to exists, so it is no allocation. -/
theorem Orderly.hold (h : Orderly x s) (objects : List KernelObject) :
    Orderly x { s with held := (objects.filter s.has).map KernelObject.id } where
  stocked := h.stocked.of_same (Nat.le_refl _) (fun _ => rfl) (fun _ => rfl) (fun hc => hc) rfl
  backed := h.backed.add rfl (fun _ => rfl) (fun _ _ hm => .inl hm) fun _ _ hm => .inl hm
  numbered := by
    refine h.numbered.grow (Nat.le_refl _) (fun _ hid => hid.2) (fun _ ho => .inl ho) (fun _ _ _ hm => .inl hm)
      (fun _ _ ho => .inl ho) (fun _ ho => .inl ⟨ho, rfl⟩) fun id hid => .inr ?_
    obtain ⟨o, ho, rfl⟩ := List.mem_map.1 hid
    exact h.numbered.object o (List.mem_filter.1 ho).2
  simple := ⟨h.simple.thread, h.simple.object, h.simple.threadOf, h.simple.kernelOf, h.simple.bare⟩

/-- After every step of a host the machine is orderly and has let go of what nobody holds. -/
theorem HostStep.after_orderly (h : Orderly x s) (step : HostStep) :
    Orderly x (step.after x.kernel s) ∧ (step.after x.kernel s).Tidy :=
  quiesce_orderly ((HostCall.perform_orderly h step.call).hold step.holds)

/-- After every run the machine is orderly, and somebody keeps every allocation alive. -/
theorem afterSteps_orderly (x : Setup) (steps : List HostStep) : Orderly x (afterSteps x steps) ∧ (afterSteps x steps).Tidy := by
  have hrun {s : Machine} (h : Orderly x s) (htidy : s.Tidy) :
      Orderly x (steps.foldl (fun s step => step.after x.kernel s) s) ∧
        (steps.foldl (fun s step => step.after x.kernel s) s).Tidy := by
    induction steps generalizing s with
    | nil => exact ⟨h, htidy⟩
    | cons step rest ih =>
      obtain ⟨hafter, htidy⟩ := step.after_orderly h
      exact ih hafter htidy
  refine hrun (machine_orderly x) fun id hid => ?_
  rw [x.newKernel_run.2] at hid
  cases hid

/-! ## Who has a page -/

/-- Somebody keeps an allocation from the region alive that the page belongs to. -/
def Taken (s : Machine) (kernel : RecordId) (kind : RegionKind) (page : Nat) : Prop :=
  ∃ (id : AllocationId) (a : Allocation), s.allocations[id]? = some a ∧ a.kernel = kernel ∧ a.region = kind ∧ page ∈ a.pages.pages ∧
    ∃ pages backing, s.Holder pages backing ∧ id ∈ backing

/-- After every run a page of a region is taken or free, and not both; whoever has pages keeps alive what they belong to; no page
belongs to two allocations; and if two processes have mapped a page, one of them has mapped it for a memory object. -/
theorem pages_held (x : Setup) (steps : List HostStep) :
    (∀ kind, ∀ page ∈ x.config.memoryArrange.pages kind,
      page ∉ (afterSteps x steps).available x.kernel kind ↔ (afterSteps x steps).Taken x.kernel kind page) ∧
    (∀ pages backing, (afterSteps x steps).Holder pages backing → (afterSteps x steps).Covered pages backing) ∧
    (∀ (id id' : AllocationId) a a', (afterSteps x steps).allocations[id]? = some a →
      (afterSteps x steps).allocations[id']? = some a' → id ≠ id' → ∀ page ∈ a.pages.pages, page ∉ a'.pages.pages) ∧
    ∀ id id' m m', id ≠ id' → m ∈ ((afterSteps x steps).process id).space.mappings →
      m' ∈ ((afterSteps x steps).process id').space.mappings → ∀ page ∈ m.pages.pages, page ∈ m'.pages.pages →
        m.object ≠ none ∨ m'.object ≠ none := by
  obtain ⟨h, htidy⟩ := afterSteps_orderly x steps
  generalize afterSteps x steps = s at h htidy ⊢
  refine ⟨fun kind page hp => ⟨fun hfree => ?_, ?_⟩, h.backed.covered, h.stocked.apart, ?_⟩
  · obtain ⟨id, a, ha, hkind, hpage⟩ := (h.stocked.whole kind page hp).resolve_left hfree
    exact ⟨id, a, ha, h.stocked.origin id a ha, hkind, hpage, htidy id (Records.contains_of_getElem? ha)⟩
  · rintro ⟨id, a, ha, -, rfl, hpage, -⟩
    exact (h.stocked.taken id a ha page hpage).2
  · intro id id' m m' hne hm hm' page hpage hpage'
    -- the page belongs to one allocation, which both of them keep alive
    obtain ⟨i, hi, a, ha, hia⟩ := (h.backed.covered _ _ (.mapping hm)).2 page hpage
    obtain ⟨i', hi', a', ha', hia'⟩ := (h.backed.covered _ _ (.mapping hm')).2 page hpage'
    have hsame : i = i' := Classical.byContradiction fun hne => h.stocked.apart i i' a a' ha ha' hne page hia hia'
    subst hsame
    refine Classical.byContradiction fun hnone => hne ?_
    simp only [ne_eq, not_or, Classical.not_not] at hnone
    exact (h.backed.own id id' m m' hm hm' hnone.1 hnone.2 i hi hi').1

end Microkernel.Machine
