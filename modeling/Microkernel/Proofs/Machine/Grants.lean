import Microkernel.Proofs.Machine.Steady

/-!
# Grants

The mappings of a memory object agree with the object (`Granted`): they have its pages and no more permission than it grants, and
transfer memory lists exactly its mappings in the processes that still have theirs. That is kept by whatever maps no object
(`Granted.steady`), by mapping and unmapping one (`Granted.mapped`, `Granted.unmapped`), and by dropping what is dead.
-/

namespace Microkernel

namespace Machine

/-- The process exists and has not been terminated, so it still has its mappings. -/
def Retains (s : Machine) (id : RecordId) : Prop := s.processes.contains id = true ∧ (s.process id).state ≠ .terminated

/-- The object is mapped into the process at the address. -/
def IsMapped (s : Machine) (object id : RecordId) (address : Nat) : Prop :=
  ∃ m ∈ (s.process id).space.mappings, m.object = some object ∧ m.address = address

/-- The mappings of memory objects agree with the objects. -/
structure Granted (s : Machine) : Prop where
  ordered : ∀ id, (s.process id).space.Ordered
  /-- A terminated process has no mapping of an object. -/
  ended : ∀ id, (s.process id).state = .terminated → (s.process id).space.forObjects = []
  shared : ∀ id, ∀ m ∈ (s.process id).space.mappings, ∀ (i : RecordId) b, m.object = some i → s.sharedMemories[i]? = some b →
    m.pages = b.pages ∧ m.permission.isSubsetOf b.userPermission = true
  transfer : ∀ id, ∀ m ∈ (s.process id).space.mappings, ∀ (i : RecordId) b, m.object = some i → s.transferMemories[i]? = some b →
    m.pages = b.pages ∧ m.permission.isSubsetOf b.permission = true
  listed : ∀ (i : RecordId) b, s.transferMemories[i]? = some b → ∀ id address, s.Retains id →
    ((id, address) ∈ b.mappings ↔ s.IsMapped i id address)
  once : ∀ (i : RecordId) b, s.transferMemories[i]? = some b → b.mappings.Nodup
  /-- The numbers that are listed, and those of objects that are mapped, have been given. -/
  old : ∀ (i : RecordId) b, s.transferMemories[i]? = some b → ∀ e ∈ b.mappings, e.1 < s.nextId
  oldObject : ∀ id, ∀ m ∈ (s.process id).space.mappings, ∀ i, m.object = some i → i < s.nextId
  apart : ∀ (i : RecordId) b, s.sharedMemories[i]? = some b → s.transferMemories[i]? = none

variable {s : Machine} {id object : RecordId} {address : Nat}

/-- A process with a mapping of an object still has its mappings. -/
theorem Granted.retains (h : Granted s) (hm : s.IsMapped object id address) : s.Retains id := by
  obtain ⟨m, hmem, ho, -⟩ := hm
  refine ⟨has_process_of_mapping (List.ne_nil_of_mem hmem), fun hended => ?_⟩
  have hobject : m ∈ (s.process id).space.forObjects := AddressSpace.mem_forObjects.2 ⟨hmem, _, ho⟩
  rw [h.ended id hended] at hobject
  cases hobject

/-! ## What maps no object -/

end Machine

namespace Steady

variable {known : RecordId → Prop} {s t : Machine} {id object : RecordId} {address : Nat} {m : Mapping}

/-- A mapping of an object was there before. -/
theorem mem_of_mem (h : Steady known s t) (hm : m ∈ (t.process id).space.mappings) (ho : m.object = some object) :
    m ∈ (s.process id).space.mappings := by
  have hmem : m ∈ (t.process id).space.forObjects := AddressSpace.mem_forObjects.2 ⟨hm, object, ho⟩
  rcases (h.process id).objects with ⟨-, hnone⟩ | ⟨-, hsame⟩
  · rw [hnone] at hmem
    cases hmem
  · rw [hsame] at hmem
    exact (AddressSpace.mem_forObjects.1 hmem).1

/-- What is steady has the same objects mapped in processes that have not terminated. -/
theorem isMapped_iff (h : Steady known s t) (hstate : (t.process id).state ≠ .terminated) :
    t.IsMapped object id address ↔ s.IsMapped object id address := by
  constructor
  · exact fun ⟨m, hm, ho, ha⟩ => ⟨m, h.mem_of_mem hm ho, ho, ha⟩
  · rintro ⟨m, hm, ho, ha⟩
    rcases (h.process id).objects with ⟨hended, -⟩ | ⟨-, hsame⟩
    · exact absurd hended hstate
    · have hmem : m ∈ (t.process id).space.forObjects := hsame ▸ AddressSpace.mem_forObjects.2 ⟨hm, object, ho⟩
      exact ⟨m, (AddressSpace.mem_forObjects.1 hmem).1, ho, ha⟩

/-- A process that still has its mappings, and is not new, had them before. -/
theorem retains (h : Steady (s.nextId ≤ ·) s t) (hid : id < s.nextId) (ht : t.Retains id) : s.Retains id := by
  refine ⟨(h.objects.process id ht.1).resolve_right (Nat.not_le.2 hid), fun hended => ht.2 ((h.process id).ended hended)⟩

end Steady

namespace Machine

variable {s t : Machine} {id object : RecordId} {address size : Nat} {m : Mapping} {space : AddressSpace}

/-- What maps no object keeps mappings and objects in agreement. -/
theorem Granted.steady (h : Granted s) (hs : Steady (s.nextId ≤ ·) s t) : Granted t := by
  have htransfer := hs.objects.transferMemories
  constructor
  case ordered => exact fun id => (hs.process id).ordered (h.ordered id)
  case ended =>
    intro id hended
    rcases (hs.process id).objects with ⟨-, hnone⟩ | ⟨hstate, hsame⟩
    · exact hnone
    · exact hsame.trans (h.ended id (hstate hended))
  case shared =>
    intro id m hm i b ho hb
    rw [hs.objects.sharedMemories] at hb
    exact h.shared id m (hs.mem_of_mem hm ho) i b ho hb
  case transfer =>
    intro id m hm i b ho hb
    rw [htransfer] at hb
    exact h.transfer id m (hs.mem_of_mem hm ho) i b ho hb
  case listed =>
    intro i b hb id address ht
    rw [htransfer] at hb
    rw [hs.isMapped_iff ht.2]
    constructor
    · intro he
      exact (h.listed i b hb id address (hs.retains (h.old i b hb _ he) ht)).1 he
    · intro hm
      exact (h.listed i b hb id address (h.retains hm)).2 hm
  case once => exact fun i b hb => h.once i b (htransfer ▸ hb)
  case old => exact fun i b hb e he => Nat.lt_of_lt_of_le (h.old i b (htransfer ▸ hb) e he) hs.nextId
  case oldObject => exact fun id m hm i ho => Nat.lt_of_lt_of_le (h.oldObject id m (hs.mem_of_mem hm ho) i ho) hs.nextId
  case apart =>
    intro i b hb
    rw [htransfer]
    exact h.apart i b (hs.objects.sharedMemories ▸ hb)

/-! ## New objects -/

/-- An object under a fresh number is mapped nowhere. -/
theorem Granted.addObject (h : Granted s) (hfresh : ∀ o, s.has o = true → o.id ≠ s.nextId)
    {sharedMemories : Records SharedMemory} {transferMemories : Records TransferMemory}
    (hshared : ∀ (i : RecordId) b, sharedMemories[i]? = some b →
      s.sharedMemories[i]? = some b ∨ i = s.nextId ∧ transferMemories = s.transferMemories)
    (htransfer : ∀ (i : RecordId) b, transferMemories[i]? = some b →
      s.transferMemories[i]? = some b ∨ i = s.nextId ∧ b.mappings = [] ∧ sharedMemories = s.sharedMemories) :
    Granted { s with nextId := s.nextId + 1, sharedMemories, transferMemories } := by
  have hnone (id : RecordId) (address : Nat) : ¬ s.IsMapped s.nextId id address := fun ⟨m, hm, ho, _⟩ =>
    Nat.lt_irrefl _ (h.oldObject id m hm s.nextId ho)
  constructor
  case ordered => exact h.ordered
  case ended => exact h.ended
  case shared =>
    intro id m hm i b ho hb
    rcases hshared i b hb with hold | ⟨rfl, -⟩
    · exact h.shared id m hm i b ho hold
    · exact absurd ⟨m, hm, ho, rfl⟩ (hnone id m.address)
  case transfer =>
    intro id m hm i b ho hb
    rcases htransfer i b hb with hold | ⟨rfl, -⟩
    · exact h.transfer id m hm i b ho hold
    · exact absurd ⟨m, hm, ho, rfl⟩ (hnone id m.address)
  case listed =>
    intro i b hb id address ht
    rcases htransfer i b hb with hold | ⟨rfl, hempty, -⟩
    · exact h.listed i b hold id address ht
    · rw [hempty]
      exact ⟨fun he => (nomatch he), fun hm => absurd hm (hnone id address)⟩
  case once =>
    intro i b hb
    rcases htransfer i b hb with hold | ⟨-, hempty, -⟩
    · exact h.once i b hold
    · rw [hempty]
      exact List.nodup_nil
  case old =>
    intro i b hb e he
    rcases htransfer i b hb with hold | ⟨-, hempty, -⟩
    · exact Nat.lt_succ_of_lt (h.old i b hold e he)
    · rw [hempty] at he
      cases he
  case oldObject => exact fun id m hm i ho => Nat.lt_succ_of_lt (h.oldObject id m hm i ho)
  case apart =>
    intro i b hb
    cases ht : transferMemories[i]? with
    | none => rfl
    | some c =>
      have hshared' (b : SharedMemory) : s.sharedMemories[s.nextId]? ≠ some b := fun hb =>
        hfresh (.sharedMemory s.nextId) (Records.contains_of_getElem? hb) rfl
      have htransfer' (c : TransferMemory) : s.transferMemories[s.nextId]? ≠ some c := fun hc =>
        hfresh (.transferMemory s.nextId) (Records.contains_of_getElem? hc) rfl
      rcases hshared i b hb with hold | ⟨hi, hsame⟩
      · rcases htransfer i c ht with hold' | ⟨hi, -⟩
        · cases (h.apart i b hold).symm.trans hold'
        · exact absurd (hi ▸ hold) (hshared' b)
      · exact absurd (hi ▸ hsame ▸ ht) (htransfer' c)

/-! ## Mapping and unmapping -/

/-- A process that exists has another address space; what transfer memory lists may have changed. -/
structure Remaps (id : RecordId) (space : AddressSpace) (s t : Machine) : Prop where
  nextId : t.nextId = s.nextId
  process : ∀ other, t.process other = if other = id then { s.process other with space } else s.process other
  contains : ∀ other, t.processes.contains other = s.processes.contains other
  sharedMemories : t.sharedMemories = s.sharedMemories

namespace Remaps

/-- Another address space is another one for one process. -/
theorem setSpace (hid : s.has (.process id) = true) (space : AddressSpace) : Remaps id space s (setSpace id space s).2 := by
  refine ⟨rfl, fun other => process_setSpace s id other space, fun other => Bool.eq_iff_iff.2 ?_, rfl⟩
  refine (Records.contains_insert _ _ _ _).trans ⟨fun ho => ?_, .inr⟩
  rcases ho with rfl | ho
  · exact hid
  · exact ho

/-- What transfer memory lists may change beside it. -/
theorem setTransferMemory (h : Remaps id space s t) (i : RecordId) (b : TransferMemory) :
    Remaps id space s (setTransferMemory i b t).2 :=
  ⟨h.nextId, h.process, h.contains, h.sharedMemories⟩

/-- Every process is as far as it was. -/
theorem state (h : Remaps id space s t) (other : RecordId) : (t.process other).state = (s.process other).state := by
  rw [h.process]
  split <;> rfl

/-- The same processes have their mappings. -/
theorem retains_iff (h : Remaps id space s t) {other : RecordId} : t.Retains other ↔ s.Retains other := by
  unfold Retains
  rw [h.contains, h.state]

/-- The process has the address space that it was given. -/
theorem space_self (h : Remaps id space s t) : (t.process id).space = space := by
  rw [h.process, if_pos rfl]

/-- Every other process has its own. -/
theorem space_of_ne (h : Remaps id space s t) {other : RecordId} (ho : other ≠ id) :
    (t.process other).space = (s.process other).space := by
  rw [h.process, if_neg ho]

end Remaps

/-- What an object lists may have changed, if it is transfer memory, and nothing else about transfer memory. -/
def Relists (object : RecordId) (f : List (RecordId × Nat) → List (RecordId × Nat)) (s t : Machine) : Prop :=
  ∀ (i : RecordId) b, t.transferMemories[i]? = some b → ∃ b₀, s.transferMemories[i]? = some b₀ ∧ b.pages = b₀.pages ∧
    b.permission = b₀.permission ∧ b.mappings = if i = object then f b₀.mappings else b₀.mappings

/-- The list of one object has changed. -/
theorem Relists.set {b b' : TransferMemory} (f : List (RecordId × Nat) → List (RecordId × Nat))
    (hb : s.transferMemories[object]? = some b) (ht : t.transferMemories = s.transferMemories) (hpages : b'.pages = b.pages)
    (hpermission : b'.permission = b.permission) (hlist : b'.mappings = f b.mappings) :
    Relists object f s (setTransferMemory object b' t).2 := by
  intro i c hc
  have hc := (Records.getElem?_insert _ _ _ _).symm.trans hc
  split at hc
  · next heq =>
    obtain rfl := Option.some.inj hc
    exact ⟨b, heq ▸ hb, hpages, hpermission, hlist.trans (if_pos heq).symm⟩
  · next hne => exact ⟨c, ht ▸ hc, rfl, rfl, (if_neg hne).symm⟩

/-- What is not transfer memory has no list. -/
theorem Relists.of_none (f : List (RecordId × Nat) → List (RecordId × Nat)) (hnone : s.transferMemories[object]? = none)
    (ht : t.transferMemories = s.transferMemories) : Relists object f s t := by
  intro i b hb
  rw [ht] at hb
  refine ⟨b, hb, rfl, rfl, (if_neg fun heq => ?_).symm⟩
  cases (heq ▸ hnone).symm.trans hb

/-- Mapping an object, within what it grants, and listing the mapping if it is transfer memory. -/
theorem Granted.mapped (h : Granted s) (hr : Remaps id space s t) (hid : s.Retains id) (hlt : id < s.nextId)
    (hmap : (s.process id).space.map m = .ok space) (ho : m.object = some object) (hobject : object < s.nextId)
    (hshared : ∀ b, s.sharedMemories[object]? = some b → m.pages = b.pages ∧ m.permission.isSubsetOf b.userPermission = true)
    (htransfer : ∀ b, s.transferMemories[object]? = some b → m.pages = b.pages ∧ m.permission.isSubsetOf b.permission = true)
    (hl : Relists object (· ++ [(id, m.address)]) s t) : Granted t := by
  have hmem (other : RecordId) (m' : Mapping) : m' ∈ (t.process other).space.mappings ↔
      other = id ∧ m' = m ∨ m' ∈ (s.process other).space.mappings := by
    by_cases heq : other = id
    · subst heq
      rw [hr.space_self, (AddressSpace.map_ok hmap).2, AddressSpace.mem_insert]
      simp only [true_and]
    · rw [hr.space_of_ne heq]
      simp only [heq, false_and, false_or]
  have hmapped (i other : RecordId) (address : Nat) : t.IsMapped i other address ↔
      (other = id ∧ i = object ∧ address = m.address) ∨ s.IsMapped i other address := by
    constructor
    · rintro ⟨m', hm', ho', rfl⟩
      rcases (hmem other m').1 hm' with ⟨rfl, rfl⟩ | hold
      · exact .inl ⟨rfl, Option.some.inj (ho'.symm.trans ho), rfl⟩
      · exact .inr ⟨m', hold, ho', rfl⟩
    · rintro (⟨rfl, rfl, rfl⟩ | ⟨m', hm', ho', rfl⟩)
      · exact ⟨m, (hmem other m).2 (.inl ⟨rfl, rfl⟩), ho, rfl⟩
      · exact ⟨m', (hmem other m').2 (.inr hm'), ho', rfl⟩
  -- nothing was mapped at the address before
  have hnone (i : RecordId) : ¬ s.IsMapped i id m.address := by
    rintro ⟨m', hm', -, haddress⟩
    obtain ⟨hsize, -, hbeside⟩ := (h.ordered id).map_ok hmap
    have hpositive := (h.ordered id).positive m' hm'
    have hbeside := hbeside m' hm'
    unfold Mapping.limit at hbeside
    omega
  constructor
  case ordered =>
    intro other
    by_cases heq : other = id
    · subst heq
      rw [hr.space_self]
      exact (h.ordered other).map hmap
    · rw [hr.space_of_ne heq]
      exact h.ordered other
  case ended =>
    intro other hended
    rw [hr.state] at hended
    have hne : other ≠ id := fun heq => hid.2 (heq ▸ hended)
    rw [hr.space_of_ne hne]
    exact h.ended other hended
  case shared =>
    intro other m' hm' i b ho' hb
    rw [hr.sharedMemories] at hb
    rcases (hmem other m').1 hm' with ⟨rfl, rfl⟩ | hold
    · obtain rfl := Option.some.inj (ho'.symm.trans ho)
      exact hshared b hb
    · exact h.shared other m' hold i b ho' hb
  case transfer =>
    intro other m' hm' i b ho' hb
    obtain ⟨b₀, hb₀, hpages, hpermission, -⟩ := hl i b hb
    rw [hpages, hpermission]
    rcases (hmem other m').1 hm' with ⟨rfl, rfl⟩ | hold
    · obtain rfl := Option.some.inj (ho'.symm.trans ho)
      exact htransfer b₀ hb₀
    · exact h.transfer other m' hold i b₀ ho' hb₀
  case listed =>
    intro i b hb other address ht
    obtain ⟨b₀, hb₀, -, -, hlist⟩ := hl i b hb
    rw [hlist, hmapped, ← h.listed i b₀ hb₀ other address (hr.retains_iff.1 ht)]
    dsimp only
    split
    · next heq =>
      rw [List.mem_append, List.mem_singleton, Prod.mk.injEq, or_comm]
      simp only [heq, true_and]
    · next hne => simp only [hne, false_and, and_false, false_or]
  case once =>
    intro i b hb
    obtain ⟨b₀, hb₀, -, -, hlist⟩ := hl i b hb
    have honce := h.once i b₀ hb₀
    rw [hlist]
    dsimp only
    split
    · refine List.nodup_append.2 ⟨honce, List.nodup_cons.2 ⟨List.not_mem_nil, List.nodup_nil⟩, fun e he e' he' heq => ?_⟩
      rw [List.mem_singleton.1 he'] at heq
      exact hnone i ((h.listed i b₀ hb₀ id m.address hid).1 (heq ▸ he))
    · exact honce
  case old =>
    intro i b hb e he
    obtain ⟨b₀, hb₀, -, -, hlist⟩ := hl i b hb
    rw [hr.nextId]
    rw [hlist] at he
    dsimp only at he
    split at he
    · rcases List.mem_append.1 he with he | he
      · exact h.old i b₀ hb₀ e he
      · rw [List.mem_singleton.1 he]
        exact hlt
    · exact h.old i b₀ hb₀ e he
  case oldObject =>
    intro other m' hm' i ho'
    rw [hr.nextId]
    rcases (hmem other m').1 hm' with ⟨rfl, rfl⟩ | hold
    · exact Option.some.inj (ho'.symm.trans ho) ▸ hobject
    · exact h.oldObject other m' hold i ho'
  case apart =>
    intro i b hb
    rw [hr.sharedMemories] at hb
    cases ht : t.transferMemories[i]? with
    | none => rfl
    | some c =>
      obtain ⟨c₀, hc₀, -⟩ := hl i c ht
      cases (h.apart i b hb).symm.trans hc₀

/-- Unmapping an object, and dropping the mapping from the list if it is transfer memory. -/
theorem Granted.unmapped (h : Granted s) (hr : Remaps id space s t)
    (hunmap : (s.process id).space.unmap address size (some object) = .ok (m, space))
    (hl : Relists object (·.filter (· ≠ (id, address))) s t) : Granted t := by
  obtain ⟨hm, rfl, ho, hrest⟩ := AddressSpace.unmap_spec hunmap
  have hmem (other : RecordId) (m' : Mapping) : m' ∈ (t.process other).space.mappings ↔
      m' ∈ (s.process other).space.mappings ∧ ¬ (other = id ∧ m'.address = m.address) := by
    by_cases heq : other = id
    · subst heq
      rw [hr.space_self, hrest, List.mem_filter]
      simp
    · rw [hr.space_of_ne heq]
      simp [heq]
  have hmapped (i other : RecordId) (address : Nat) : t.IsMapped i other address ↔
      s.IsMapped i other address ∧ ¬ (other = id ∧ address = m.address) := by
    constructor
    · rintro ⟨m', hm', ho', rfl⟩
      obtain ⟨hold, hne⟩ := (hmem other m').1 hm'
      exact ⟨⟨m', hold, ho', rfl⟩, hne⟩
    · rintro ⟨⟨m', hm', ho', rfl⟩, hne⟩
      exact ⟨m', (hmem other m').2 ⟨hm', hne⟩, ho', rfl⟩
  -- no other object was mapped at the address
  have honly (i : RecordId) (hi : s.IsMapped i id m.address) : i = object := by
    obtain ⟨m', hm', ho', haddress⟩ := hi
    obtain rfl := (h.ordered id).eq_of_address hm' hm haddress
    exact Option.some.inj (ho'.symm.trans ho)
  constructor
  case ordered =>
    intro other
    by_cases heq : other = id
    · subst heq
      rw [hr.space_self]
      exact (h.ordered other).unmap hunmap
    · rw [hr.space_of_ne heq]
      exact h.ordered other
  case ended =>
    intro other hended
    rw [hr.state] at hended
    refine List.eq_nil_iff_forall_not_mem.2 fun m' hm' => ?_
    obtain ⟨hmem', i, ho'⟩ := AddressSpace.mem_forObjects.1 hm'
    exact (h.retains ⟨m', ((hmem other m').1 hmem').1, ho', rfl⟩).2 hended
  case shared =>
    intro other m' hm' i b ho' hb
    rw [hr.sharedMemories] at hb
    exact h.shared other m' ((hmem other m').1 hm').1 i b ho' hb
  case transfer =>
    intro other m' hm' i b ho' hb
    obtain ⟨b₀, hb₀, hpages, hpermission, -⟩ := hl i b hb
    rw [hpages, hpermission]
    exact h.transfer other m' ((hmem other m').1 hm').1 i b₀ ho' hb₀
  case listed =>
    intro i b hb other address ht
    obtain ⟨b₀, hb₀, -, -, hlist⟩ := hl i b hb
    rw [hlist, hmapped, ← h.listed i b₀ hb₀ other address (hr.retains_iff.1 ht)]
    dsimp only
    split
    · rw [List.mem_filter, decide_eq_true_eq, ne_eq, Prod.mk.injEq]
    · next hne =>
      refine ⟨fun he => ⟨he, ?_⟩, fun he => he.1⟩
      rintro ⟨rfl, rfl⟩
      exact hne (honly i ((h.listed i b₀ hb₀ other m.address (hr.retains_iff.1 ht)).1 he))
  case once =>
    intro i b hb
    obtain ⟨b₀, hb₀, -, -, hlist⟩ := hl i b hb
    rw [hlist]
    dsimp only
    split
    · exact (h.once i b₀ hb₀).filter _
    · exact h.once i b₀ hb₀
  case old =>
    intro i b hb e he
    obtain ⟨b₀, hb₀, -, -, hlist⟩ := hl i b hb
    rw [hr.nextId]
    rw [hlist] at he
    dsimp only at he
    split at he
    · exact h.old i b₀ hb₀ e (List.mem_filter.1 he).1
    · exact h.old i b₀ hb₀ e he
  case oldObject =>
    intro other m' hm' i ho'
    rw [hr.nextId]
    exact h.oldObject other m' ((hmem other m').1 hm').1 i ho'
  case apart =>
    intro i b hb
    rw [hr.sharedMemories] at hb
    cases ht : t.transferMemories[i]? with
    | none => rfl
    | some c =>
      obtain ⟨c₀, hc₀, -⟩ := hl i c ht
      cases (h.apart i b hb).symm.trans hc₀

end Machine

end Microkernel
