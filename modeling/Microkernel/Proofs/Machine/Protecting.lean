import Microkernel.Proofs.Machine.Grants

/-!
# Changing the permission of transfer memory

Transfer memory that gets another permission finds its mappings through its list. As the list names exactly the mappings of the
object in every process that still has its mappings, they are the ones that change there (`Granted.protect`).
-/

namespace Microkernel

/-- A loop of programs that cannot fail. -/
theorem Action.run_forIn_lift {α : Type} (f : α → Update Unit) (l : List α) (s : Machine) : ExceptT.run (forIn l PUnit.unit fun a _ => do
    f a
    pure (ForInStep.yield PUnit.unit) : Action PUnit) s = (.ok ⟨⟩, l.foldl (fun s a => (f a s).2) s) := by
  induction l generalizing s with
  | nil => rfl
  | cons a rest ih =>
    rw [List.forIn_cons]
    exact ih (f a s).2

namespace AddressSpace

/-- The address space in which the mappings at some addresses have another permission. -/
def withPermission (s : AddressSpace) (addresses : List Nat) (permission : Permission) : AddressSpace :=
  ⟨s.mappings.map fun m => if m.address ∈ addresses then { m with permission } else m⟩

variable {s : AddressSpace} {address : Nat} {addresses : List Nat} {permission : Permission}

/-- Without addresses nothing has another permission. -/
theorem withPermission_nil (s : AddressSpace) (permission : Permission) : s.withPermission [] permission = s := by
  simp [withPermission]

/-- Changing permissions at some addresses and then at others changes them at all of these. -/
theorem withPermission_withPermission (s : AddressSpace) (first rest : List Nat) (permission : Permission) :
    (s.withPermission first permission).withPermission rest permission = s.withPermission (first ++ rest) permission := by
  unfold withPermission
  rw [List.map_map]
  congr 1
  refine List.map_congr_left fun m _ => ?_
  by_cases hfirst : m.address ∈ first <;> by_cases hrest : m.address ∈ rest <;> simp [hfirst, hrest]

/-- Nothing but permissions has changed. -/
theorem mem_withPermission {m : Mapping} : m ∈ (s.withPermission addresses permission).mappings ↔
    ∃ m₀ ∈ s.mappings, m = if m₀.address ∈ addresses then { m₀ with permission } else m₀ := by
  simp only [withPermission, List.mem_map, eq_comm]

/-- Permissions do not move mappings. -/
theorem Ordered.withPermission (h : s.Ordered) (addresses : List Nat) (permission : Permission) :
    (s.withPermission addresses permission).Ordered := by
  refine h.of_map fun m => ?_
  split <;> exact ⟨rfl, rfl⟩

/-- Changing the permission at an address, if anything is mapped there. -/
theorem setPermission_cases (s : AddressSpace) (address : Nat) (permission : Permission) :
    s.setPermission address permission = .ok (s.withPermission [address] permission) ∨
      s.withPermission [address] permission = s ∧ ∃ e, s.setPermission address permission = .error e := by
  unfold setPermission withPermission
  simp only [List.mem_singleton]
  split
  · exact .inl rfl
  · next hnone =>
    refine .inr ⟨?_, _, rfl⟩
    have hsame : (s.mappings.map fun m => if m.address = address then { m with permission } else m) = s.mappings := by
      refine (List.map_congr_left fun m hm => ?_).trans (List.map_id _)
      exact if_neg fun heq => hnone (List.any_eq_true.2 ⟨m, hm, decide_eq_true heq⟩)
    rw [hsame]

end AddressSpace

namespace Machine

variable {s t : Machine} {id object : RecordId} {permission : Permission}

/-- The addresses that a list names in a process. -/
def addressesIn (entries : List (RecordId × Nat)) (id : RecordId) : List Nat := (entries.filter (·.1 = id)).map (·.2)

/-- The addresses that a list names in a process are those of its entries for it. -/
theorem mem_addressesIn {entries : List (RecordId × Nat)} {address : Nat} :
    address ∈ addressesIn entries id ↔ (id, address) ∈ entries := by
  simp [addressesIn]

/-- The mappings that a list names have another permission, and nothing else has changed. -/
structure Permits (entries : List (RecordId × Nat)) (permission : Permission) (s t : Machine) : Prop where
  nextId : t.nextId = s.nextId
  process : ∀ id, t.process id = { s.process id with
    space := (s.process id).space.withPermission (addressesIn entries id) permission }
  contains : ∀ id, t.processes.contains id = s.processes.contains id
  sharedMemories : t.sharedMemories = s.sharedMemories
  transferMemories : t.transferMemories = s.transferMemories

/-- A list without entries changes nothing. -/
theorem Permits.nil (s : Machine) (permission : Permission) : Permits [] permission s s :=
  ⟨rfl, fun _ => by rw [addressesIn, List.filter_nil, List.map_nil, AddressSpace.withPermission_nil], fun _ => rfl, rfl, rfl⟩

/-- Two lists in a row change what both of them name. -/
theorem Permits.trans {u : Machine} {first rest : List (RecordId × Nat)} (h : Permits first permission s t)
    (h' : Permits rest permission t u) : Permits (first ++ rest) permission s u := by
  refine ⟨h'.nextId.trans h.nextId, fun id => ?_, fun id => (h'.contains id).trans (h.contains id),
    h'.sharedMemories.trans h.sharedMemories, h'.transferMemories.trans h.transferMemories⟩
  rw [h'.process, h.process, AddressSpace.withPermission_withPermission]
  simp only [addressesIn, List.filter_append, List.map_append]

/-- One entry of the list; it names nothing if nothing is mapped there any more. -/
theorem setMappingPermission_permits (id : RecordId) (address : Nat) (permission : Permission) (s : Machine) :
    Permits [(id, address)] permission s (Action.forget (setMappingPermission id address permission) s).2 := by
  have haddresses (other : RecordId) : addressesIn [(id, address)] other = if other = id then [address] else [] := by
    by_cases heq : other = id
    · simp [addressesIn, heq]
    · simp [addressesIn, heq, Ne.symm heq]
  have hrun : (Action.forget (setMappingPermission id address permission) s).2 =
      ((setMappingPermission id address permission).run s).2 := rfl
  rw [hrun, setMappingPermission, Action.run_look, Action.run_except_bind]
  rcases (s.process id).space.setPermission_cases address permission with hset | ⟨hsame, e, herror⟩
  · rw [hset]
    have hid : s.has (.process id) = true := has_process_of_mapping (AddressSpace.setPermission_ok hset).1
    have hr := Remaps.setSpace hid ((s.process id).space.withPermission [address] permission)
    refine ⟨hr.nextId, fun other => ?_, hr.contains, hr.sharedMemories, rfl⟩
    refine (hr.process other).trans ?_
    rw [haddresses]
    split
    · next heq => rw [heq]
    · rw [AddressSpace.withPermission_nil]
  · rw [herror]
    refine ⟨rfl, fun other => ?_, fun _ => rfl, rfl, rfl⟩
    change s.process other = _
    rw [haddresses]
    split
    · next heq => rw [heq, hsame]
    · rw [AddressSpace.withPermission_nil]

/-- Going over a list changes what it names. -/
theorem permits_foldl (entries : List (RecordId × Nat)) (permission : Permission) (s : Machine) :
    Permits entries permission s
      (entries.foldl (fun s e => (Action.forget (setMappingPermission e.1 e.2 permission) s).2) s) := by
  induction entries generalizing s with
  | nil => exact .nil s permission
  | cons e rest ih => exact (setMappingPermission_permits e.1 e.2 permission s).trans (ih _)

/-- The entries of a list that name processes which exist. -/
def present (s : Machine) (entries : List (RecordId × Nat)) : List (RecordId × Nat) :=
  entries.filter fun (process, _) => s.processes.contains process

/-- Any permission but "don't care" is given to the object, and then to the mappings that its list names. -/
theorem protectTransfer_cases (i : RecordId) (permission : Permission) (s : Machine) :
    (permission = .dontCare ∧ (protectTransfer i permission).run s = (.error .invalidPermission, s)) ∨
    ∃ t, permission ≠ .dontCare ∧ (protectTransfer i permission).run s = (.ok (), t) ∧
      Permits (s.present (s.transferMemory i).mappings) permission (setTransferMemory i { s.transferMemory i with
        permission, mappings := s.present (s.transferMemory i).mappings } s).2 t := by
  by_cases hp : permission = .dontCare
  · left
    rw [protectTransfer, if_pos hp]
    exact ⟨hp, rfl⟩
  · right
    rw [protectTransfer, if_neg hp, Action.run_look]
    dsimp only
    rw [Action.run_lift_bind, Action.run_bind, Action.run_forIn_lift]
    exact ⟨_, hp, rfl, permits_foldl _ _ _⟩

/-- What becomes of a machine in which transfer memory is given another permission. -/
structure Protects (i : RecordId) (permission : Permission) (s t : Machine) : Prop where
  granted : (t.transferMemory i).permission = permission
  /-- In a process that still has its mappings, exactly those of the object have changed. -/
  mappings : ∀ id, s.Retains id → (t.process id).space.mappings =
    (s.process id).space.mappings.map fun m => if m.object = some i then { m with permission } else m
  /-- No other process has mappings of objects, before or after. -/
  others : ∀ id, ¬ s.Retains id → ∀ object address, ¬ s.IsMapped object id address ∧ ¬ t.IsMapped object id address

/-- The list names exactly the mappings of the object. -/
theorem Granted.mem_present_iff (h : Granted s) {i : RecordId} {b : TransferMemory} (hb : s.transferMemories[i]? = some b)
    {id : RecordId} (hid : s.Retains id) {m : Mapping} (hm : m ∈ (s.process id).space.mappings) :
    m.address ∈ addressesIn (s.present b.mappings) id ↔ m.object = some i := by
  have hpresent : (id, m.address) ∈ s.present b.mappings ↔ (id, m.address) ∈ b.mappings :=
    List.mem_filter.trans (and_iff_left hid.1)
  rw [mem_addressesIn, hpresent, h.listed i b hb id m.address hid]
  constructor
  · rintro ⟨m', hm', ho, haddress⟩
    exact (h.ordered id).eq_of_address hm' hm haddress ▸ ho
  · exact fun ho => ⟨m, hm, ho, rfl⟩

/-- Every permission is part of itself. -/
theorem Permission.isSubsetOf_self (p : Permission) : p.isSubsetOf p = true := by
  simp [Permission.isSubsetOf, Permission.contains]

/-- Changing the permission of transfer memory changes that of its mappings, and keeps mappings and objects in agreement. -/
theorem Granted.protect (h : Granted s) {i : RecordId} {b : TransferMemory} (hb : s.transferMemories[i]? = some b)
    (ht : Permits (s.present b.mappings) permission
      (setTransferMemory i { b with permission, mappings := s.present b.mappings } s).2 t) : Protects i permission s t ∧ Granted t := by
  have hprocess (id : RecordId) : t.process id = { s.process id with
    space := (s.process id).space.withPermission (addressesIn (s.present b.mappings) id) permission } := ht.process id
  have hcontains (id : RecordId) : t.processes.contains id = s.processes.contains id := ht.contains id
  have hretains (id : RecordId) : t.Retains id ↔ s.Retains id := by
    unfold Retains
    rw [hcontains, hprocess]
  have htransfer (j : RecordId) : t.transferMemories[j]? =
      if j = i then some { b with permission, mappings := s.present b.mappings } else s.transferMemories[j]? := by
    rw [ht.transferMemories]
    exact Records.getElem?_insert _ _ _ _
  -- mappings of the object get the permission, those of other objects stay as they are
  have hmem {id : RecordId} {m : Mapping} {j : RecordId} (hm : m ∈ (t.process id).space.mappings) (ho : m.object = some j) :
      ∃ m₀ ∈ (s.process id).space.mappings, m₀.object = some j ∧ m = if j = i then { m₀ with permission } else m₀ := by
    rw [hprocess] at hm
    obtain ⟨m₀, hm₀, rfl⟩ := AddressSpace.mem_withPermission.1 hm
    have ho : m₀.object = some j := by
      split at ho <;> exact ho
    have hchanged := h.mem_present_iff hb (h.retains ⟨m₀, hm₀, ho, rfl⟩) hm₀
    rw [ho, Option.some.injEq] at hchanged
    exact ⟨m₀, hm₀, ho, by simp only [hchanged]⟩
  have hmapped (j id : RecordId) (address : Nat) : t.IsMapped j id address ↔ s.IsMapped j id address := by
    constructor
    · rintro ⟨m, hm, ho, rfl⟩
      obtain ⟨m₀, hm₀, ho₀, rfl⟩ := hmem hm ho
      exact ⟨m₀, hm₀, ho₀, by split <;> rfl⟩
    · rintro ⟨m, hm, ho, rfl⟩
      unfold IsMapped
      rw [hprocess]
      refine ⟨_, AddressSpace.mem_withPermission.2 ⟨m, hm, rfl⟩, ?_, ?_⟩
      · split <;> exact ho
      · split <;> rfl
  constructor
  · constructor
    case granted =>
      rw [transferMemory, Records.getD_of_getElem? ((htransfer i).trans (if_pos rfl))]
    case mappings =>
      intro id hid
      rw [hprocess]
      refine List.map_congr_left fun m hm => ?_
      simp only [h.mem_present_iff hb hid hm]
    case others =>
      intro id hid object address
      rw [hmapped]
      exact ⟨fun hm => hid (h.retains hm), fun hm => hid (h.retains hm)⟩
  · constructor
    case ordered =>
      intro id
      rw [hprocess]
      exact (h.ordered id).withPermission _ _
    case ended =>
      intro id hended
      rw [hprocess] at hended
      refine List.eq_nil_iff_forall_not_mem.2 fun m hm => ?_
      obtain ⟨hm, j, ho⟩ := AddressSpace.mem_forObjects.1 hm
      exact (h.retains ((hmapped j id m.address).1 ⟨m, hm, ho, rfl⟩)).2 hended
    case shared =>
      intro id m hm j c ho hc
      rw [ht.sharedMemories] at hc
      obtain ⟨m₀, hm₀, ho₀, rfl⟩ := hmem hm ho
      have hne : j ≠ i := by
        rintro rfl
        cases (h.apart j c hc).symm.trans hb
      rw [if_neg hne]
      exact h.shared id m₀ hm₀ j c ho₀ hc
    case transfer =>
      intro id m hm j c ho hc
      obtain ⟨m₀, hm₀, ho₀, rfl⟩ := hmem hm ho
      rw [htransfer] at hc
      split at hc
      · next heq =>
        subst heq
        obtain rfl := Option.some.inj hc
        rw [if_pos rfl]
        exact ⟨(h.transfer id m₀ hm₀ j b ho₀ hb).1, Permission.isSubsetOf_self permission⟩
      · next hne =>
        rw [if_neg hne]
        exact h.transfer id m₀ hm₀ j c ho₀ hc
    case listed =>
      intro j c hc id address hid
      have hid := (hretains id).1 hid
      rw [hmapped]
      rw [htransfer] at hc
      split at hc
      · next heq =>
        subst heq
        obtain rfl := Option.some.inj hc
        rw [← h.listed j b hb id address hid]
        exact List.mem_filter.trans (and_iff_left hid.1)
      · exact h.listed j c hc id address hid
    case once =>
      intro j c hc
      rw [htransfer] at hc
      split at hc
      · exact Option.some.inj hc ▸ (h.once i b hb).filter _
      · exact h.once j c hc
    case old =>
      intro j c hc e he
      rw [ht.nextId]
      rw [htransfer] at hc
      split at hc
      · obtain rfl := Option.some.inj hc
        exact h.old i b hb e (List.mem_filter.1 he).1
      · exact h.old j c hc e he
    case oldObject =>
      intro id m hm j ho
      rw [ht.nextId]
      obtain ⟨m₀, hm₀, ho₀, -⟩ := hmem hm ho
      exact h.oldObject id m₀ hm₀ j ho₀
    case apart =>
      intro j c hc
      rw [ht.sharedMemories] at hc
      have hnone := h.apart j c hc
      rw [htransfer, if_neg fun heq => nomatch (heq ▸ hnone).symm.trans hb]
      exact hnone

end Machine

end Microkernel
