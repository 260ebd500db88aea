import Microkernel.Proofs.Machine.Performing

/-!
# Coming to rest

What a sweep lets go of nobody has, so it keeps a machine orderly (`sweep_orderly`). Every sweep but the last lets go of some number,
and settling brings none back, so a machine comes to rest before its fuel is used up. At rest somebody has the pages of every
allocation (`quiesce_orderly`).
-/

namespace Microkernel

namespace Machine

variable {α : Type} {x : Setup} {s t : Machine}

/-! ## References -/

/-- A bare machine refers to what its host holds, what its kernels name, and what processes, threads and memory objects have. -/
theorem Bare.references (h : s.Bare) : s.references = s.held
    ++ s.kernels.values.flatMap (fun k => k.processes.values ++ k.namedPorts.values)
    ++ s.processes.values.flatMap Process.references ++ s.threads.toList.flatMap (fun (id, t) => t.references id)
    ++ s.sharedMemories.values.map SharedMemory.allocation ++ s.transferMemories.values.flatMap TransferMemory.backing := by
  obtain ⟨h1, h2, h3, h4, h5, h6, h7, h8, h9, h10, -⟩ := h
  have hvalues (α : Type) : ({} : Records α).values = [] := rfl
  unfold Machine.references
  simp only [h1, h2, h3, h4, h5, h6, h7, h8, h9, h10, hvalues, List.flatMap_nil, List.map_nil, List.append_nil]

/-- The allocations that somebody keeps alive are referred to. -/
theorem Holder.mem_references {pages : PageList} {backing : List AllocationId} (h : s.Holder pages backing) {id : AllocationId}
    (hid : id ∈ backing) : id ∈ s.references := by
  unfold references
  simp only [List.mem_append, List.mem_flatMap, List.mem_map]
  cases h with
  | @mapping process m hm =>
    have hprocess : s.has (.process process) = true := has_process_of_mapping (List.ne_nil_of_mem hm)
    obtain ⟨p, hp⟩ := Records.contains_iff.1 hprocess
    have hm : m ∈ p.space.mappings := Records.getD_of_getElem? hp _ ▸ hm
    have href : id ∈ p.references := List.mem_append_right _ (List.mem_flatMap.2 ⟨m, hm, hid⟩)
    have := Records.mem_values.2 ⟨process, hp⟩
    grind
  | @shared i m hm =>
    have := Records.mem_values.2 ⟨i, hm⟩
    grind
  | @transfer i m hm =>
    have := Records.mem_values.2 ⟨i, hm⟩
    grind

/-- A reference to an allocation comes from somebody who keeps it alive. -/
theorem Orderly.exists_holder (h : Orderly x s) {id : AllocationId} (hid : s.allocations.contains id = true)
    (hr : id ∈ s.references) : ∃ pages backing, s.Holder pages backing ∧ id ∈ backing := by
  have hnot {other : RecordId} (hno : s.NoAllocation other) : other ≠ id := by
    rintro rfl
    obtain ⟨a, ha⟩ := Records.contains_iff.1 hid
    cases hno.2.symm.trans ha
  rw [h.simple.bare.references] at hr
  simp only [List.mem_append, List.mem_flatMap, List.mem_map] at hr
  rcases hr with ((((hheld | ⟨k, hk, hmember⟩) | ⟨p, hp, href⟩) | ⟨⟨th, t⟩, ht, href⟩) | ⟨m, hm, rfl⟩) | ⟨m, hm, hbacking⟩
  · exact absurd rfl (hnot (h.numbered.held id hheld))
  · obtain ⟨kid, hkid⟩ := Records.mem_values.1 hk
    have hkernel : s.kernel kid = k := Records.getD_of_getElem? hkid _
    rcases hmember with hmember | hport
    · obtain ⟨pid, hpid⟩ := Records.mem_values.1 hmember
      exact absurd rfl (hnot (h.numbered.member kid pid id (hkernel ▸ hpid)))
    · obtain ⟨-, -, -, -, -, -, -, -, -, -, hports⟩ := h.simple.bare
      rw [← hkernel, hports] at hport
      cases hport
  · obtain ⟨pid, hpid⟩ := Records.mem_values.1 hp
    obtain rfl : s.process pid = p := Records.getD_of_getElem? hpid _
    unfold Process.references at href
    simp only [List.mem_append, List.mem_flatMap, List.mem_map] at href
    rcases href with (⟨o, ho, rfl⟩ | hth) | ⟨m, hm, hbacking⟩
    · exact absurd rfl (hnot (h.numbered.handle pid o ho))
    · exact absurd rfl (hnot (h.numbered.object (.thread id) (h.simple.threadOf pid id hth)))
    · exact ⟨_, _, .mapping hm, hbacking⟩
  · rw [Std.TreeMap.mem_toList_iff_getElem?_eq_some] at ht
    obtain rfl : s.thread th = t := Records.getD_of_getElem? ht _
    have hth : s.has (.thread th) = true := Records.contains_of_getElem? ht
    have hplain : id = th ∨ id = (s.thread th).process := by
      unfold Thread.references at href
      split at href
      · rcases (h.simple.thread th).2 with hactivity | hactivity | hactivity <;> rw [hactivity] at href <;> simpa using href
      · cases href
    rcases hplain with rfl | rfl
    · exact absurd rfl (hnot (h.numbered.object (.thread id) hth))
    · exact absurd rfl (hnot (h.numbered.processOf th hth))
  · obtain ⟨i, hi⟩ := Records.mem_values.1 hm
    exact ⟨_, _, .shared hi, List.mem_singleton_self _⟩
  · obtain ⟨i, hi⟩ := Records.mem_values.1 hm
    exact ⟨_, _, .transfer hi, hbacking⟩

/-! ## Sweeping -/

variable {live : Std.TreeSet RecordId}

/-- Dead are the records that nothing refers to. -/
theorem mem_dead {records : Records α} {id : RecordId} :
    id ∈ dead live records ↔ records.contains id = true ∧ live.contains id = false := by
  unfold dead
  rw [List.mem_filter, Std.TreeMap.mem_keys, Std.TreeMap.mem_iff_contains, Bool.not_eq_true']

/-- A record is kept if it is alive, or if it was not there to be dropped. -/
theorem getElem?_kept {old new : Records α} {id : RecordId} :
    (kept live old new)[id]? = if live.contains id || !old.contains id then new[id]? else none := by
  unfold kept
  rw [Std.TreeMap.getElem?_filter']
  cases new[id]? with
  | none => split <;> rfl
  | some a => rfl

/-- A record that is kept is the new one. -/
theorem getElem?_kept_of_some {old new : Records α} {id : RecordId} {a : α} (h : (kept live old new)[id]? = some a) :
    new[id]? = some a := by
  rw [getElem?_kept] at h
  split at h
  · exact h
  · cases h

/-- What is kept was there, and is alive if it was there before. -/
theorem contains_kept {old new : Records α} {id : RecordId} (h : (kept live old new).contains id = true) :
    new.contains id = true ∧ (old.contains id = true → live.contains id = true) := by
  obtain ⟨a, ha⟩ := Records.contains_iff.1 h
  rw [getElem?_kept] at ha
  split at ha
  · next hlive =>
    refine ⟨Records.contains_of_getElem? ha, fun hold => ?_⟩
    rw [hold] at hlive
    simpa using hlive
  · cases ha

/-- What is not kept is the default. -/
theorem getD_kept {old new : Records α} {id : RecordId} (d : α) :
    (kept live old new).getD id d = if live.contains id || !old.contains id then new.getD id d else d := by
  rw [Std.TreeMap.getD_eq_getD_getElem?, getElem?_kept, Std.TreeMap.getD_eq_getD_getElem?]
  split <;> rfl

/-- A table is kept as it is if none of its records is dead. -/
theorem getElem?_kept_of_dead {old new : Records α} (h : dead live old = []) (id : RecordId) :
    (kept live old new)[id]? = new[id]? := by
  rw [getElem?_kept, if_pos]
  cases hold : old.contains id with
  | false => exact Bool.or_true _
  | true =>
    cases hlive : live.contains id with
    | true => rfl
    | false => cases h ▸ mem_dead.2 ⟨hold, hlive⟩

/-- Dropping the records that nothing refers to makes a machine subside. -/
theorem dropDead_subsides (hbare : s.Bare) {kernels : Records Kernel} {allocations : Records Allocation}
    (hlive : ∀ id : AllocationId, allocations.contains id = true → live.contains id = true)
    (hports : ∀ k, (Machine.kernel { s with kernels, allocations } k).namedPorts = {}) :
    Subsides { s with kernels, allocations } (dropDead live s { s with kernels, allocations }) := by
  have hprocess (id : RecordId) : (dropDead live s { s with kernels, allocations }).process id =
      if live.contains id || !s.processes.contains id then s.process id else default := getD_kept _
  have hthread (id : RecordId) : (dropDead live s { s with kernels, allocations }).thread id =
      if live.contains id || !s.threads.contains id then s.thread id else default := getD_kept _
  have hkept {β : Type} (old : Records β) {id : RecordId} (h : (kept live old old).contains id = true) :
      (live.contains id || !old.contains id) = true := by
    rw [(contains_kept h).2 (contains_kept h).1]
    rfl
  constructor
  case nextId => rfl
  case allocation =>
    intro id
    refine (getElem?_kept).trans ?_
    split
    · rfl
    · next hdead =>
      cases ha : allocations[id]? with
      | none => rfl
      | some a =>
        rw [hlive id (Records.contains_of_getElem? ha)] at hdead
        exact absurd rfl hdead
  case kernel => exact fun k => refl _
  case process =>
    intro id
    rw [hprocess]
    split
    · exact refl _
    · exact ⟨fun _ ho => (nomatch ho), fun _ ht => (nomatch ht), fun _ hm => (nomatch hm), fun _ hstate => (nomatch hstate)⟩
  case thread =>
    intro id hplain
    rw [hthread]
    split
    · exact hplain
    · exact ⟨rfl, .inl rfl⟩
  case object =>
    intro o ho
    cases o <;> exact (contains_kept ho).1
  case kernelOf => exact fun id hid => congrArg Process.kernel ((hprocess id).trans (if_pos (hkept _ hid)))
  case processOf => exact fun id hid => congrArg Thread.process ((hthread id).trans (if_pos (hkept _ hid)))
  case shared => exact fun _ _ hm => getElem?_kept_of_some hm
  case transfer => exact fun _ m hm => ⟨m, getElem?_kept_of_some hm, rfl, rfl⟩
  case held => exact fun _ hid => hid
  case bare =>
    intro _
    obtain ⟨h1, h2, h3, h4, h5, h6, h7, h8, h9, h10, -⟩ := hbare
    refine ⟨?_, ?_, ?_, ?_, ?_, ?_, ?_, ?_, ?_, h10, hports⟩ <;> simp only [dropDead, h1, h2, h3, h4, h5, h6, h7, h8, h9] <;> rfl

/-- A sweep of a machine without sessions and servers gives back the allocations that nothing refers to, and drops what is dead. -/
theorem Bare.sweep_run (h : s.Bare) : sweep s = (hasDead (.ofList s.references) s,
    dropDead (.ofList s.references) s (s.freed (dead (.ofList s.references) s.allocations))) := by
  obtain ⟨-, -, -, -, hserverSessions, -, -, -, hservers, -⟩ := h
  have hnone (live : Std.TreeSet RecordId) (β : Type) : dead live ({} : Records β) = [] := rfl
  rw [sweep, Update.run_look, hservers, hserverSessions, hnone, hnone, List.forIn_nil, List.forIn_nil, pure_bind, pure_bind,
    Update.run_bind, Update.run_forIn]
  rfl

/-- A set made of a list has the members of the list. -/
theorem contains_ofList {l : List RecordId} {id : RecordId} : (Std.TreeSet.ofList l).contains id = true ↔ id ∈ l := by
  rw [Std.TreeSet.contains_ofList, List.contains_iff_mem]

/-- Allocations that were freed are gone, and the others are as they were. -/
theorem allocations_freed (freed : List AllocationId) (s : Machine) (id : AllocationId) :
    (s.freed freed).allocations[id]? = if id ∈ freed then none else s.allocations[id]? := by
  induction freed generalizing s with
  | nil => rfl
  | cons a rest ih =>
    have hone : (freeAllocation a s).2.allocations[id]? = if id = a then none else s.allocations[id]? := by
      rw [freeAllocation_run]
      split
      · exact Records.getElem?_erase _ _ _
      · next hnone =>
        split
        · next heq => exact heq ▸ hnone
        · rfl
    refine (ih _).trans ?_
    rw [hone]
    simp only [List.mem_cons]
    grind

/-- The machine in the middle of a sweep: what nothing refers to has been given back. -/
theorem Orderly.freed_dead (h : Orderly x s) :
    Orderly x (s.freed (dead (.ofList s.references) s.allocations)) := by
  refine freed_orderly h fun a ha pages backing hh hid => ?_
  have hlive := (mem_dead.1 ha).2
  rw [contains_ofList.2 (hh.mem_references hid)] at hlive
  cases hlive

/-- A sweep keeps a machine orderly, and everything that is there afterwards was there before and is referred to. -/
theorem sweep_orderly (h : Orderly x s) : Orderly x (sweep s).2 := by
  have hfreed := h.freed_dead
  obtain ⟨kernels, allocations, hrest⟩ := freed_rest (dead (.ofList s.references) s.allocations) s
  rw [h.simple.bare.sweep_run]
  have hlive (id : AllocationId) (hid : allocations.contains id = true) : (Std.TreeSet.ofList s.references).contains id = true := by
    have hallocations : (s.freed (dead (.ofList s.references) s.allocations)).allocations = allocations := by rw [hrest]
    obtain ⟨a, ha⟩ := Records.contains_iff.1 hid
    rw [← hallocations, allocations_freed] at ha
    split at ha
    · cases ha
    · next hdead =>
      rw [mem_dead, not_and, Bool.not_eq_false] at hdead
      exact hdead (Records.contains_of_getElem? ha)
  generalize s.freed (dead (.ofList s.references) s.allocations) = t at hfreed hrest
  subst hrest
  obtain ⟨-, -, -, -, -, -, -, -, -, -, hports⟩ := hfreed.simple.bare
  have hsub := dropDead_subsides h.simple.bare hlive hports
  refine hfreed.of_subsides hsub fun id th hth => ?_
  -- the threads of a process are referred to, so they are not dropped
  have hold : th ∈ (s.process id).threads := (hsub.process id).thread th hth
  have href : th ∈ s.references := by
    have hprocess : s.has (.process id) = true := Classical.byContradiction fun hno => by
      rw [Bool.not_eq_true] at hno
      unfold process at hold
      rw [Std.TreeMap.getD_eq_fallback_of_contains_eq_false hno] at hold
      cases hold
    obtain ⟨p, hp⟩ := Records.contains_iff.1 hprocess
    have hth : th ∈ p.threads := Records.getD_of_getElem? hp _ ▸ hold
    have := Records.mem_values.2 ⟨id, hp⟩
    have hp : th ∈ p.references := List.mem_append_left _ (List.mem_append_right _ hth)
    rw [h.simple.bare.references]
    simp only [List.mem_append, List.mem_flatMap]
    grind
  have hthread : s.has (.thread th) = true := h.simple.threadOf id th hold
  change (kept _ s.threads s.threads).contains th = true
  have hkept : (kept (.ofList s.references) s.threads s.threads)[th]? = s.threads[th]? := by
    rw [getElem?_kept, contains_ofList.2 href]
    rfl
  exact (Records.contains_congr hkept).trans hthread

/-! ## Rest -/

/-- Somebody keeps every allocation alive. -/
def Tidy (s : Machine) : Prop :=
  ∀ id : AllocationId, s.allocations.contains id = true → ∃ pages backing, s.Holder pages backing ∧ id ∈ backing

/-- When there was nothing to let go of, somebody keeps every allocation alive. -/
theorem sweep_tidy (h : Orderly x s) (hdead : (sweep s).1 = false) : (sweep s).2.Tidy := by
  rw [h.simple.bare.sweep_run] at hdead ⊢
  simp only [hasDead, Bool.or_assoc, Bool.or_eq_false_iff, Bool.not_eq_false', List.isEmpty_iff] at hdead
  obtain ⟨-, -, -, hallocations, hprocesses, -, -, -, -, -, -, -, hshared, htransfer, -⟩ := hdead
  rw [hallocations]
  have hholder {pages : PageList} {backing : List AllocationId} (hh : s.Holder pages backing) :
      (dropDead (.ofList s.references) s s).Holder pages backing := by
    cases hh with
    | @mapping id m hm =>
      have hprocess : (dropDead (.ofList s.references) s s).process id = s.process id := by
        unfold process
        rw [Std.TreeMap.getD_eq_getD_getElem?, Std.TreeMap.getD_eq_getD_getElem?]
        exact congrArg (Option.getD · default) (getElem?_kept_of_dead hprocesses id)
      have hm : m ∈ ((dropDead (.ofList s.references) s s).process id).space.mappings := hprocess ▸ hm
      exact .mapping hm
    | shared hm => exact .shared ((getElem?_kept_of_dead hshared _).trans hm)
    | transfer hm => exact .transfer ((getElem?_kept_of_dead htransfer _).trans hm)
  intro id hid
  have hold : s.allocations.contains id = true := (contains_kept hid).1
  have href : id ∈ s.references := contains_ofList.1 ((contains_kept hid).2 hold)
  obtain ⟨pages, backing, hh, hbacking⟩ := h.exists_holder hold href
  exact ⟨pages, backing, hholder hh, hbacking⟩

/-- Whether a number is that of an allocation or of an object that guests can have without a service. -/
def inUse (s : Machine) (id : RecordId) : Bool :=
  s.allocations.contains id || s.events.contains id || s.processes.contains id || s.threads.contains id
    || s.sharedMemories.contains id || s.transferMemories.contains id

/-- The numbers in use. -/
def census (s : Machine) : List RecordId := (List.range s.nextId).filter s.inUse

/-- A number is in use if it is that of an allocation or of a plain object. -/
theorem inUse_iff {id : RecordId} : s.inUse id = true ↔
    s.allocations.contains id = true ∨ ∃ o : KernelObject, o.isPlain = true ∧ o.id = id ∧ s.has o = true := by
  unfold inUse
  simp only [Bool.or_eq_true]
  constructor
  · rintro (((((ha | ho) | ho) | ho) | ho) | ho)
    · exact .inl ha
    · exact .inr ⟨.event id, rfl, rfl, ho⟩
    · exact .inr ⟨.process id, rfl, rfl, ho⟩
    · exact .inr ⟨.thread id, rfl, rfl, ho⟩
    · exact .inr ⟨.sharedMemory id, rfl, rfl, ho⟩
    · exact .inr ⟨.transferMemory id, rfl, rfl, ho⟩
  · rintro (ha | ⟨o, hplain, rfl, ho⟩)
    · simp [ha]
    · cases o <;> simp_all [KernelObject.isPlain, KernelObject.id, has]

/-- Numbers in use have been given. -/
theorem Orderly.lt_nextId (h : Orderly x s) {id : RecordId} (hid : s.inUse id = true) : id < s.nextId := by
  rcases inUse_iff.1 hid with ha | ⟨o, -, rfl, ho⟩
  · obtain ⟨a, ha⟩ := Records.contains_iff.1 ha
    exact h.stocked.old id a ha
  · exact (h.numbered.object o ho).1

/-- A machine with the same allocations that has gained no object uses no other numbers. -/
theorem Subsides.inUse (hs : Subsides s t) {id : RecordId} (hid : t.inUse id = true) : s.inUse id = true := by
  rw [inUse_iff] at hid ⊢
  refine hid.imp (fun ha => ?_) fun ⟨o, hplain, hid, ho⟩ => ⟨o, hplain, hid, hs.object o ho⟩
  exact (Records.contains_congr (hs.allocation id)).symm.trans ha

/-- Of the numbers that were in use, those that still are. -/
theorem census_eq (hn : t.nextId = s.nextId) (h : ∀ id, t.inUse id = true → s.inUse id = true) :
    t.census = s.census.filter t.inUse := by
  unfold census
  rw [List.filter_filter, hn]
  refine List.filter_congr fun id _ => ?_
  cases ht : t.inUse id with
  | false => rfl
  | true => rw [h id ht]; rfl

/-- A number that is in use once what is dead has been dropped was in use before, and is live. -/
theorem inUse_dropDead {kernels : Records Kernel} {allocations : Records Allocation}
    (hsome : ∀ id : AllocationId, allocations.contains id = true → s.allocations.contains id = true) {id : RecordId}
    (hid : (dropDead live s { s with kernels, allocations }).inUse id = true) : s.inUse id = true ∧ live.contains id = true := by
  have hkept {β : Type} (old : Records β) {id : RecordId} (h : (kept live old old).contains id = true) :
      old.contains id = true ∧ live.contains id = true := ⟨(contains_kept h).1, (contains_kept h).2 (contains_kept h).1⟩
  rw [inUse_iff] at hid ⊢
  rcases hid with ha | ⟨o, hplain, rfl, ho⟩
  · have ha : (kept live s.allocations allocations).contains id = true := ha
    have hold := hsome id (contains_kept ha).1
    exact ⟨.inl hold, (contains_kept ha).2 hold⟩
  · have hone : s.has o = true ∧ live.contains o.id = true := by
      cases o
      case event i => exact hkept s.events ho
      case sharedMemory i => exact hkept s.sharedMemories ho
      case transferMemory i => exact hkept s.transferMemories ho
      case process i => exact hkept s.processes ho
      case thread i => exact hkept s.threads ho
      all_goals cases hplain
    exact ⟨.inr ⟨o, hplain, rfl, hone.1⟩, hone.2⟩

/-- The records of a machine without services that are dead have numbers in use. -/
theorem Bare.exists_dead (h : s.Bare) (hdead : hasDead live s = true) : ∃ id, s.inUse id = true ∧ live.contains id = false := by
  obtain ⟨h1, h2, h3, h4, h5, h6, h7, h8, h9, -⟩ := h
  have hnone {β : Type} : dead live ({} : Records β) = [] := rfl
  simp only [hasDead, h1, h2, h3, h4, h5, h6, h7, h8, h9, hnone, List.isEmpty_nil, Bool.not_true, Bool.false_or, Bool.or_false,
    Bool.or_eq_true, Bool.not_eq_true', List.isEmpty_eq_false_iff_exists_mem, mem_dead] at hdead
  simp only [inUse_iff]
  rcases hdead with ((((⟨id, ho, hl⟩ | ⟨id, ho, hl⟩) | ⟨id, ho, hl⟩) | ⟨id, ho, hl⟩) | ⟨id, ho, hl⟩) | ⟨id, ho, hl⟩
  · exact ⟨id, .inl ho, hl⟩
  · exact ⟨id, .inr ⟨.process id, rfl, rfl, ho⟩, hl⟩
  · exact ⟨id, .inr ⟨.thread id, rfl, rfl, ho⟩, hl⟩
  · exact ⟨id, .inr ⟨.event id, rfl, rfl, ho⟩, hl⟩
  · exact ⟨id, .inr ⟨.sharedMemory id, rfl, rfl, ho⟩, hl⟩
  · exact ⟨id, .inr ⟨.transferMemory id, rfl, rfl, ho⟩, hl⟩

/-- A sweep that lets something go leaves fewer numbers in use. -/
theorem census_sweep (h : Orderly x s) (hdead : (sweep s).1 = true) : (sweep s).2.census.length < s.census.length := by
  rw [h.simple.bare.sweep_run] at hdead ⊢
  obtain ⟨kernels, allocations, hrest⟩ := freed_rest (dead (.ofList s.references) s.allocations) s
  have hsome (id : AllocationId) (hid : allocations.contains id = true) : s.allocations.contains id = true := by
    have hlook := allocations_freed (dead (.ofList s.references) s.allocations) s id
    rw [hrest] at hlook
    obtain ⟨a, ha⟩ := Records.contains_iff.1 hid
    rw [hlook] at ha
    split at ha
    · cases ha
    · exact Records.contains_of_getElem? ha
  rw [hrest]
  generalize Std.TreeSet.ofList s.references = live at hdead
  obtain ⟨id, hid, hlive⟩ := h.simple.bare.exists_dead hdead
  have hcensus : (dropDead live s { s with kernels, allocations }).census = s.census.filter _ :=
    census_eq rfl fun _ hid => (inUse_dropDead hsome hid).1
  dsimp only
  rw [hcensus, List.length_filter_lt_length_iff_exists]
  refine ⟨id, List.mem_filter.2 ⟨List.mem_range.2 (h.lt_nextId hid), hid⟩, fun hafter => ?_⟩
  rw [(inUse_dropDead hsome hafter).2] at hlive
  cases hlive

/-- Settling brings no number back. -/
theorem census_settle (h : Orderly x s) : (settle s).2.census.length ≤ s.census.length := by
  obtain ⟨hsub, -⟩ := settle_calm x.kernel s h.simple fun _ ho => nomatch ho
  rw [census_eq hsub.nextId fun id => hsub.inUse]
  exact List.length_filter_le _ _

/-- With fuel for every number in use, a machine comes to rest. -/
theorem quiesceFor_orderly {fuel : Nat} (h : Orderly x s) (hfuel : s.census.length < fuel) :
    Orderly x (quiesceFor fuel s).2 ∧ (quiesceFor fuel s).2.Tidy := by
  induction fuel generalizing s with
  | zero => exact absurd hfuel (Nat.not_lt_zero _)
  | succ fuel ih =>
    have hsettled : Orderly x (settle s).2 := h.of_calm (settle_calm x.kernel s) fun _ ho => nomatch ho
    have hswept := sweep_orderly hsettled
    rw [quiesceFor, Update.run_bind, Update.run_bind]
    cases hdead : (sweep (settle s).2).1 with
    | false => exact ⟨hswept, sweep_tidy hsettled hdead⟩
    | true =>
      refine ih hswept ?_
      have := census_sweep hsettled hdead
      have := census_settle h
      omega

/-- A machine comes to rest orderly, and somebody keeps every allocation alive then. -/
theorem quiesce_orderly (h : Orderly x s) : Orderly x (quiesce s).2 ∧ (quiesce s).2.Tidy := by
  rw [quiesce, Update.run_look]
  refine quiesceFor_orderly h (Nat.lt_succ_of_le ?_)
  exact Nat.le_trans (List.length_filter_le _ _) (Nat.le_of_eq List.length_range)

end Machine

end Microkernel
