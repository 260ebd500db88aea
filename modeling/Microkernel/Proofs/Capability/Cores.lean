import Microkernel.Proofs.Capability.InWords
import Microkernel.Proofs.Capability.Masks
import Microkernel.Proofs.Capability.Slots

/-!
# Cores beyond a mask

A word names cores by numbers of eight bits and a machine may have any number of cores, but a core mask has 64 positions. Reading a word
whose range begins behind the last position leaves the mask's word, and of a range that begins before it the cores behind it are not
granted. So reading cores is sound exactly on machines of up to 64 cores, and exactly there is a service host pinned to the last core
(`overflow_free_iff`).
-/

namespace Microkernel

open Capability

variable {coreCount : Nat} {word : UInt32} {words : List UInt32} {c : Capabilities}

namespace Capability

/-- The word is about cores and priorities, its ranges are in order, and the machine has the cores. -/
structure NamesCores (coreCount : Nat) (word : UInt32) : Prop where
  kind : HasKind word corePriorityKind
  priorities : highestOf word ≤ lowestOf word
  cores : minCoreOf word ≤ maxCoreOf word
  machine : maxCoreOf word < coreCount

/-- Some word of the list is about the core. -/
def CoreNamed (words : List UInt32) (core : Nat) : Prop :=
  ∃ word ∈ words, HasKind word corePriorityKind ∧ minCoreOf word ≤ core ∧ core ≤ maxCoreOf word

/-- The slot for the cores and the priorities is that of the words of their kind. -/
theorem slotOf?_eq_corePriority_iff : slotOf? word = some .corePriority ↔ HasKind word corePriorityKind := by
  rw [hasKind_iff, slotOf?]
  rcases Descriptor.ofWord_cases word with
    ⟨hk, hw⟩ | ⟨hk, hw⟩ | ⟨hk, hw⟩ | ⟨hk, hw⟩ | ⟨hk, hw⟩ | ⟨hk, hw⟩ | ⟨hk, hw⟩ | ⟨hk, hw⟩ | ⟨hk, hw⟩
  case inl => exact iff_of_true (by rw [hw]; rfl) hk
  all_goals
    refine iff_of_false (by rw [hw]; nofun) fun h => ?_
    rw [h] at hk
    exact absurd hk (by decide)

/-- A word of this kind is read as two priorities and two cores. -/
theorem Descriptor.ofWord_of_corePriority (h : HasKind word corePriorityKind) :
    ofWord word = .corePriority (lowestOf word) (highestOf word) (minCoreOf word) (maxCoreOf word) := by
  rw [ofWord, hasKind_iff.1 h]
  rfl

/-- A word for cores and priorities is no half of a mapped range. -/
theorem ne_mapRange_of_corePriority (h : HasKind word corePriorityKind) : Descriptor.ofWord word ≠ .mapRange := by
  simp [Descriptor.ofWord_of_corePriority h]

end Capability

namespace Capabilities

namespace Reading

variable {r r' : Reading} {e : UInt32}

/-- What becomes of a word about cores and priorities. -/
theorem accept_cores (h : HasKind word corePriorityKind) : r.accept coreCount word (Descriptor.ofWord word) =
    if r.corePrioritySeen then .error (.invalidCombination word)
    else if lowestOf word < highestOf word ∨ maxCoreOf word < minCoreOf word then .error (.invalidCombination word)
    else if coreCount ≤ maxCoreOf word then .error (.invalidCpuCore word)
    else if 64 ≤ minCoreOf word then .error (.overflow word)
    else .ok { r with
      corePrioritySeen := true
      granted := { r.granted with
        priorityMask := rangeMask (highestOf word) (lowestOf word)
        coreMask := rangeMask (minCoreOf word) (maxCoreOf word) } } := by
  rw [Descriptor.ofWord_of_corePriority h, accept]

/-- Only the first word about cores and priorities can stop the reading, if its cores begin behind the mask. -/
theorem accept_eq_overflow_iff : r.accept coreCount word (Descriptor.ofWord word) = .error (.overflow e) ↔
    e = word ∧ r.corePrioritySeen = false ∧ NamesCores coreCount word ∧ 64 ≤ minCoreOf word := by
  by_cases hkind : HasKind word corePriorityKind
  · rw [accept_cores hkind]
    split_ifs with hseen hrange hmachine hmin
    · simp [hseen]
    · refine iff_of_false nofun fun h => ?_
      have := h.2.2.1.priorities
      have := h.2.2.1.cores
      omega
    · refine iff_of_false nofun fun h => ?_
      have := h.2.2.1.machine
      omega
    · simp only [Except.error.injEq, CapabilityError.overflow.injEq]
      refine ⟨fun h => ⟨h.symm, by simpa using hseen, ⟨hkind, ?_, ?_, ?_⟩, hmin⟩, fun h => h.1.symm⟩ <;> omega
    · exact iff_of_false nofun fun h => hmin h.2.2.2
  · refine iff_of_false (fun h => ?_) fun h => hkind h.2.2.1.kind
    cases hd : Descriptor.ofWord word with
    | corePriority => exact hkind (slotOf?_eq_corePriority_iff.1 (by rw [slotOf?, hd]; rfl))
    | callMask | kernelVersion | handleTableSize =>
      rw [hd, accept] at h
      split_ifs at h
      all_goals cases h
    | mapRange | inert | programType | debugFlags | unknown =>
      rw [hd] at h
      cases h

/-- A word about cores and priorities that was taken begins within the mask. -/
theorem namesCores_of_accept (h : r.accept coreCount word (Descriptor.ofWord word) = .ok r') (hkind : HasKind word corePriorityKind) :
    NamesCores coreCount word ∧ minCoreOf word < 64 := by
  rw [accept_cores hkind] at h
  split_ifs at h with hseen hrange hmachine hmin
  exact ⟨⟨hkind, by omega, by omega, by omega⟩, by omega⟩

/-- Cores have been seen after a word is accepted if they had before or if the word names them. -/
theorem corePrioritySeen_of_accept (h : r.accept coreCount word (Descriptor.ofWord word) = .ok r') :
    r'.corePrioritySeen = true ↔ r.corePrioritySeen = true ∨ HasKind word corePriorityKind := by
  rw [← slotOf?_eq_corePriority_iff]
  exact ((sets_of_accept h).taken .corePriority).trans (or_congr_right (and_iff_left rfl))

/-- A pair of range words is passed over. -/
theorem run_pair {next : UInt32} {rest : List UInt32} (hw : Descriptor.ofWord word = .mapRange)
    (hn : Descriptor.ofWord next = .mapRange) : run coreCount r (word :: next :: rest) = run coreCount r rest := by
  rw [run]
  · exact if_pos hn
  · exact hw

/-- A word that is read alone is no half of a mapped range. -/
theorem ne_mapRange_of_alone {rest : List UInt32}
    (hpair : ∀ next tail, Descriptor.ofWord word = .mapRange → rest = next :: tail → False)
    (hlast : Descriptor.ofWord word = .mapRange → rest = [] → False) : Descriptor.ofWord word ≠ .mapRange :=
  fun hw => not_range_of_alone hpair hlast (Descriptor.ofWord_eq_mapRange_iff.1 hw)

/-- Reading stops at the word, the first one about cores and priorities, because its cores begin behind the mask. -/
structure StopsAt (coreCount : Nat) (r : Reading) (before : List UInt32) (word : UInt32) : Prop where
  reads : ∃ c, run coreCount r before = .ok c
  unseen : r.corePrioritySeen = false
  first : ∀ other ∈ before, ¬HasKind other corePriorityKind
  names : NamesCores coreCount word
  behind : 64 ≤ minCoreOf word

/-- A list whose reading stops at a word overflows there, whatever follows. -/
theorem StopsAt.run_eq {before : List UInt32} (h : StopsAt coreCount r before word) (after : List UInt32) :
    run coreCount r (before ++ word :: after) = .error (.overflow word) := by
  obtain ⟨⟨c, hreads⟩, hunseen, hfirst, hnames, hbehind⟩ := h
  fun_induction run coreCount r before with
  | case1 r =>
    have haccept : r.accept coreCount word (Descriptor.ofWord word) = .error (.overflow word) :=
      accept_eq_overflow_iff.2 ⟨rfl, hunseen, hnames, hbehind⟩
    rw [List.nil_append, run_cons (ne_mapRange_of_corePriority hnames.kind), haccept]
  | case2 r other next rest hw hn ih =>
    rw [List.cons_append, List.cons_append, run_pair hw hn]
    exact ih hunseen (fun w hm => hfirst w (List.mem_cons_of_mem _ (List.mem_cons_of_mem _ hm))) hreads
  | case3 | case4 | case6 => cases hreads
  | case5 r other rest r' hpair hlast haccept ih =>
    rw [List.cons_append, run_cons (ne_mapRange_of_alone hpair hlast), haccept]
    refine ih ?_ (fun w hm => hfirst w (List.mem_cons_of_mem _ hm)) hreads
    rw [← Bool.not_eq_true, corePrioritySeen_of_accept haccept]
    simp [hunseen, hfirst other List.mem_cons_self]

/-- If reading a list overflows, it stops at a word of the list. -/
theorem exists_stopsAt (h : run coreCount r words = .error (.overflow word)) :
    ∃ before after, words = before ++ word :: after ∧ StopsAt coreCount r before word := by
  fun_induction run coreCount r words with
  | case1 | case3 | case4 => cases h
  | case2 r other next rest hw hn ih =>
    obtain ⟨before, after, rfl, hstops⟩ := ih h
    refine ⟨other :: next :: before, after, rfl, ?_, hstops.unseen, ?_, hstops.names, hstops.behind⟩
    · rw [run_pair hw hn]
      exact hstops.reads
    · rw [Descriptor.ofWord_eq_mapRange_iff] at hw hn
      have hkind {w : UInt32} (hr : HasKind w mapRangeKind) : ¬HasKind w corePriorityKind := fun hc => absurd (hr.eq hc) (by decide)
      exact List.forall_mem_cons.2 ⟨hkind hw, List.forall_mem_cons.2 ⟨hkind hn, hstops.first⟩⟩
  | case5 r other rest r' hpair hlast haccept ih =>
    obtain ⟨before, after, rfl, hstops⟩ := ih h
    have hseen := hstops.unseen
    rw [← Bool.not_eq_true, corePrioritySeen_of_accept haccept, not_or] at hseen
    refine ⟨other :: before, after, rfl, ?_, by simpa using hseen.1, List.forall_mem_cons.2 ⟨hseen.2, hstops.first⟩, hstops.names,
      hstops.behind⟩
    rw [run_cons (ne_mapRange_of_alone hpair hlast), haccept]
    exact hstops.reads
  | case6 r other rest e hpair hlast haccept =>
    cases h
    obtain ⟨rfl, hunseen, hnames, hbehind⟩ := accept_eq_overflow_iff.1 haccept
    exact ⟨[], rest, rfl, ⟨r.granted, by rw [run]⟩, hunseen, by simp, hnames, hbehind⟩

/-- In a list that was read, every word about cores and priorities begins within the mask. -/
theorem namesCores_of_run (h : run coreCount r words = .ok c) :
    ∀ word ∈ words, HasKind word corePriorityKind → NamesCores coreCount word ∧ minCoreOf word < 64 := by
  fun_induction run coreCount r words with
  | case1 r => simp
  | case2 r word next rest hw hn ih =>
    rw [Descriptor.ofWord_eq_mapRange_iff] at hw hn
    exact List.forall_mem_cons.2 ⟨fun hc => absurd (hw.eq hc) (by decide),
      List.forall_mem_cons.2 ⟨fun hc => absurd (hn.eq hc) (by decide), ih h⟩⟩
  | case3 | case4 | case6 => cases h
  | case5 r word rest r' hpair hlast haccept ih => exact List.forall_mem_cons.2 ⟨namesCores_of_accept haccept, ih h⟩

end Reading

/-! ## Cores that are granted -/

/-- The mask of a range has its numbers below 64. -/
theorem testBit_rangeMask_cut {low high : Nat} (hle : low ≤ high) (i : Nat) :
    (rangeMask low high).testBit i = true ↔ i < 64 ∧ low ≤ i ∧ i ≤ high := by
  have hmask : rangeMask low high = (2 ^ (high - low + 1) - 1) * 2 ^ low % 2 ^ 64 := rfl
  rw [hmask, Nat.testBit_mod_two_pow, Nat.testBit_mul_two_pow, Nat.testBit_two_pow_sub_one]
  simp only [Bool.and_eq_true, decide_eq_true_eq]
  omega

/-- The cores granted are those below 64 that a word is about. -/
theorem testBit_coreMask (h : parse words coreCount = .ok c) (core : Nat) :
    c.coreMask.testBit core = true ↔ core < 64 ∧ CoreNamed words core := by
  have hset := Reading.setting_of_run h
  have hmask {word : UInt32} (hword : word ∈ words) (hkind : HasKind word corePriorityKind) :
      c.coreMask.testBit core = true ↔ core < 64 ∧ minCoreOf word ≤ core ∧ core ≤ maxCoreOf word := by
    have hforce := hset.inForce_of_guarded hword (slotOf?_eq_corePriority_iff.2 hkind) rfl
    rw [Descriptor.ofWord_of_corePriority hkind] at hforce
    rw [hforce.2, testBit_rangeMask_cut (Reading.namesCores_of_run h word hword hkind).1.cores]
  by_cases hsome : ∃ word ∈ words, HasKind word corePriorityKind
  · obtain ⟨word, hword, hkind⟩ := hsome
    constructor
    · intro hcore
      have hrange := (hmask hword hkind).1 hcore
      exact ⟨hrange.1, word, hword, hkind, hrange.2⟩
    · rintro ⟨hlt, other, hother, hk, hrange⟩
      exact (hmask hother hk).2 ⟨hlt, hrange⟩
  · have hslot : Slot.corePriority ∉ slotsOf words := fun hm =>
      let ⟨word, hword, hs⟩ := mem_slotsOf.1 hm
      hsome ⟨word, hword, slotOf?_eq_corePriority_iff.1 hs⟩
    have hzero : c.coreMask = 0 := (hset.agree hslot).2.symm
    rw [hzero, Nat.zero_testBit]
    exact iff_of_false nofun fun ⟨_, word, hword, hkind, _⟩ => hsome ⟨word, hword, hkind⟩

end Capabilities

/-! ## The word of service hosts -/

namespace Capability

/-- The word of service hosts for two fields of cores that are in place. -/
def hostWord? (maxCore minCore : Nat) : Option UInt32 := do
  let cores ← sum? 32 maxCore minCore
  return UInt32.ofNat (← sum? 32 cores 0x63F7)

/-- The word of a host exists if the sum of its fields is a word. -/
theorem hostWord?_of_lt {maxCore minCore : Nat} (h : maxCore + minCore + 0x63F7 < widthLimit 32) :
    hostWord? maxCore minCore = some (UInt32.ofNat (maxCore + minCore + 0x63F7)) := by
  rw [hostWord?, sum?_eq (Nat.lt_of_le_of_lt (Nat.le_add_right _ _) h), Option.bind_eq_bind, Option.bind_some, sum?_eq h]
  rfl

/-- There is no word of a host for cores that do not fit into one. -/
theorem hostWord?_of_le {maxCore minCore : Nat} (h : widthLimit 32 ≤ maxCore + minCore) : hostWord? maxCore minCore = none := by
  rw [hostWord?, sum?, if_neg (Nat.not_lt.2 h)]
  rfl

/-- The word that pins a service host to the last core, by sums and shifts in a word. -/
def serviceCorePriorityInWords? (coreCount : UInt32) : Option UInt32 := do
  hostWord? (← shift? 32 (coreCount.toNat - 1) 24) (← shift? 32 (coreCount.toNat - 1) 16)

/-- The last core's number, as far as it fits two bytes, is the sum and the low byte of the word's cores. -/
theorem serviceCorePriority?_eq (coreCount : UInt32) : serviceCorePriority? coreCount =
    if (coreCount.toNat - 1) % 256 + (coreCount.toNat - 1) / 256 % 256 < 256 then
      some (UInt32.ofNat (((coreCount.toNat - 1) % 256 + (coreCount.toNat - 1) / 256 % 256) * 2 ^ 24 +
        (coreCount.toNat - 1) % 256 * 2 ^ 16 + 0x63F7))
    else none := by
  rw [serviceCorePriority?]
  generalize coreCount.toNat - 1 = last
  have hlimits : widthLimit 24 = 16777216 ∧ widthLimit 8 = 256 ∧ widthLimit 16 = 65536 ∧ widthLimit 32 = 4294967296 := by decide
  simp only [packFields, hlimits]
  have hsum : 0 % 16777216 + 16777216 * (last % 256 + 256 * 0) + (0 % 65536 + 65536 * (last % 65536 + 65536 * 0)) + 25591 =
      (last % 256 + last / 256 % 256) * 2 ^ 24 + last % 256 * 2 ^ 16 + 25591 := by omega
  rw [hsum]
  refine if_congr ?_ rfl rfl
  omega

/-- In the words of the program the same word comes out for a host, or none. -/
theorem serviceCorePriorityInWords?_eq (coreCount : UInt32) :
    serviceCorePriorityInWords? coreCount = serviceCorePriority? coreCount := by
  rw [serviceCorePriority?_eq, serviceCorePriorityInWords?, shift?_eq (by decide), shift?_eq (by decide), Option.bind_eq_bind,
    Option.bind_some, Option.bind_some]
  generalize coreCount.toNat - 1 = last
  have hlimits : widthLimit 24 = 16777216 ∧ widthLimit 16 = 65536 ∧ widthLimit 32 = 4294967296 := by decide
  have hsum : last * widthLimit 24 % widthLimit 32 + last * widthLimit 16 % widthLimit 32 =
      (last % 256 + last / 256 % 256) * 2 ^ 24 + last % 256 * 2 ^ 16 := by
    simp only [hlimits]
    omega
  split
  · next hlt =>
    rw [hostWord?_of_lt, hsum]
    rw [hsum, hlimits.2.2]
    omega
  · next hge =>
    rw [hostWord?_of_le]
    rw [hsum, hlimits.2.2]
    omega

/-- The fields of the word of service hosts. -/
theorem hostWord_fields {word : UInt32} {low high : Nat} (hlow : low < 256) (hhigh : high < 256)
    (h : word = UInt32.ofNat (high * 2 ^ 24 + low * 2 ^ 16 + 0x63F7)) :
    HasKind word corePriorityKind ∧ highestOf word = 24 ∧ lowestOf word = 63 ∧ minCoreOf word = low ∧ maxCoreOf word = high := by
  have hnat : word.toNat = high * 2 ^ 24 + low * 2 ^ 16 + 0x63F7 := by
    rw [h]
    refine UInt32.toNat_ofNat_of_lt ?_
    have hsize : UInt32.size = 4294967296 := rfl
    omega
  have hbits (place width : Nat) : bits word.toNat place width = (high * 2 ^ 24 + low * 2 ^ 16 + 0x63F7) / 2 ^ place % 2 ^ width := by
    rw [hnat]
    rfl
  have hones : widthLimit 3 = 8 := rfl
  refine ⟨hasKind_of_bits ?_, ?_, ?_, ?_, ?_⟩
  all_goals
    simp only [highestOf, lowestOf, minCoreOf, maxCoreOf, hones, corePriorityKind, hbits]
    omega

end Capability

namespace Capabilities

/-! ## How far a mask reaches -/

/-- On a machine with so many cores, no number leaves its word while the list is read, and the cores that it names are granted. -/
structure ReadsCores (coreCount : UInt32) (words : List UInt32) : Prop where
  ends : ∀ word, parseInWords words coreCount.toNat ≠ .error (.overflow word)
  cores : ∀ c, parseInWords words coreCount.toNat = .ok c → ∀ core, c.coreMask.testBit core = true ↔ CoreNamed words core

/-- The word of service hosts can be written, and is read as one that grants the last core only. -/
def PinsLast (coreCount : UInt32) : Prop :=
  ∃ word c, serviceCorePriorityInWords? coreCount = some word ∧ parseInWords [word] coreCount.toNat = .ok c ∧
    ∀ core, c.coreMask.testBit core = true ↔ core = coreCount.toNat - 1

variable {coreCount : UInt32}

/-- What is behind the mask is beyond the machine. -/
theorem readsCores_of_le (hcores : coreCount.toNat ≤ 64) (words : List UInt32) : ReadsCores coreCount words where
  ends word h := by
    rw [parseInWords_eq] at h
    obtain ⟨before, after, -, hstops⟩ := Reading.exists_stopsAt h
    have := hstops.behind
    have := hstops.names.cores
    have := hstops.names.machine
    omega
  cores c h core := by
    rw [parseInWords_eq] at h
    rw [testBit_coreMask h, and_iff_right_iff_imp]
    rintro ⟨word, hword, hkind, -, hmax⟩
    have := (Reading.namesCores_of_run h word hword hkind).1.machine
    omega

/-- Cores 64 to 64. -/
def farWord : UInt32 := 0x404063F7

/-- The fields of a word whose cores lie above all masks. -/
theorem farWord_fields : HasKind farWord corePriorityKind ∧ highestOf farWord = 24 ∧ lowestOf farWord = 63 ∧
    minCoreOf farWord = 64 ∧ maxCoreOf farWord = 64 := hostWord_fields (by decide) (by decide) rfl

/-- Where there are more than 64 cores, the reading of a list stops at a word that names a core above all masks. -/
theorem stopsAt_farWord {coreCount : Nat} (hcores : 64 < coreCount) : Reading.StopsAt coreCount {} [] farWord := by
  obtain ⟨hkind, hhighest, hlowest, hmin, hmax⟩ := farWord_fields
  exact ⟨⟨_, rfl⟩, rfl, by simp, ⟨hkind, by omega, by omega, by omega⟩, by omega⟩

/-- A machine with a core behind the mask has a word for which reading leaves the mask. -/
theorem le_of_readsCores (h : ReadsCores coreCount [farWord]) : coreCount.toNat ≤ 64 := by
  by_contra hmore
  refine h.ends farWord ?_
  rw [parseInWords_eq]
  exact (stopsAt_farWord (Nat.not_le.1 hmore)).run_eq []

/-- Up to 64 cores, a host is pinned to the last core. -/
theorem pinsLast_of_le (hone : 1 ≤ coreCount.toNat) (hcores : coreCount.toNat ≤ 64) : PinsLast coreCount := by
  have hlow : (coreCount.toNat - 1) % 256 = coreCount.toNat - 1 := Nat.mod_eq_of_lt (by omega)
  have hhigh : (coreCount.toNat - 1) / 256 % 256 = 0 := by omega
  have hwrite := serviceCorePriority?_eq coreCount
  rw [hlow, hhigh, Nat.add_zero, if_pos (by omega)] at hwrite
  obtain ⟨word, hword⟩ : ∃ word, word = UInt32.ofNat ((coreCount.toNat - 1) * 2 ^ 24 + (coreCount.toNat - 1) * 2 ^ 16 + 0x63F7) :=
    ⟨_, rfl⟩
  rw [← hword] at hwrite
  obtain ⟨hkind, hhighest, hlowest, hmin, hmax⟩ := hostWord_fields (by omega) (by omega) hword
  obtain ⟨c, hparse⟩ : ∃ c, parse [word] coreCount.toNat = .ok c := by
    rw [parse, Reading.run_cons (ne_mapRange_of_corePriority hkind), Reading.accept_cores hkind,
      if_neg Bool.false_ne_true, if_neg (by omega), if_neg (by omega), if_neg (by omega)]
    exact ⟨_, rfl⟩
  refine ⟨word, c, (serviceCorePriorityInWords?_eq _).trans hwrite, (parseInWords_eq _ _).trans hparse, fun core => ?_⟩
  rw [testBit_coreMask hparse]
  constructor
  · rintro ⟨-, other, hother, -, hrange⟩
    rw [List.mem_singleton.1 hother, hmin, hmax] at hrange
    omega
  · rintro rfl
    exact ⟨by omega, word, List.mem_singleton_self word, hkind, by omega, by omega⟩

/-- A host is pinned to the last core for no other numbers of cores. -/
theorem le_of_pinsLast (h : PinsLast coreCount) : 1 ≤ coreCount.toNat ∧ coreCount.toNat ≤ 64 := by
  obtain ⟨word, c, -, hparse, hlast⟩ := h
  rw [parseInWords_eq] at hparse
  obtain ⟨hlt, other, hother, hkind, -⟩ := (testBit_coreMask hparse _).1 ((hlast _).2 rfl)
  have := (Reading.namesCores_of_run hparse other hother hkind).1.machine
  omega

/-- Exactly on machines of up to 64 cores, no number leaves its word while a list is read, and the cores that it names are granted; and
exactly on those that have a core, the word of service hosts pins them to the last one. Whatever the number of cores, nothing but the
shift by the first core of a range leaves its word, and the cores granted are those below 64. -/
theorem overflow_free_iff (coreCount : UInt32) :
    ((∀ words, ReadsCores coreCount words) ↔ coreCount.toNat ≤ 64) ∧
    (PinsLast coreCount ↔ 1 ≤ coreCount.toNat ∧ coreCount.toNat ≤ 64) ∧
    ∀ words, (∀ word, parseInWords words coreCount.toNat = .error (.overflow word) ↔
        ∃ before after, words = before ++ word :: after ∧ Reading.StopsAt coreCount.toNat {} before word) ∧
      ∀ c, parseInWords words coreCount.toNat = .ok c → ∀ core, c.coreMask.testBit core = true ↔ core < 64 ∧ CoreNamed words core := by
  refine ⟨⟨fun h => le_of_readsCores (h _), readsCores_of_le⟩, ⟨le_of_pinsLast, fun h => pinsLast_of_le h.1 h.2⟩, fun words => ?_⟩
  rw [parseInWords_eq]
  refine ⟨fun word => ⟨Reading.exists_stopsAt, ?_⟩, fun c => testBit_coreMask⟩
  rintro ⟨before, after, rfl, hstops⟩
  exact hstops.run_eq after

/-- The first machine that is too large reads cores 0 to 64 and grants the first 64. -/
theorem overflow_free_iff_sixtyFive : ¬(∀ words, ReadsCores 65 words) ∧ ¬PinsLast 65 ∧
    ∃ c, parseInWords [0x400063F7] (65 : UInt32).toNat = .ok c ∧ c.coreMask.testBit 63 = true ∧ c.coreMask.testBit 64 = false := by
  obtain ⟨hreads, hpins, hlists⟩ := overflow_free_iff 65
  obtain ⟨c, hc⟩ : ∃ c, parseInWords [0x400063F7] (65 : UInt32).toNat = .ok c := ⟨_, rfl⟩
  have hcores := (hlists [0x400063F7]).2 c hc
  refine ⟨mt hreads.1 (by decide), mt hpins.1 (by decide), c, hc, (hcores 63).2 ⟨by decide, ?_⟩, ?_⟩
  · exact ⟨0x400063F7, List.mem_singleton_self _, hasKind_iff.2 (by decide), by decide, by decide⟩
  · rw [← Bool.not_eq_true, hcores]
    exact fun h => absurd h.1 (by decide)

/-- Core 64 alone leaves the mask, cores 0 to 64 lose the last one, the word for the last of 257 cores is about cores 0 and 1, and that
for the last of 512 leaves its own word. -/
theorem overflow_free_false : ¬ReadsCores 65 [farWord] ∧ ¬ReadsCores 65 [0x400063F7] ∧ ¬PinsLast 257 ∧
    serviceCorePriorityInWords? 512 = none ∧
    ¬∀ coreCount : UInt32, (∀ words, ReadsCores coreCount words) ∧ (1 ≤ coreCount.toNat → PinsLast coreCount) := by
  have hfar : ¬ReadsCores 65 [farWord] := fun h => absurd (le_of_readsCores h) (by decide)
  refine ⟨hfar, fun h => ?_, fun h => absurd (le_of_pinsLast h).2 (by decide), by decide, fun h => hfar ((h 65).1 _)⟩
  have hcore := (h.cores _ rfl 64).2 ⟨0x400063F7, List.mem_singleton_self _, hasKind_iff.2 (by decide), by decide, by decide⟩
  exact absurd hcore (by decide)

end Capabilities

end Microkernel
