import Mathlib.Data.List.Nodup
import Microkernel.Proofs.Capability.Grammar

/-!
# Slots that are set twice

A word of a list sets a slot: the calls of one group, the cores and priorities, or one of the single values. Reading refuses a second
word for a slot, whatever stands between the two, except for the program type and the debug flags: there the later word replaces the
earlier one. `slots_once_iff` says when no slot is set twice and when every word of a list that was read is still in force.
-/

namespace Microkernel

namespace Capability

/-- What a word can set. -/
inductive Slot
  | corePriority
  | calls (group : Nat)
  | programType
  | kernelVersion
  | handleTableSize
  | debugFlags
  deriving DecidableEq

namespace Slot

/-- A second word for the slot is refused. -/
def isGuarded : Slot → Bool
  | programType | debugFlags => false
  | _ => true

/-- Two slots are set without a look at whether they are taken. -/
theorem isGuarded_eq_false_iff {slot : Slot} : slot.isGuarded = false ↔ slot ∈ [programType, debugFlags] := by
  cases slot <;> simp [isGuarded]

/-- The capabilities say the same about the slot. -/
def Agree (c c' : Capabilities) : Slot → Prop
  | corePriority => c.priorityMask = c'.priorityMask ∧ c.coreMask = c'.coreMask
  | calls group => ∀ id, id / callsPerDescriptor = group → c.allowsCall id = c'.allowsCall id
  | programType => c.programType = c'.programType
  | kernelVersion => c.kernelRelease = c'.kernelRelease
  | handleTableSize => c.handleTableSize = c'.handleTableSize
  | debugFlags => c.debugFlags = c'.debugFlags

/-- What was granted agrees with itself. -/
theorem Agree.refl (c : Capabilities) (slot : Slot) : slot.Agree c c := by
  cases slot <;> simp [Agree]

/-- Agreement on a slot is passed on. -/
theorem Agree.trans {c c' c'' : Capabilities} {slot : Slot} (h : slot.Agree c c') (h' : slot.Agree c' c'') : slot.Agree c c'' := by
  cases slot with
  | corePriority => exact ⟨h.1.trans h'.1, h.2.trans h'.2⟩
  | calls group => exact fun id hid => (h id hid).trans (h' id hid)
  | programType | kernelVersion | handleTableSize | debugFlags => exact Eq.trans h h'

end Slot

/-- The slot that a word sets. Ranges, pages, regions, interrupt pairs and padding set none. -/
def Descriptor.slot? : Descriptor → Option Slot
  | corePriority .. => some .corePriority
  | callMask index _ => some (.calls index)
  | programType _ => some .programType
  | kernelVersion _ => some .kernelVersion
  | handleTableSize _ => some .handleTableSize
  | debugFlags _ => some .debugFlags
  | mapRange | inert | unknown => none

def slotOf? (word : UInt32) : Option Slot := (Descriptor.ofWord word).slot?

/-- The slots that a list sets, once for each word that does. -/
def slotsOf (words : List UInt32) : List Slot := words.filterMap slotOf?

/-- The slots of a list are those of its words. -/
theorem mem_slotsOf {words : List UInt32} {slot : Slot} : slot ∈ slotsOf words ↔ ∃ word ∈ words, slotOf? word = some slot :=
  List.mem_filterMap

/-- A slot of a list is that of its first word or one of the rest. -/
theorem mem_slotsOf_cons {word : UInt32} {rest : List UInt32} {slot : Slot} :
    slot ∈ slotsOf (word :: rest) ↔ slotOf? word = some slot ∨ slot ∈ slotsOf rest := by
  simp [mem_slotsOf]

/-- The first word of a list adds one to the count of its own slot, and to no other. -/
theorem count_slotsOf_cons (word : UInt32) (rest : List UInt32) (slot : Slot) :
    (slotsOf (word :: rest)).count slot = (slotsOf rest).count slot + if slotOf? word = some slot then 1 else 0 := by
  cases hw : slotOf? word with
  | none => simp [slotsOf, hw]
  | some set => simp [slotsOf, hw, List.count_cons]

/-- A slot that is set has a last word. -/
theorem exists_last_of_mem_slotsOf {words : List UInt32} {slot : Slot} (h : slot ∈ slotsOf words) :
    ∃ before last after, words = before ++ last :: after ∧ slotOf? last = some slot ∧ slot ∉ slotsOf after := by
  induction words with
  | nil => cases h
  | cons word rest ih =>
    by_cases hrest : slot ∈ slotsOf rest
    · obtain ⟨before, last, after, rfl, hlast, hafter⟩ := ih hrest
      exact ⟨word :: before, last, after, rfl, hlast, hafter⟩
    · exact ⟨[], word, rest, rfl, (mem_slotsOf_cons.1 h).resolve_right hrest, hrest⟩

end Capability

open Capability

namespace Capabilities

/-- What the word says is granted. -/
def InForce (c : Capabilities) : Descriptor → Prop
  | .corePriority lowest highest minCore maxCore =>
    c.priorityMask = rangeMask highest lowest ∧ c.coreMask = rangeMask minCore maxCore
  | .callMask index calls => ∀ id ∈ callsOf index calls, c.allowsCall id = true
  | .programType value => c.programType = value
  | .kernelVersion value => c.kernelRelease = some value
  | .handleTableSize size => c.handleTableSize = some size
  | .debugFlags flags => c.debugFlags = flags
  | .mapRange | .inert | .unknown => True

/-- Whether a word is in force depends on its slot alone. -/
theorem InForce.of_agree {c c' : Capabilities} {d : Descriptor} (h : c.InForce d) (ha : ∀ slot ∈ d.slot?, slot.Agree c c') :
    c'.InForce d := by
  cases d with
  | corePriority lowest highest minCore maxCore =>
    obtain ⟨hp, hc⟩ := ha _ rfl
    exact ⟨hp ▸ h.1, hc ▸ h.2⟩
  | callMask index calls =>
    intro id hid
    rw [← ha _ rfl id ((mem_callsOf index calls id).1 hid).1]
    exact h id hid
  | programType | kernelVersion | handleTableSize | debugFlags => exact (ha _ rfl).symm.trans h
  | mapRange | inert | unknown => trivial

/-- A descriptor without a slot is in force whatever was granted. -/
theorem inForce_of_slot?_eq_none (c : Capabilities) {d : Descriptor} (h : d.slot? = none) : c.InForce d := by
  cases d with
  | mapRange | inert | unknown => trivial
  | _ => cases h

/-- Two words for a slot that is not guarded are in force together only if they say the same. -/
theorem InForce.eq {c : Capabilities} {d d' : Descriptor} (h : c.InForce d) (h' : c.InForce d') {slot : Slot}
    (hd : d.slot? = some slot) (hd' : d'.slot? = some slot) (hslot : slot.isGuarded = false) : d = d' := by
  cases slot with
  | programType =>
    cases d <;> cases hd
    cases d' <;> cases hd'
    exact congrArg Descriptor.programType (Eq.trans (Eq.symm h) h')
  | debugFlags =>
    cases d <;> cases hd
    cases d' <;> cases hd'
    exact congrArg Descriptor.debugFlags (Eq.trans (Eq.symm h) h')
  | corePriority | calls | kernelVersion | handleTableSize => cases hslot

namespace Reading

variable {coreCount : Nat} {r r' : Reading} {word : UInt32} {d : Descriptor} {c : Capabilities}

/-- The slot counts as taken. -/
def Taken (r : Reading) : Slot → Prop
  | .corePriority => r.corePrioritySeen = true
  | .calls group => group ∈ r.masksSeen
  | .kernelVersion => r.granted.kernelRelease.isSome = true
  | .handleTableSize => r.granted.handleTableSize.isSome = true
  | .programType | .debugFlags => False

/-- What taking a word does: its slot was not taken and, if it is guarded, is so now; the word is in force, and of the other slots
nothing has changed. -/
structure Sets (r : Reading) (d : Descriptor) (r' : Reading) : Prop where
  free : ∀ slot ∈ d.slot?, ¬r.Taken slot
  taken : ∀ slot, r'.Taken slot ↔ r.Taken slot ∨ d.slot? = some slot ∧ slot.isGuarded = true
  inForce : r'.granted.InForce d
  others : ∀ slot, d.slot? ≠ some slot → slot.Agree r.granted r'.granted

/-- A word without a slot sets nothing. -/
theorem sets_nothing (r : Reading) (h : d.slot? = none) : r.Sets d r where
  free slot hslot := by
    rw [h] at hslot
    cases hslot
  taken slot := by simp [h]
  inForce := inForce_of_slot?_eq_none _ h
  others slot _ := Slot.Agree.refl _ slot

/-- Only guarded slots are taken. -/
theorem isGuarded_of_taken {slot : Slot} (h : r.Taken slot) : slot.isGuarded = true := by
  cases slot with
  | programType | debugFlags => exact h.elim
  | corePriority | calls | kernelVersion | handleTableSize => rfl

/-- A word sets its slot if that was free and nothing of the others is touched. -/
theorem sets_of_slot {slot : Slot} (hslot : d.slot? = some slot) (hfree : ¬r.Taken slot)
    (htaken : slot.isGuarded = true → r'.Taken slot) (hforce : r'.granted.InForce d)
    (hothers : ∀ other ≠ slot, (r'.Taken other ↔ r.Taken other) ∧ other.Agree r.granted r'.granted) : r.Sets d r' where
  free set hset := Option.some.inj (hslot.symm.trans hset) ▸ hfree
  taken other := by
    rw [hslot, Option.some.injEq]
    by_cases ho : other = slot
    · subst ho
      constructor
      · exact fun h => .inr ⟨rfl, isGuarded_of_taken h⟩
      · rintro (h | ⟨-, hguarded⟩)
        · exact absurd h hfree
        · exact htaken hguarded
    · rw [(hothers other ho).1, or_iff_left]
      exact fun h => ho h.1.symm
  inForce := hforce
  others other hne := (hothers other fun ho => hne (hslot.trans (congrArg some ho.symm))).2

/-- Accepting a call mask sets the calls of its group and leaves the other slots. -/
theorem sets_callMask {index calls : Nat} (h : r.accept coreCount word (.callMask index calls) = .ok r') :
    r.Sets (.callMask index calls) r' := by
  rw [accept] at h
  split at h
  · cases h
  next hseen =>
  split at h
  · cases h
  next hall =>
  cases h
  refine sets_of_slot rfl (fun hm => hseen (List.contains_iff_mem.2 hm)) (fun _ => List.mem_cons_self) ?inForce ?others
  case inForce =>
    intro id hid
    have hlt : id < supervisorCallCount := by
      by_contra hge
      exact hall (List.any_eq_true.2 ⟨id, hid, decide_eq_true (Nat.not_lt.1 hge)⟩)
    exact (CallMask.contains_insertAll _ _ _).2 (.inr ⟨hid, hlt⟩)
  case others =>
    intro other hne
    cases other with
    | calls group =>
      have hgroup : group ≠ index := fun he => hne (congrArg Slot.calls he)
      refine ⟨by simp [Taken, hgroup], fun id hid => ?_⟩
      rw [Bool.eq_iff_iff, allowsCall, allowsCall, CallMask.contains_insertAll, or_iff_left]
      exact fun hm => hgroup (hid.symm.trans ((mem_callsOf index calls id).1 hm.1).1)
    | _ => simp [Taken, Slot.Agree]

/-- Accepting any descriptor sets its own slot and leaves the others. -/
theorem sets_of_accept (h : r.accept coreCount word d = .ok r') : r.Sets d r' := by
  cases d with
  | callMask index calls => exact sets_callMask h
  | mapRange | unknown => cases h
  | inert =>
    cases h
    exact sets_nothing r rfl
  | corePriority lowest highest minCore maxCore =>
    rw [accept] at h
    split_ifs at h with hseen
    cases h
    refine sets_of_slot rfl hseen (fun _ => rfl) ⟨rfl, rfl⟩ fun other hne => ?_
    cases other <;> simp_all [Taken, Slot.Agree, allowsCall]
  | kernelVersion value | handleTableSize value =>
    rw [accept] at h
    split_ifs at h with hset
    cases h
    refine sets_of_slot rfl hset (fun _ => rfl) rfl fun other hne => ?_
    cases other <;> simp_all [Taken, Slot.Agree, allowsCall]
  | programType value | debugFlags value =>
    cases h
    refine sets_of_slot rfl id (fun h => absurd h (by decide)) rfl fun other hne => ?_
    cases other <;> simp_all [Taken, Slot.Agree, allowsCall]

/-- Words are read one after the other, each setting its slot. -/
inductive Setting : Reading → List UInt32 → Capabilities → Prop
  | nil (r : Reading) : Setting r [] r.granted
  | cons {r r' : Reading} {word : UInt32} {rest : List UInt32} {c : Capabilities} (first : r.Sets (Descriptor.ofWord word) r')
      (behind : Setting r' rest c) : Setting r (word :: rest) c

/-- What is read is set; the words of a range set nothing. -/
theorem setting_of_run {words : List UInt32} (h : run coreCount r words = .ok c) : Setting r words c := by
  fun_induction run coreCount r words with
  | case1 r =>
    cases h
    exact .nil r
  | case2 r word next rest hw hn ih =>
    exact .cons (sets_nothing r (by rw [hw]; rfl)) (.cons (sets_nothing r (by rw [hn]; rfl)) (ih h))
  | case3 | case4 | case6 => cases h
  | case5 r word rest r' hpair hlast haccept ih => exact .cons (sets_of_accept haccept) (ih h)

namespace Setting

variable {words : List UInt32}

/-- A slot that no word sets stays as it was. -/
theorem agree (h : Setting r words c) {slot : Slot} (hs : slot ∉ slotsOf words) : slot.Agree r.granted c := by
  induction h with
  | nil r => exact Slot.Agree.refl _ slot
  | cons first behind ih =>
    rw [mem_slotsOf_cons, not_or] at hs
    exact (first.others slot hs.1).trans (ih hs.2)

/-- A slot that was taken is not set. -/
theorem not_mem_of_taken (h : Setting r words c) {slot : Slot} (ht : r.Taken slot) : slot ∉ slotsOf words := by
  induction h with
  | nil r => exact List.not_mem_nil
  | cons first behind ih =>
    rw [mem_slotsOf_cons, not_or]
    exact ⟨fun hword => first.free slot hword ht, ih ((first.taken slot).2 (.inl ht))⟩

/-- The words behind one that sets a guarded slot set others. -/
theorem not_mem_of_guarded {word : UInt32} {before after : List UInt32} (h : Setting r (before ++ word :: after) c) {slot : Slot}
    (hword : slotOf? word = some slot) (hguarded : slot.isGuarded = true) : slot ∉ slotsOf after := by
  induction before generalizing r with
  | nil =>
    cases h with
    | cons first behind => exact behind.not_mem_of_taken ((first.taken slot).2 (.inr ⟨hword, hguarded⟩))
  | cons other before ih =>
    cases h with
    | cons first behind => exact ih behind

/-- No guarded slot is set twice. -/
theorem count_le_one (h : Setting r words c) {slot : Slot} (hguarded : slot.isGuarded = true) : (slotsOf words).count slot ≤ 1 := by
  induction h with
  | nil r => simp [slotsOf]
  | cons first behind ih =>
    rw [count_slotsOf_cons]
    split
    · next hword =>
      have hrest := behind.not_mem_of_taken ((first.taken slot).2 (.inr ⟨hword, hguarded⟩))
      have hzero : (slotsOf _).count slot = 0 := List.count_eq_zero_of_not_mem hrest
      omega
    · exact ih

/-- The last word that sets a slot is in force. -/
theorem inForce_last {word : UInt32} {before after : List UInt32} (h : Setting r (before ++ word :: after) c)
    (hlast : ∀ slot ∈ slotOf? word, slot ∉ slotsOf after) : c.InForce (Descriptor.ofWord word) := by
  induction before generalizing r with
  | nil =>
    cases h with
    | cons first behind => exact first.inForce.of_agree fun slot hslot => behind.agree (hlast slot hslot)
  | cons other before ih =>
    cases h with
    | cons first behind => exact ih behind

/-- A word that sets a guarded slot is in force. -/
theorem inForce_of_guarded {word : UInt32} (h : Setting r words c) (hword : word ∈ words) {slot : Slot}
    (hw : slotOf? word = some slot) (hguarded : slot.isGuarded = true) : c.InForce (Descriptor.ofWord word) := by
  obtain ⟨before, after, rfl⟩ := List.append_of_mem hword
  refine h.inForce_last fun set hs => ?_
  obtain rfl := Option.some.inj (hw.symm.trans hs)
  exact h.not_mem_of_guarded hw hguarded

/-- A list that was read names no slot twice exactly if it names each of the two unguarded ones once at most. -/
theorem nodup_iff (h : Setting r words c) :
    (slotsOf words).Nodup ↔ (slotsOf words).count .programType ≤ 1 ∧ (slotsOf words).count .debugFlags ≤ 1 := by
  rw [List.nodup_iff_count_le_one]
  constructor
  · exact fun hall => ⟨hall _, hall _⟩
  · rintro ⟨hprogram, hdebug⟩ slot
    cases slot with
    | programType => exact hprogram
    | debugFlags => exact hdebug
    | corePriority | calls | kernelVersion | handleTableSize => exact h.count_le_one rfl

/-- Every word is in force exactly if words for the same unguarded slot say the same. -/
theorem inForce_iff (h : Setting r words c) : (∀ word ∈ words, c.InForce (Descriptor.ofWord word)) ↔
    ∀ slot ∈ [Slot.programType, .debugFlags], ∀ word ∈ words, ∀ other ∈ words,
      slotOf? word = some slot → slotOf? other = some slot → Descriptor.ofWord word = Descriptor.ofWord other := by
  constructor
  · intro hall slot hslot word hword other hother hw ho
    exact (hall word hword).eq (hall other hother) hw ho (Slot.isGuarded_eq_false_iff.2 hslot)
  · intro hsame word hword
    cases hw : slotOf? word with
    | none => exact inForce_of_slot?_eq_none c hw
    | some slot =>
      cases hg : slot.isGuarded with
      | true => exact h.inForce_of_guarded hword hw hg
      | false =>
        -- the last word of the slot is in force, and it says what this one says
        obtain ⟨before, last, after, rfl, hlast, hafter⟩ := exists_last_of_mem_slotsOf (mem_slotsOf.2 ⟨word, hword, hw⟩)
        rw [hsame slot (Slot.isGuarded_eq_false_iff.1 hg) word hword last (by simp) hw hlast]
        refine h.inForce_last fun set hs => ?_
        obtain rfl := Option.some.inj (hlast.symm.trans hs)
        exact hafter

end Setting

end Reading

/-- A list was read. No slot is set twice in it unless the program type or the debug flags are; and every word is in force, unless
two words say different things about the program type or about the debug flags. -/
theorem slots_once_iff {words : List UInt32} {coreCount : Nat} {c : Capabilities} (h : parse words coreCount = .ok c) :
    ((slotsOf words).Nodup ↔ (slotsOf words).count .programType ≤ 1 ∧ (slotsOf words).count .debugFlags ≤ 1) ∧
    ((∀ word ∈ words, c.InForce (Descriptor.ofWord word)) ↔
      ∀ slot ∈ [Slot.programType, .debugFlags], ∀ word ∈ words, ∀ other ∈ words,
        slotOf? word = some slot → slotOf? other = some slot → Descriptor.ofWord word = Descriptor.ofWord other) := by
  have hset := Reading.setting_of_run h
  exact ⟨hset.nodup_iff, hset.inForce_iff⟩

/-- A program type given twice, to the same effect. -/
theorem slots_once_iff_agreeing :
    ∃ c, parse [0x5FFF, 0x5FFF] 4 = .ok c ∧ ¬(slotsOf [0x5FFF, 0x5FFF]).Nodup ∧
      ∀ word ∈ [0x5FFF, 0x5FFF], c.InForce (Descriptor.ofWord word) := by
  obtain ⟨c, hc⟩ : ∃ c, parse [0x5FFF, 0x5FFF] 4 = .ok c := ⟨_, rfl⟩
  obtain ⟨honce, hforce⟩ := slots_once_iff hc
  refine ⟨c, hc, fun h => absurd (honce.1 h).1 (by decide), hforce.2 fun slot _ word hword other hother _ _ => ?_⟩
  obtain rfl : word = 0x5FFF := by simpa using hword
  obtain rfl : other = 0x5FFF := by simpa using hother
  rfl

/-- A list may set the program type twice: the second word then replaces the first. -/
theorem slots_once_false :
    ¬∀ (words : List UInt32) (coreCount : Nat) (c : Capabilities), parse words coreCount = .ok c →
      (slotsOf words).Nodup ∧ ∀ word ∈ words, c.InForce (Descriptor.ofWord word) := by
  intro hall
  exact absurd (hall [0x5FFF, 0x9FFF] 4 _ rfl).1 (by decide)

end Capabilities

end Microkernel
