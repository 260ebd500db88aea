import Mathlib.Data.List.Induction
import Microkernel.Proofs.Capability.Words

/-!
# The grammar of capability lists

Which lists of words are capabilities and what they grant is said here over the list as a whole: what is asked of every word (`Fits`),
of every two words (`Apart`) and of the runs of range words (`EvenRuns`). Reading a list word by word accepts exactly the lists of
the grammar and grants exactly what they name (`parse_exact`).
-/

namespace Microkernel

namespace Capability

/-! ## Lists -/

def lowestOf (word : UInt32) : Nat := bits word.toNat 4 6
def highestOf (word : UInt32) : Nat := bits word.toNat 10 6
def minCoreOf (word : UInt32) : Nat := bits word.toNat 16 8
def maxCoreOf (word : UInt32) : Nat := bits word.toNat 24 8

/-- The kinds that a word of a list may have. -/
def knownKinds : List Nat :=
  [corePriorityKind, callMaskKind, mapRangeKind, mapPageKind, mapRegionKind, interruptPairKind, programTypeKind, kernelVersionKind,
    handleTableSizeKind, debugFlagsKind, paddingKind]

/-- The kinds of which a list has one word at most. -/
def singleKinds : List Nat := [corePriorityKind, kernelVersionKind, handleTableSizeKind]

/-- What is asked of a word by itself. -/
structure Fits (coreCount : Nat) (word : UInt32) : Prop where
  known : ∃ kind ∈ knownKinds, HasKind word kind
  corePriority : HasKind word corePriorityKind →
    highestOf word ≤ lowestOf word ∧ minCoreOf word ≤ maxCoreOf word ∧ maxCoreOf word < coreCount
  calls : ∀ id, Names word id → id < supervisorCallCount

/-- What is asked of two words. -/
structure Apart (word other : UInt32) : Prop where
  single : ∀ kind ∈ singleKinds, HasKind word kind → ¬HasKind other kind
  masks : HasKind word callMaskKind → HasKind other callMaskKind → groupOf word ≠ groupOf other

/-- Two words that may stand in one list may do so in either order. -/
theorem Apart.symm {word other : UInt32} (h : Apart word other) : Apart other word :=
  ⟨fun kind hs hw ho => h.single kind hs ho hw, fun hw ho he => h.masks ho hw he.symm⟩

/-- A run of range words that has no range word before it and none behind it has an even length. -/
def EvenRuns (words : List UInt32) : Prop :=
  ∀ before run after, words = before ++ run ++ after → (∀ word ∈ run, HasKind word mapRangeKind) →
    (∀ word ∈ before.getLast?, ¬HasKind word mapRangeKind) → (∀ word ∈ after.head?, ¬HasKind word mapRangeKind) →
    run.length % 2 = 0

/-- The list is one of capabilities for a machine with so many cores. -/
structure WellFormed (coreCount : Nat) (words : List UInt32) : Prop where
  fits : ∀ word ∈ words, Fits coreCount word
  apart : words.Pairwise Apart
  runs : EvenRuns words

/-- The value is read from the last word of a kind, and is the default one if there is no such word. -/
structure LastSets {α : Type} (kind : Nat) (read : UInt32 → α) (default : α) (words : List UInt32) (a : α) : Prop where
  last : ∀ before word after, words = before ++ word :: after → HasKind word kind → (∀ w ∈ after, ¬HasKind w kind) → a = read word
  unset : (∀ word ∈ words, ¬HasKind word kind) → a = default

/-- The capabilities are what the list names. -/
structure Grants (words : List UInt32) (c : Capabilities) : Prop where
  calls : ∀ id, c.allowsCall id = true ↔ ∃ word ∈ words, Names word id
  priorities : ∀ p, c.allowsPriority p = true ↔
    ∃ word ∈ words, HasKind word corePriorityKind ∧ highestOf word ≤ p ∧ p ≤ lowestOf word
  cores : ∀ core, c.coreMask.testBit core = true ↔
    ∃ word ∈ words, HasKind word corePriorityKind ∧ minCoreOf word ≤ core ∧ core ≤ maxCoreOf word
  programType : LastSets programTypeKind (bits ·.toNat 14 3) 0 words c.programType
  kernelRelease : LastSets kernelVersionKind (some <| bits ·.toNat 15 17) none words c.kernelRelease
  handleTableSize : LastSets handleTableSizeKind (some <| bits ·.toNat 16 10) none words c.handleTableSize
  debugFlags : LastSets debugFlagsKind (bits ·.toNat 17 2) 0 words c.debugFlags

/-! ### Runs of range words -/

section Runs

variable {word next : UInt32} {rest : List UInt32}

/-- A list without words has an even number of words in every run. -/
theorem evenRuns_nil : EvenRuns [] := by
  intro before run after h _ _ _
  obtain ⟨h, -⟩ := List.append_eq_nil_iff.1 h.symm
  rw [(List.append_eq_nil_iff.1 h).2]
  rfl

/-- A word of another kind is in no run. -/
theorem evenRuns_cons (h : ¬HasKind word mapRangeKind) : EvenRuns (word :: rest) ↔ EvenRuns rest := by
  constructor
  · rintro he before run after rfl hrun hbefore hafter
    refine he (word :: before) run after rfl hrun (fun w hw => ?_) hafter
    cases before with
    | nil =>
      obtain rfl : word = w := Option.some.inj hw
      exact h
    | cons v before =>
      rw [List.getLast?_cons_cons] at hw
      exact hbefore w hw
  · rintro he before run after heq hrun hbefore hafter
    match before, run with
    | [], [] => rfl
    | [], v :: run =>
      simp only [List.nil_append, List.cons_append, List.cons.injEq] at heq
      exact absurd (heq.1 ▸ hrun v List.mem_cons_self) h
    | v :: before, run =>
      simp only [List.cons_append, List.cons.injEq] at heq
      refine he before run after heq.2 hrun (fun w hw => hbefore w ?_) hafter
      cases before with
      | nil => cases hw
      | cons u before => rwa [List.getLast?_cons_cons]

/-- Two range words are taken off a run at once. -/
theorem evenRuns_cons_cons (hw : HasKind word mapRangeKind) (hn : HasKind next mapRangeKind) :
    EvenRuns (word :: next :: rest) ↔ EvenRuns rest := by
  constructor
  · rintro he before run after rfl hrun hbefore hafter
    cases before with
    | nil =>
      have h := he [] (word :: next :: run) after rfl (by simpa [hw, hn] using hrun) (fun _ h => nomatch h) hafter
      simp only [List.length_cons] at h
      omega
    | cons v before =>
      refine he (word :: next :: v :: before) run after rfl hrun (fun w h => hbefore w ?_) hafter
      rwa [List.getLast?_cons_cons, List.getLast?_cons_cons] at h
  · rintro he before run after heq hrun hbefore hafter
    match before, run with
    | [], [] => rfl
    | [], [v] =>
      simp only [List.nil_append, List.cons_append, List.cons.injEq] at heq
      exact absurd hn (hafter next (by rw [← heq.2]; rfl))
    | [], v :: u :: run =>
      simp only [List.nil_append, List.cons_append, List.cons.injEq] at heq
      have h := he [] run after heq.2.2 (fun w hm => hrun w (List.mem_cons_of_mem _ (List.mem_cons_of_mem _ hm)))
        (fun _ h => nomatch h) hafter
      simp only [List.length_cons]
      omega
    | [v], run =>
      simp only [List.cons_append, List.cons.injEq] at heq
      exact absurd (heq.1 ▸ hw) (hbefore v rfl)
    | v :: u :: before, run =>
      simp only [List.cons_append, List.cons.injEq] at heq
      obtain ⟨-, rfl, heq⟩ := heq
      refine he before run after heq hrun (fun w h => ?_) hafter
      cases before with
      | nil => cases h
      | cons t before =>
        refine hbefore w ?_
        rwa [List.getLast?_cons_cons, List.getLast?_cons_cons]

/-- A range word that no other stands behind is a run by itself. -/
theorem not_evenRuns (hw : HasKind word mapRangeKind) (hrest : ∀ next ∈ rest.head?, ¬HasKind next mapRangeKind) :
    ¬EvenRuns (word :: rest) := by
  intro he
  have h := he [] [word] rest rfl (by simpa using hw) (fun _ h => nomatch h) hrest
  simp at h

end Runs

/-! ### One word more -/

section

variable {words : List UInt32} {word : UInt32}

/-- A longer list has a word with a property if its last word has it or one before. -/
theorem exists_mem_concat {P : UInt32 → Prop} : (∃ w ∈ words ++ [word], P w) ↔ (∃ w ∈ words, P w) ∨ P word := by
  simp only [List.mem_append, List.mem_singleton, or_and_right, exists_or, exists_eq_left]

/-- A word of a list with one more at its end is the last one, or one of the rest. -/
theorem concat_eq_append_cons {before after : List UInt32} {v : UInt32} (h : words ++ [word] = before ++ v :: after) :
    after = [] ∧ v = word ∨ ∃ rest, after = rest ++ [word] ∧ words = before ++ v :: rest := by
  rcases List.eq_nil_or_concat after with rfl | ⟨rest, w, rfl⟩
  · exact .inl ⟨rfl, (List.singleton_inj.1 (List.append_inj' h rfl).2).symm⟩
  · rw [List.concat_eq_append, ← List.cons_append, ← List.append_assoc] at h
    obtain ⟨hwords, hword⟩ := List.append_inj' h rfl
    exact .inr ⟨rest, by rw [List.concat_eq_append, hword], hwords⟩

/-- The last word of a kind is the new word if it is of that kind, and otherwise the last one before. -/
theorem lastSets_concat {α : Type} {kind : Nat} {read : UInt32 → α} {default a : α} :
    LastSets kind read default (words ++ [word]) a ↔
      if kindOf word = kind then a = read word else LastSets kind read default words a := by
  split
  · next h =>
    rw [← hasKind_iff] at h
    constructor
    · exact fun hs => hs.last words word [] rfl h fun _ h => nomatch h
    · rintro rfl
      refine ⟨fun before v after heq hv hafter => ?_, fun hn => absurd h (hn word (by simp))⟩
      rcases concat_eq_append_cons heq with ⟨-, rfl⟩ | ⟨rest, rfl, -⟩
      · rfl
      · exact absurd h (hafter word (by simp))
  · next h =>
    rw [← hasKind_iff] at h
    constructor
    · refine fun hs => ⟨?_, fun hn => hs.unset ?_⟩
      · rintro before v after rfl hv hafter
        refine hs.last before v (after ++ [word]) (by simp) hv fun w hw => ?_
        rcases List.mem_append.1 hw with hw | hw
        · exact hafter w hw
        · rwa [List.mem_singleton.1 hw]
      · intro w hw
        rcases List.mem_append.1 hw with hw | hw
        · exact hn w hw
        · rwa [List.mem_singleton.1 hw]
    · refine fun hs => ⟨fun before v after heq hv hafter => ?_, fun hn => hs.unset fun w hw => hn w (List.mem_append_left _ hw)⟩
      rcases concat_eq_append_cons heq with ⟨-, rfl⟩ | ⟨rest, rfl, rfl⟩
      · exact absurd hv h
      · exact hs.last before v rest rfl hv fun w hw => hafter w (List.mem_append_left _ hw)

/-- An optional field is set exactly if the list has a word that sets it. -/
theorem LastSets.isSome_iff {α : Type} {kind : Nat} {read : UInt32 → α} {a : Option α}
    (h : LastSets kind (fun word => some (read word)) none words a) : a.isSome = true ↔ ∃ w ∈ words, HasKind w kind := by
  induction words using List.reverseRecOn with
  | nil => simp [h.unset]
  | append_singleton rest w ih =>
    rw [exists_mem_concat, hasKind_iff]
    rw [lastSets_concat] at h
    split at h
    · next hw => simp [h, hw]
    · next hw => simp [ih h, hw]

end

/-! ### Kinds -/

section Kinds

variable {coreCount kind : Nat} {word : UInt32} {seen : List UInt32}

/-- A word says what its kind lets it say. -/
theorem Descriptor.ofWord_cases (word : UInt32) :
    kindOf word = corePriorityKind ∧
      ofWord word = .corePriority (lowestOf word) (highestOf word) (minCoreOf word) (maxCoreOf word) ∨
    kindOf word = callMaskKind ∧ ofWord word = .callMask (groupOf word) (bits word.toNat 5 callsPerDescriptor) ∨
    kindOf word = mapRangeKind ∧ ofWord word = .mapRange ∨
    kindOf word ∈ [mapPageKind, mapRegionKind, interruptPairKind, paddingKind] ∧ ofWord word = .inert ∨
    kindOf word = programTypeKind ∧ ofWord word = .programType (bits word.toNat 14 3) ∨
    kindOf word = kernelVersionKind ∧ ofWord word = .kernelVersion (bits word.toNat 15 17) ∨
    kindOf word = handleTableSizeKind ∧ ofWord word = .handleTableSize (bits word.toNat 16 10) ∨
    kindOf word = debugFlagsKind ∧ ofWord word = .debugFlags (bits word.toNat 17 2) ∨
    kindOf word ∉ knownKinds ∧ ofWord word = .unknown := by
  unfold ofWord
  dsimp only
  split
  · next h => exact .inl ⟨h, rfl⟩
  split
  · next h => exact .inr (.inl ⟨h, rfl⟩)
  split
  · next h => exact .inr (.inr (.inl ⟨h, rfl⟩))
  split
  · next h => exact .inr (.inr (.inr (.inl ⟨by simpa [or_assoc] using h, rfl⟩)))
  split
  · next h => exact .inr (.inr (.inr (.inr (.inl ⟨h, rfl⟩))))
  split
  · next h => exact .inr (.inr (.inr (.inr (.inr (.inl ⟨h, rfl⟩)))))
  split
  · next h => exact .inr (.inr (.inr (.inr (.inr (.inr (.inl ⟨h, rfl⟩))))))
  split
  · next h => exact .inr (.inr (.inr (.inr (.inr (.inr (.inr (.inl ⟨h, rfl⟩)))))))
  · refine .inr (.inr (.inr (.inr (.inr (.inr (.inr (.inr ⟨?_, rfl⟩)))))))
    simp_all [knownKinds]

/-- A word is read as half of a mapped range exactly if it is of the kind of ranges. -/
theorem Descriptor.ofWord_eq_mapRange_iff : ofWord word = .mapRange ↔ HasKind word mapRangeKind := by
  rw [hasKind_iff]
  rcases ofWord_cases word with
    ⟨hk, hw⟩ | ⟨hk, hw⟩ | ⟨hk, hw⟩ | ⟨hk, hw⟩ | ⟨hk, hw⟩ | ⟨hk, hw⟩ | ⟨hk, hw⟩ | ⟨hk, hw⟩ | ⟨hk, hw⟩
  case inr.inr.inl => exact iff_of_true hw hk
  all_goals
    refine iff_of_false (by rw [hw]; nofun) fun h => ?_
    rw [h] at hk
    exact absurd hk (by decide)

/-- Nothing more is asked of a word of most kinds. -/
theorem fits_of_kind (h : kindOf word = kind) (hknown : kind ∈ knownKinds) (hcore : kind ≠ corePriorityKind)
    (hmask : kind ≠ callMaskKind) : Fits coreCount word where
  known := ⟨kind, hknown, hasKind_iff.2 h⟩
  corePriority hc := absurd ((hasKind_iff.1 hc).symm.trans h).symm hcore
  calls _ hn := absurd ((hasKind_iff.1 hn.1).symm.trans h).symm hmask

/-- A word of a kind that may come again stands by any other. -/
theorem apart_of_kind (h : kindOf word = kind) (hsingle : kind ∉ singleKinds) (hmask : kind ≠ callMaskKind) (other : UInt32) :
    Apart other word where
  single _ hs _ hk := hsingle ((hasKind_iff.1 hk).symm.trans h ▸ hs)
  masks _ hm := absurd ((hasKind_iff.1 hm).symm.trans h).symm hmask

/-- A word of a single kind must be the first one. -/
theorem apart_iff_of_single (seen : List UInt32) (h : kindOf word = kind) (hsingle : kind ∈ singleKinds) :
    (∀ other ∈ seen, Apart other word) ↔ ¬∃ other ∈ seen, HasKind other kind := by
  have hmask : kind ≠ callMaskKind := by
    rintro rfl
    exact absurd hsingle (by decide)
  constructor
  · rintro ha ⟨other, hm, hk⟩
    exact (ha other hm).single kind hsingle hk (hasKind_iff.2 h)
  · intro hn other hm
    refine ⟨fun kind' _ hk hw => ?_, fun _ hw => absurd ((hasKind_iff.1 hw).symm.trans h).symm hmask⟩
    obtain rfl := (hasKind_iff.1 hw).symm.trans h
    exact hn ⟨other, hm, hk⟩

/-- A mask word must be the first one of its group. -/
theorem apart_iff_of_mask (seen : List UInt32) (h : kindOf word = callMaskKind) :
    (∀ other ∈ seen, Apart other word) ↔ ¬∃ other ∈ seen, HasKind other callMaskKind ∧ groupOf other = groupOf word := by
  constructor
  · rintro ha ⟨other, hm, hk, hg⟩
    exact (ha other hm).masks hk (hasKind_iff.2 h) hg
  · intro hn other hm
    refine ⟨fun kind hs _ hw => ?_, fun hk _ hg => hn ⟨other, hm, hk, hg⟩⟩
    obtain rfl := (hasKind_iff.1 hw).symm.trans h
    exact absurd hs (by decide)

end Kinds

end Capability

open Capability

/-! ## Reading -/

namespace Capabilities.Reading

variable {coreCount : Nat} {r r' : Reading} {word : UInt32} {seen words : List UInt32}

/-- What has been read is these words. -/
structure Reads (r : Reading) (seen : List UInt32) : Prop where
  corePriority : r.corePrioritySeen = true ↔ ∃ w ∈ seen, HasKind w corePriorityKind
  masks : ∀ group, group ∈ r.masksSeen ↔ ∃ w ∈ seen, HasKind w callMaskKind ∧ groupOf w = group
  grants : Grants seen r.granted

/-- What stands at the beginning is what an empty list grants. -/
theorem reads_nil : ({} : Reading).Reads [] := by
  have hmask (id : Nat) : CallMask.empty.contains id = false := by simp [CallMask.empty, CallMask.contains]
  have hnone {α : Type} {kind : Nat} {read : UInt32 → α} {default : α} : LastSets kind read default [] default :=
    ⟨fun before w after h => absurd h.symm (by simp), fun _ => rfl⟩
  refine ⟨by simp, by simp, ?_⟩
  exact { calls := by simp [allowsCall, hmask], priorities := by simp [allowsPriority], cores := by simp
          programType := hnone, kernelRelease := hnone, handleTableSize := hnone, debugFlags := hnone }

/-- One word more has been read if each slot has taken what the word says about it. -/
theorem Reads.concat (h : r.Reads seen)
    (corePriority : r'.corePrioritySeen = true ↔ r.corePrioritySeen = true ∨ HasKind word corePriorityKind)
    (masks : ∀ group, group ∈ r'.masksSeen ↔ group ∈ r.masksSeen ∨ HasKind word callMaskKind ∧ groupOf word = group)
    (calls : ∀ id, r'.granted.allowsCall id = true ↔ r.granted.allowsCall id = true ∨ Names word id)
    (priorities : ∀ p, r'.granted.allowsPriority p = true ↔
      r.granted.allowsPriority p = true ∨ HasKind word corePriorityKind ∧ highestOf word ≤ p ∧ p ≤ lowestOf word)
    (cores : ∀ core, r'.granted.coreMask.testBit core = true ↔
      r.granted.coreMask.testBit core = true ∨ HasKind word corePriorityKind ∧ minCoreOf word ≤ core ∧ core ≤ maxCoreOf word)
    (programType : r'.granted.programType = if kindOf word = programTypeKind then bits word.toNat 14 3 else r.granted.programType)
    (kernelRelease : r'.granted.kernelRelease =
      if kindOf word = kernelVersionKind then some (bits word.toNat 15 17) else r.granted.kernelRelease)
    (handleTableSize : r'.granted.handleTableSize =
      if kindOf word = handleTableSizeKind then some (bits word.toNat 16 10) else r.granted.handleTableSize)
    (debugFlags : r'.granted.debugFlags = if kindOf word = debugFlagsKind then bits word.toNat 17 2 else r.granted.debugFlags) :
    r'.Reads (seen ++ [word]) := by
  have hlast {α : Type} {kind : Nat} {read : UInt32 → α} {default a a' : α} (hl : LastSets kind read default seen a)
      (ha : a' = if kindOf word = kind then read word else a) : LastSets kind read default (seen ++ [word]) a' := by
    rw [lastSets_concat, ha]
    split
    · rfl
    · exact hl
  constructor
  case corePriority => rw [corePriority, h.corePriority, exists_mem_concat]
  case masks => exact fun group => by rw [masks, h.masks, exists_mem_concat]
  case grants =>
    constructor
    case calls => exact fun id => by rw [calls, h.grants.calls, exists_mem_concat]
    case priorities => exact fun p => by rw [priorities, h.grants.priorities, exists_mem_concat]
    case cores => exact fun core => by rw [cores, h.grants.cores, exists_mem_concat]
    case programType => exact hlast h.grants.programType programType
    case kernelRelease => exact hlast h.grants.kernelRelease kernelRelease
    case handleTableSize => exact hlast h.grants.handleTableSize handleTableSize
    case debugFlags => exact hlast h.grants.debugFlags debugFlags

/-- A word that is neither a mask nor about cores and priorities sets the field of its kind, if there is one. -/
theorem Reads.concat_plain {kind : Nat} (h : r.Reads seen) (hk : kindOf word = kind) (hcore : kind ≠ corePriorityKind)
    (hmask : kind ≠ callMaskKind) (corePriority : r'.corePrioritySeen = r.corePrioritySeen) (masks : r'.masksSeen = r.masksSeen)
    (calls : r'.granted.callMask = r.granted.callMask) (priorities : r'.granted.priorityMask = r.granted.priorityMask)
    (cores : r'.granted.coreMask = r.granted.coreMask)
    (programType : r'.granted.programType = if kind = programTypeKind then bits word.toNat 14 3 else r.granted.programType)
    (kernelRelease : r'.granted.kernelRelease =
      if kind = kernelVersionKind then some (bits word.toNat 15 17) else r.granted.kernelRelease)
    (handleTableSize : r'.granted.handleTableSize =
      if kind = handleTableSizeKind then some (bits word.toNat 16 10) else r.granted.handleTableSize)
    (debugFlags : r'.granted.debugFlags = if kind = debugFlagsKind then bits word.toNat 17 2 else r.granted.debugFlags) :
    r'.Reads (seen ++ [word]) := by
  subst hk
  refine h.concat ?_ ?_ ?_ ?_ ?_ programType kernelRelease handleTableSize debugFlags
  · simp [hasKind_iff, hcore, corePriority]
  · simp [hasKind_iff, hmask, masks]
  · simp [Names, hasKind_iff, hmask, allowsCall, calls]
  · simp [hasKind_iff, hcore, allowsPriority, priorities]
  · simp [hasKind_iff, hcore, cores]

/-- A range word sets nothing. -/
theorem Reads.concat_range (h : r.Reads seen) (hw : HasKind word mapRangeKind) : r.Reads (seen ++ [word]) :=
  h.concat_plain (hasKind_iff.1 hw) (by decide) (by decide) rfl rfl rfl rfl rfl rfl rfl rfl rfl

/-- What becomes of a word that stands alone: it is taken exactly if it fits, and stands by all that was read before. -/
def Takes (coreCount : Nat) (seen : List UInt32) (word : UInt32) : Except CapabilityError Reading → Prop
  | .ok r => Fits coreCount word ∧ (∀ other ∈ seen, Apart other word) ∧ r.Reads (seen ++ [word])
  | .error _ => ¬(Fits coreCount word ∧ ∀ other ∈ seen, Apart other word)

/-- A word for cores and priorities is taken if it fits and none was seen, and grants what it names. -/
theorem accept_corePriority (h : r.Reads seen) (hcores : coreCount ≤ 64) (hk : kindOf word = corePriorityKind) :
    Takes coreCount seen word
      (r.accept coreCount word (.corePriority (lowestOf word) (highestOf word) (minCoreOf word) (maxCoreOf word))) := by
  have hkind := hasKind_iff.2 hk
  have hfirst := apart_iff_of_single seen hk (by decide)
  rw [accept]
  split
  · next hseen => exact fun ht => hfirst.1 ht.2 (h.corePriority.1 hseen)
  next hseen =>
  rw [h.corePriority] at hseen
  split
  · next hbad =>
    intro ht
    have := ht.1.corePriority hkind
    omega
  split
  · next hbad =>
    intro ht
    have := ht.1.corePriority hkind
    omega
  split
  · omega
  next hrange hmax hmin =>
  have hlowest : lowestOf word < 64 := Nat.mod_lt _ (by decide)
  refine ⟨⟨⟨_, by decide, hkind⟩, fun _ => by omega, fun id hn => ?_⟩, hfirst.2 hseen, ?_⟩
  · exact absurd (hkind.eq hn.1) (by decide)
  have hnone {P : UInt32 → Prop} : ¬∃ w ∈ seen, HasKind w corePriorityKind ∧ P w :=
    fun ⟨w, hw, hk, _⟩ => hseen ⟨w, hw, hk⟩
  refine h.concat (by simp [hkind]) ?_ ?_ ?_ ?_ ?_ ?_ ?_ ?_
  case refine_3 =>
    intro p
    rw [h.grants.priorities, iff_false_intro hnone, false_or, allowsPriority, Bool.and_eq_true, decide_eq_true_eq,
      testBit_rangeMask (by omega) hlowest]
    have hlast : lowestPriority = 63 := rfl
    exact ⟨fun hp => ⟨hkind, hp.2⟩, fun hp => ⟨by omega, hp.2⟩⟩
  case refine_4 =>
    intro core
    rw [h.grants.cores, iff_false_intro hnone, false_or, testBit_rangeMask (by omega) (by omega)]
    exact ⟨fun hc => ⟨hkind, hc⟩, fun hc => hc.2⟩
  all_goals simp [Names, hasKind_iff, hk, corePriorityKind, callMaskKind, programTypeKind, kernelVersionKind, handleTableSizeKind,
    debugFlagsKind, allowsCall]

/-- A call mask is taken if its group was not seen, and grants its calls. -/
theorem accept_callMask (h : r.Reads seen) (hk : kindOf word = callMaskKind) :
    Takes coreCount seen word (r.accept coreCount word (.callMask (groupOf word) (bits word.toNat 5 callsPerDescriptor))) := by
  have hkind := hasKind_iff.2 hk
  have hfirst := apart_iff_of_mask seen hk
  rw [accept]
  split
  · next hseen => exact fun ht => hfirst.1 ht.2 ((h.masks _).1 (List.contains_iff_mem.1 hseen))
  next hseen =>
  rw [List.contains_iff_mem, h.masks] at hseen
  split
  · next hbad =>
    intro ht
    obtain ⟨id, hid, hge⟩ := List.any_eq_true.1 hbad
    have := ht.1.calls id ((mem_callsOf_iff hkind id).1 hid)
    exact absurd (of_decide_eq_true hge) (by omega)
  next hall =>
  have hcalls (id : Nat) (hn : Names word id) : id < supervisorCallCount := by
    by_contra hge
    exact hall (List.any_eq_true.2 ⟨id, (mem_callsOf_iff hkind id).2 hn, decide_eq_true (Nat.not_lt.1 hge)⟩)
  refine ⟨⟨⟨_, by decide, hkind⟩, fun hc => absurd (hkind.eq hc) (by decide), hcalls⟩, hfirst.2 hseen, ?_⟩
  refine h.concat ?_ ?_ ?_ ?_ ?_ ?_ ?_ ?_ ?_
  case refine_2 => simp [hkind, eq_comm, or_comm]
  case refine_3 =>
    intro id
    rw [allowsCall, CallMask.contains_insertAll, mem_callsOf_iff hkind]
    exact or_congr_right ⟨And.left, fun hn => ⟨hn, hcalls id hn⟩⟩
  all_goals simp [hasKind_iff, hk, corePriorityKind, callMaskKind, programTypeKind, kernelVersionKind, handleTableSizeKind,
    debugFlagsKind, allowsPriority]

/-- A word of a kind that may come again is always taken. -/
theorem takes_of_repeatable {kind : Nat} (hk : kindOf word = kind) (hknown : kind ∈ knownKinds) (hsingle : kind ∉ singleKinds)
    (hmask : kind ≠ callMaskKind) (hr : r'.Reads (seen ++ [word])) : Takes coreCount seen word (.ok r') := by
  have hcore : kind ≠ corePriorityKind := by
    rintro rfl
    exact hsingle (by decide)
  exact ⟨fits_of_kind hk hknown hcore hmask, fun other _ => apart_of_kind hk hsingle hmask other, hr⟩

/-- A word that sets an optional field is taken if none has set it before. -/
theorem takes_of_single {α : Type} {kind : Nat} {read : UInt32 → α} {a : Option α} (hk : kindOf word = kind)
    (hkind : kind ∈ [kernelVersionKind, handleTableSizeKind]) (ha : LastSets kind (fun word => some (read word)) none seen a)
    (e : CapabilityError) (hr : r'.Reads (seen ++ [word])) :
    Takes coreCount seen word (if a.isSome then .error e else .ok r') := by
  have hsingle : kind ∈ singleKinds := List.mem_cons_of_mem _ hkind
  have hfirst := apart_iff_of_single seen hk hsingle
  rw [← ha.isSome_iff] at hfirst
  split
  · next hset => exact fun ht => hfirst.1 ht.2 hset
  next hset =>
  have hplain : kind ∈ knownKinds ∧ kind ≠ corePriorityKind ∧ kind ≠ callMaskKind := by
    simp only [List.mem_cons, List.not_mem_nil, or_false] at hkind
    rcases hkind with rfl | rfl <;> decide
  exact ⟨fits_of_kind hk hplain.1 hplain.2.1 hplain.2.2, hfirst.2 hset, hr⟩

/-- A word that stands alone is taken exactly if it fits and stands by all that was read before. -/
theorem accept_takes (h : r.Reads seen) (hcores : coreCount ≤ 64) (hrange : ¬HasKind word mapRangeKind) :
    Takes coreCount seen word (r.accept coreCount word (Descriptor.ofWord word)) := by
  rcases Descriptor.ofWord_cases word with
    ⟨hk, hw⟩ | ⟨hk, hw⟩ | ⟨hk, -⟩ | ⟨hk, hw⟩ | ⟨hk, hw⟩ | ⟨hk, hw⟩ | ⟨hk, hw⟩ | ⟨hk, hw⟩ | ⟨hk, hw⟩
  case inr.inr.inl => exact absurd (hasKind_iff.2 hk) hrange
  all_goals rw [hw]
  · exact accept_corePriority h hcores hk
  · exact accept_callMask h hk
  · simp only [List.mem_cons, List.not_mem_nil, or_false] at hk
    rcases hk with hk | hk | hk | hk <;> exact takes_of_repeatable hk (by decide) (by decide) (by decide)
      (h.concat_plain hk (by decide) (by decide) rfl rfl rfl rfl rfl rfl rfl rfl rfl)
  · exact takes_of_repeatable hk (by decide) (by decide) (by decide)
      (h.concat_plain hk (by decide) (by decide) rfl rfl rfl rfl rfl rfl rfl rfl rfl)
  · exact takes_of_single hk (by decide) h.grants.kernelRelease _
      (h.concat_plain hk (by decide) (by decide) rfl rfl rfl rfl rfl rfl rfl rfl rfl)
  · exact takes_of_single hk (by decide) h.grants.handleTableSize _
      (h.concat_plain hk (by decide) (by decide) rfl rfl rfl rfl rfl rfl rfl rfl rfl)
  · exact takes_of_repeatable hk (by decide) (by decide) (by decide)
      (h.concat_plain hk (by decide) (by decide) rfl rfl rfl rfl rfl rfl rfl rfl rfl)
  · rintro ⟨⟨⟨kind, hkind, hw⟩, -, -⟩, -⟩
    exact hk (hasKind_iff.1 hw ▸ hkind)

/-- What is asked of the words that follow those read so far. -/
structure Continues (coreCount : Nat) (seen words : List UInt32) : Prop where
  fits : ∀ word ∈ words, Fits coreCount word
  apart : words.Pairwise Apart
  apartSeen : ∀ other ∈ seen, ∀ word ∈ words, Apart other word
  runs : EvenRuns words

/-- A list goes on behind a word that is no half of a range if the word fits, is apart from those before, and the rest goes on. -/
theorem continues_cons {rest : List UInt32} (hrange : ¬HasKind word mapRangeKind) : Continues coreCount seen (word :: rest) ↔
    (Fits coreCount word ∧ ∀ other ∈ seen, Apart other word) ∧ Continues coreCount (seen ++ [word]) rest := by
  constructor
  · intro h
    have hfits := List.forall_mem_cons.1 h.fits
    have hapart := List.pairwise_cons.1 h.apart
    refine ⟨⟨hfits.1, fun other ho => h.apartSeen other ho word List.mem_cons_self⟩, hfits.2, hapart.2, fun other ho w hw => ?_,
      (evenRuns_cons hrange).1 h.runs⟩
    rcases List.mem_append.1 ho with ho | ho
    · exact h.apartSeen other ho w (List.mem_cons_of_mem _ hw)
    · rw [List.mem_singleton.1 ho]
      exact hapart.1 w hw
  · rintro ⟨⟨hfits, hapart⟩, h⟩
    refine ⟨List.forall_mem_cons.2 ⟨hfits, h.fits⟩, List.pairwise_cons.2 ⟨fun w hw => ?_, h.apart⟩, fun other ho w hw => ?_,
      (evenRuns_cons hrange).2 h.runs⟩
    · exact h.apartSeen word (by simp) w hw
    · rcases List.mem_cons.1 hw with rfl | hw
      · exact hapart other ho
      · exact h.apartSeen other (List.mem_append_left _ ho) w hw

/-- A pair of range words asks for nothing. -/
theorem continues_cons_cons {next : UInt32} {rest : List UInt32} (hw : HasKind word mapRangeKind) (hn : HasKind next mapRangeKind) :
    Continues coreCount seen (word :: next :: rest) ↔ Continues coreCount (seen ++ [word] ++ [next]) rest := by
  have hfits {w : UInt32} (h : HasKind w mapRangeKind) : Fits coreCount w :=
    fits_of_kind (hasKind_iff.1 h) (by decide) (by decide) (by decide)
  have hapart {w : UInt32} (h : HasKind w mapRangeKind) (other : UInt32) : Apart other w :=
    apart_of_kind (hasKind_iff.1 h) (by decide) (by decide) other
  constructor
  · intro h
    refine ⟨fun w hm => h.fits w (by simp [hm]), (List.pairwise_cons.1 (List.pairwise_cons.1 h.apart).2).2, fun other ho w hm => ?_,
      (evenRuns_cons_cons hw hn).1 h.runs⟩
    simp only [List.mem_append, List.mem_singleton] at ho
    rcases ho with (ho | rfl) | rfl
    · exact h.apartSeen other ho w (by simp [hm])
    · exact (hapart hw w).symm
    · exact (hapart hn w).symm
  · intro h
    refine ⟨List.forall_mem_cons.2 ⟨hfits hw, List.forall_mem_cons.2 ⟨hfits hn, h.fits⟩⟩, ?_, fun other ho => ?_,
      (evenRuns_cons_cons hw hn).2 h.runs⟩
    · exact List.pairwise_cons.2 ⟨fun w _ => (hapart hw w).symm, List.pairwise_cons.2 ⟨fun w _ => (hapart hn w).symm, h.apart⟩⟩
    · exact List.forall_mem_cons.2 ⟨hapart hw other, List.forall_mem_cons.2 ⟨hapart hn other, fun w hm =>
        h.apartSeen other (by simp [ho]) w hm⟩⟩

/-- How reading ends behind the words read so far. -/
def Ends (coreCount : Nat) (seen words : List UInt32) : Except CapabilityError Capabilities → Prop
  | .ok c => Continues coreCount seen words ∧ Grants (seen ++ words) c
  | .error _ => ¬Continues coreCount seen words

/-- What the first words come to is what decides about all of them. -/
theorem Ends.of_iff (first : List UInt32) {rest : List UInt32} {result : Except CapabilityError Capabilities}
    (h : Ends coreCount (seen ++ first) rest result)
    (hiff : Continues coreCount seen (first ++ rest) ↔ Continues coreCount (seen ++ first) rest) :
    Ends coreCount seen (first ++ rest) result := by
  cases result with
  | ok c => exact ⟨hiff.2 h.1, List.append_assoc seen first rest ▸ h.2⟩
  | error e => exact fun hc => h (hiff.1 hc)

/-- A word that is taken by itself is no range word: those are taken in pairs or refused. -/
theorem not_range_of_alone {rest : List UInt32}
    (hpair : ∀ next tail, Descriptor.ofWord word = .mapRange → rest = next :: tail → False)
    (hlast : Descriptor.ofWord word = .mapRange → rest = [] → False) : ¬HasKind word mapRangeKind := by
  rw [← Descriptor.ofWord_eq_mapRange_iff]
  cases rest with
  | nil => exact fun hw => hlast hw rfl
  | cons next tail => exact fun hw => hpair next tail hw rfl

/-- A reading of the rest of a list ends with what the whole list grants, or fails because the list does not go on. -/
theorem run_ends (h : r.Reads seen) (hcores : coreCount ≤ 64) (words : List UInt32) :
    Ends coreCount seen words (run coreCount r words) := by
  fun_induction run coreCount r words generalizing seen with
  | case1 r => exact ⟨⟨by simp, .nil, by simp, evenRuns_nil⟩, by simpa using h.grants⟩
  | case2 r word next rest hw hn ih =>
    rw [Descriptor.ofWord_eq_mapRange_iff] at hw hn
    refine Ends.of_iff [word, next] ?_ ?_
    · rw [List.append_cons]
      exact ih ((h.concat_range hw).concat_range hn)
    · rw [List.append_cons seen]
      exact continues_cons_cons hw hn
  | case3 r word next rest hw hn =>
    rw [Descriptor.ofWord_eq_mapRange_iff] at hw hn
    exact fun hc => not_evenRuns hw (by simpa using hn) hc.runs
  | case4 r word hw =>
    rw [Descriptor.ofWord_eq_mapRange_iff] at hw
    exact fun hc => not_evenRuns hw (by simp) hc.runs
  | case5 r word rest r' hpair hlast haccept ih =>
    have hrange := not_range_of_alone hpair hlast
    have ht := accept_takes h hcores hrange
    rw [haccept] at ht
    refine Ends.of_iff [word] (ih ht.2.2) ?_
    rw [List.singleton_append, continues_cons hrange, and_iff_right ⟨ht.1, ht.2.1⟩]
  | case6 r word rest e hpair hlast haccept =>
    have hrange := not_range_of_alone hpair hlast
    have ht := accept_takes h hcores hrange
    rw [haccept] at ht
    exact fun hc => ht ((continues_cons hrange).1 hc).1

end Reading

/-- A list goes on from the beginning exactly if it is well formed. -/
theorem continues_nil_iff {coreCount : Nat} {words : List UInt32} :
    Reading.Continues coreCount [] words ↔ WellFormed coreCount words :=
  ⟨fun h => ⟨h.fits, h.apart, h.runs⟩, fun h => ⟨h.fits, h.apart, by simp, h.runs⟩⟩

/-- A list is read exactly if it is well formed, and what it grants is what it names; without a word about cores and priorities,
no core is granted. -/
theorem parse_exact (words : List UInt32) (coreCount : Nat) (hcores : coreCount ≤ 64) :
    ((∃ c, parse words coreCount = .ok c) ↔ WellFormed coreCount words) ∧
    ∀ c, parse words coreCount = .ok c →
      Grants words c ∧ ((∀ word ∈ words, ¬HasKind word corePriorityKind) → c.coreMask = 0) := by
  have hends := Reading.run_ends Reading.reads_nil hcores words
  rw [← continues_nil_iff, parse]
  cases hrun : Reading.run coreCount {} words with
  | error e =>
    rw [hrun] at hends
    exact ⟨iff_of_false (fun ⟨_, h⟩ => nomatch h) hends, fun _ h => nomatch h⟩
  | ok c =>
    rw [hrun] at hends
    refine ⟨iff_of_true ⟨c, rfl⟩ hends.1, ?_⟩
    rintro _ ⟨⟩
    have hgrants : Grants words c := hends.2
    refine ⟨hgrants, fun hnone => Nat.eq_of_testBit_eq fun core => ?_⟩
    rw [Nat.zero_testBit, ← Bool.not_eq_true, hgrants.cores]
    rintro ⟨word, hword, hkind, -⟩
    exact hnone word hword hkind

/-- Words of all kinds: two program types of which the second counts, two pairs of ranges in a row, and the calls up to the last. -/
def crowdedWords : List UInt32 :=
  [0x3F0063F7, 0x3F, 0xBF, 0x1FFFFFCF, 0x3F, 0x7FFFFFBF, 0xFFFFFFFF, 0x1FFF, 0xA0001FEF, 0x0048BFFF, 0x5FFF, 0x01007FFF,
    0x2FFFF, 0x7F, 0x3FF, 0x7FF]

/-- Words of every kind for 64 cores are well formed, and all are granted. -/
theorem parse_exact_crowdedWords : 64 ≤ 64 ∧ WellFormed 64 crowdedWords ∧
    ∃ c, parse crowdedWords 64 = .ok c ∧ c.programType = 1 ∧ Grants crowdedWords c := by
  obtain ⟨c, hparse, htype⟩ : ∃ c, parse crowdedWords 64 = .ok c ∧ c.programType = 1 := ⟨_, rfl, rfl⟩
  have hexact := parse_exact crowdedWords 64 (Nat.le_refl 64)
  exact ⟨Nat.le_refl 64, hexact.1.1 ⟨c, hparse⟩, c, hparse, htype, (hexact.2 c hparse).1⟩

end Capabilities

end Microkernel
