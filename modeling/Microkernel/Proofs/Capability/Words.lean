import Microkernel.Capability.Parser

/-!
# Bits of capability words

What the kind of a word, the calls of a mask word and a mask of a range are, bit by bit: a word has the kind that it ends in so many
ones with a zero above them (`hasKind_iff`), and `mem_callsOf`, `contains_insert` and `testBit_rangeMask` say which positions are set.
-/

namespace Microkernel

/-- The bits of a field are those of the number at its place, up to its width. -/
theorem testBit_bits (n low width i : Nat) : (bits n low width).testBit i = (decide (i < width) && n.testBit (low + i)) := by
  have h : bits n low width = n / 2 ^ low % 2 ^ width := rfl
  rw [h, Nat.testBit_mod_two_pow, Nat.testBit_div_two_pow, Nat.add_comm]

namespace Capability

/-! ## Kinds -/

/-- The word ends in so many ones, with a zero above them. -/
def HasKind (word : UInt32) (kind : Nat) : Prop := (∀ i < kind, word.toNat.testBit i = true) ∧ word.toNat.testBit kind = false

/-- A word ends in no two different numbers of ones. -/
theorem HasKind.eq {word : UInt32} {kind kind' : Nat} (h : HasKind word kind) (h' : HasKind word kind') : kind = kind' := by
  rcases Nat.lt_trichotomy kind kind' with hlt | heq | hlt
  · exact absurd (h'.1 kind hlt) (by simp [h.2])
  · exact heq
  · exact absurd (h.1 kind' hlt) (by simp [h'.2])

/-- The ones are counted up to the first zero. -/
theorem testBit_trailingOnes (width n : Nat) :
    (∀ i < trailingOnes width n, n.testBit i = true) ∧ (trailingOnes width n < width → n.testBit (trailingOnes width n) = false) ∧
      trailingOnes width n ≤ width := by
  induction width generalizing n with
  | zero => exact ⟨fun i hi => absurd hi (Nat.not_lt_zero i), fun h => absurd h (Nat.not_lt_zero 0), Nat.le_refl 0⟩
  | succ width ih =>
    obtain ⟨hones, hzero, hle⟩ := ih (n / 2)
    rw [trailingOnes]
    split
    · next hodd =>
      refine ⟨fun i hi => ?_, fun h => ?_, Nat.succ_le_succ hle⟩
      · cases i with
        | zero => simpa [Nat.testBit_zero] using hodd
        | succ i =>
          rw [Nat.testBit_succ]
          exact hones i (Nat.lt_of_succ_lt_succ hi)
      · rw [Nat.testBit_succ]
        exact hzero (Nat.lt_of_succ_lt_succ h)
    · next heven => exact ⟨fun i hi => absurd hi (Nat.not_lt_zero i), fun _ => by simpa [Nat.testBit_zero] using heven, Nat.zero_le _⟩

/-- Every word has a kind: the one that is read off it. -/
theorem hasKind_kindOf (word : UInt32) : HasKind word (kindOf word) := by
  obtain ⟨hones, hzero, hle⟩ := testBit_trailingOnes 32 word.toNat
  refine ⟨hones, ?_⟩
  rcases Nat.lt_or_eq_of_le hle with hlt | heq
  · exact hzero hlt
  · rw [kindOf, heq]
    exact Nat.testBit_lt_two_pow word.toNat_lt

/-- The kind of a word is told by its lowest bits. -/
theorem hasKind_iff {word : UInt32} {kind : Nat} : HasKind word kind ↔ kindOf word = kind :=
  ⟨fun h => (hasKind_kindOf word).eq h, fun h => h ▸ hasKind_kindOf word⟩

/-! ## Calls of a mask word -/

/-- The group of 24 calls that a mask word is about. -/
def groupOf (word : UInt32) : Nat := bits word.toNat 29 3

/-- The word is a mask and names a call: the call is in its group, and its bit is set. -/
def Names (word : UInt32) (id : Nat) : Prop :=
  HasKind word callMaskKind ∧ id / callsPerDescriptor = groupOf word ∧ word.toNat.testBit (5 + id % callsPerDescriptor) = true

end Capability

open Capability

/-- A call belongs to a group of a mask if its number lies in the group and its bit is set. -/
theorem Capabilities.mem_callsOf (index calls id : Nat) :
    id ∈ callsOf index calls ↔ id / callsPerDescriptor = index ∧ calls.testBit (id % callsPerDescriptor) = true := by
  have hwidth : callsPerDescriptor = 24 := rfl
  simp only [callsOf, List.mem_map, List.mem_filter, List.mem_range, hwidth]
  constructor
  · rintro ⟨bit, ⟨hlt, hset⟩, rfl⟩
    have hdiv : (index * 24 + bit) / 24 = index := by omega
    have hmod : (index * 24 + bit) % 24 = bit := by omega
    rw [hdiv, hmod]
    exact ⟨rfl, hset⟩
  · rintro ⟨rfl, hset⟩
    exact ⟨id % 24, ⟨Nat.mod_lt _ (by decide), hset⟩, by omega⟩

/-- The calls read from a mask word are those that it names. -/
theorem Capability.mem_callsOf_iff {word : UInt32} (h : HasKind word callMaskKind) (id : Nat) :
    id ∈ Capabilities.callsOf (groupOf word) (bits word.toNat 5 callsPerDescriptor) ↔ Names word id := by
  have hlt : id % callsPerDescriptor < callsPerDescriptor := Nat.mod_lt _ (by decide)
  rw [Capabilities.mem_callsOf, testBit_bits, decide_eq_true hlt, Bool.true_and, Names]
  exact ⟨fun hn => ⟨h, hn⟩, fun hn => hn.2⟩

namespace CallMask

/-- An insert adds one call, if it is known. -/
theorem contains_insert (m : CallMask) (id other : Nat) :
    (m.insert id).contains other = true ↔ m.contains other = true ∨ other = id ∧ id < supervisorCallCount := by
  have hcount : supervisorCallCount = 128 := rfl
  unfold insert contains
  split
  · next hlt =>
    rw [BitVec.getLsbD_or, Bool.or_eq_true, BitVec.getLsbD_twoPow, Bool.and_eq_true, decide_eq_true_eq, decide_eq_true_eq]
    exact or_congr_right ⟨fun h => ⟨h.2.symm, hlt⟩, fun h => ⟨h.1 ▸ hlt, h.1.symm⟩⟩
  · next hge => exact ⟨.inl, fun h => h.resolve_right fun h => hge h.2⟩

/-- Inserting a list adds its known calls. -/
theorem contains_insertAll (ids : List Nat) (m : CallMask) (other : Nat) :
    (ids.foldl insert m).contains other = true ↔ m.contains other = true ∨ other ∈ ids ∧ other < supervisorCallCount := by
  induction ids generalizing m with
  | nil => simp
  | cons id rest ih =>
    rw [List.foldl_cons, ih, contains_insert, List.mem_cons, or_assoc]
    refine or_congr_right ⟨?_, ?_⟩
    · rintro (⟨rfl, hlt⟩ | ⟨hmem, hlt⟩)
      · exact ⟨.inl rfl, hlt⟩
      · exact ⟨.inr hmem, hlt⟩
    · rintro ⟨rfl | hmem, hlt⟩
      · exact .inl ⟨rfl, hlt⟩
      · exact .inr ⟨hmem, hlt⟩

end CallMask

/-- The positions of a mask are the numbers of its range, as long as they are positions of a long word. -/
theorem Capabilities.testBit_rangeMask {low high : Nat} (hle : low ≤ high) (hhigh : high < 64) (i : Nat) :
    (rangeMask low high).testBit i = true ↔ low ≤ i ∧ i ≤ high := by
  have hmask : rangeMask low high = (2 ^ (high - low + 1) - 1) * 2 ^ low % 2 ^ 64 := rfl
  rw [hmask, Nat.testBit_mod_two_pow, Nat.testBit_mul_two_pow, Nat.testBit_two_pow_sub_one]
  simp only [Bool.and_eq_true, decide_eq_true_eq]
  omega

end Microkernel
