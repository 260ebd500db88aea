import Mathlib.Data.List.Basic
import Microkernel.Proofs.Capability.Grammar

/-!
# Call masks as capability words

A mask is written as one word for each group of 24 calls that it has calls of. Whatever the mask and the machine, the words are read
back as the mask and as nothing else (`parse_toDescriptors`). The last group is cut short at the last call, and groups of 24 do not end
where halves of the mask do.
-/

namespace Microkernel

open Capability

variable {m : CallMask} {coreCount index calls : Nat} {word : UInt32}

namespace CallMask

/-- A call is in a mask exactly if its bit is set. -/
theorem contains_eq_testBit (m : CallMask) (id : Nat) : m.contains id = m.calls.toNat.testBit id := rfl

/-- A mask is determined by the calls in it. -/
theorem ext_contains {m m' : CallMask} (h : ∀ id, m.contains id = m'.contains id) : m = m' :=
  congrArg CallMask.mk (BitVec.eq_of_getLsbD_eq fun id _ => h id)

/-- A mask holds known calls only. -/
theorem lt_of_contains {id : Nat} (h : m.contains id = true) : id < supervisorCallCount := BitVec.lt_of_getLsbD h

/-- The empty mask holds no call. -/
theorem contains_empty (id : Nat) : empty.contains id = false := by simp [empty, contains]

/-- The mask of a list holds the known calls of the list. -/
theorem contains_ofList (ids : List Nat) (id : Nat) : (ofList ids).contains id = true ↔ id < supervisorCallCount ∧ id ∈ ids := by
  rw [ofList, contains_insertAll, contains_empty]
  simp [and_comm]

/-- The calls read from a group are the calls of the mask that are in it. -/
theorem mem_callsOf_group (m : CallMask) (index id : Nat) :
    id ∈ Capabilities.callsOf index (m.group index) ↔ id / callsPerDescriptor = index ∧ m.contains id = true := by
  have hwidth : callsPerDescriptor = 24 := rfl
  have hlt : id % callsPerDescriptor < callsPerDescriptor := Nat.mod_lt _ (by decide)
  rw [Capabilities.mem_callsOf, group, testBit_bits, decide_eq_true hlt, Bool.true_and, contains_eq_testBit]
  refine and_congr_right fun hindex => ?_
  rw [← hindex, Nat.div_add_mod]

/-- A group with no call in it is empty. -/
theorem callsOf_zero (index : Nat) : Capabilities.callsOf index 0 = [] := by
  simp [Capabilities.callsOf]

end CallMask

namespace Capability

/-- The word that grants the calls of a group. -/
def maskWord (index calls : Nat) : UInt32 := UInt32.ofNat (packFields [(5, 0xF), (callsPerDescriptor, calls), (3, index)])

/-- The word of a group that the mask has calls of. -/
def groupWord? (m : CallMask) (index : Nat) : Option UInt32 :=
  if m.group index = 0 then none else some (maskWord index (m.group index))

/-- A group without calls has no word. -/
theorem groupWord?_of_empty (h : m.group index = 0) : groupWord? m index = none := if_pos h

/-- A group with calls has a word that names the group and its calls. -/
theorem groupWord?_of_nonempty (h : m.group index ≠ 0) : groupWord? m index = some (maskWord index (m.group index)) := if_neg h

/-- The words of a mask are those of its groups, in order. -/
theorem toDescriptors_eq (m : CallMask) : m.toDescriptors = (List.range CallMask.groupCount).filterMap (groupWord? m) := rfl

/-- The word of a group is packed from its kind, its calls and its index. -/
theorem toNat_maskWord (index calls : Nat) :
    (maskWord index calls).toNat = packFields [(5, 0xF), (callsPerDescriptor, calls), (3, index)] := by
  refine UInt32.toNat_ofNat_of_lt ?_
  have hlimits : widthLimit 5 = 32 ∧ widthLimit callsPerDescriptor = 16777216 ∧ widthLimit 3 = 8 ∧ UInt32.size = 4294967296 := by decide
  simp only [packFields, hlimits]
  omega

/-- A word whose lowest bits are a zero above ones. -/
theorem hasKind_of_bits {kind : Nat} (h : bits word.toNat 0 (kind + 1) = widthLimit kind - 1) : HasKind word kind := by
  have hbit (i : Nat) (hi : i < kind + 1) : word.toNat.testBit i = decide (i < kind) := by
    have hones : (widthLimit kind - 1).testBit i = decide (i < kind) := Nat.testBit_two_pow_sub_one kind i
    rw [← hones, ← h, testBit_bits, decide_eq_true hi, Bool.true_and, Nat.zero_add]
  exact ⟨fun i hi => by simpa [hi] using hbit i (Nat.lt_succ_of_lt hi), by simpa using hbit kind (Nat.lt_succ_self kind)⟩

/-- The word of a group is of the kind of call masks. -/
theorem hasKind_maskWord (index calls : Nat) : HasKind (maskWord index calls) callMaskKind := by
  refine hasKind_of_bits ?_
  rw [toNat_maskWord]
  exact bits_packFields_cons _ _ _

/-- The group of a word is read back from it. -/
theorem groupOf_maskWord (hindex : index < 8) (calls : Nat) : groupOf (maskWord index calls) = index := by
  rw [groupOf, toNat_maskWord]
  calc bits (packFields [(5, 0xF), (callsPerDescriptor, calls), (3, index)]) (5 + (callsPerDescriptor + 0)) 3
      = bits (packFields [(callsPerDescriptor, calls), (3, index)]) (callsPerDescriptor + 0) 3 := bits_packFields_skip _ _ _ _ _
    _ = bits (packFields [(3, index)]) 0 3 := bits_packFields_skip _ _ _ _ _
    _ = index % widthLimit 3 := bits_packFields_cons _ _ _
    _ = index := Nat.mod_eq_of_lt hindex

/-- The calls of a group are read back from its word. -/
theorem calls_maskWord (index : Nat) (hcalls : calls < widthLimit callsPerDescriptor) :
    bits (maskWord index calls).toNat 5 callsPerDescriptor = calls := by
  rw [toNat_maskWord]
  calc bits (packFields [(5, 0xF), (callsPerDescriptor, calls), (3, index)]) (5 + 0) callsPerDescriptor
      = bits (packFields [(callsPerDescriptor, calls), (3, index)]) 0 callsPerDescriptor := bits_packFields_skip _ _ _ _ _
    _ = calls % widthLimit callsPerDescriptor := bits_packFields_cons _ _ _
    _ = calls := Nat.mod_eq_of_lt hcalls

/-- A word of this kind is read as a group and its calls. -/
theorem Descriptor.ofWord_of_callMask (h : HasKind word callMaskKind) :
    ofWord word = .callMask (groupOf word) (bits word.toNat 5 callsPerDescriptor) := by
  rw [ofWord, hasKind_iff.1 h]
  rfl

/-- The calls of a group fit into the field of a word. -/
theorem group_lt (m : CallMask) (index : Nat) : m.group index < widthLimit callsPerDescriptor :=
  Nat.mod_lt _ (widthLimit_pos callsPerDescriptor)

/-- A group of a mask is read from its word as it was written. -/
theorem ofWord_maskWord (m : CallMask) (hindex : index < 8) :
    Descriptor.ofWord (maskWord index (m.group index)) = .callMask index (m.group index) := by
  rw [Descriptor.ofWord_of_callMask (hasKind_maskWord _ _), groupOf_maskWord hindex, calls_maskWord _ (group_lt m index)]

/-- Every word of a mask is that of a group with calls. -/
theorem exists_of_mem_toDescriptors (h : word ∈ m.toDescriptors) :
    ∃ index < CallMask.groupCount, m.group index ≠ 0 ∧ word = maskWord index (m.group index) := by
  rw [toDescriptors_eq, List.mem_filterMap] at h
  obtain ⟨index, hindex, hword⟩ := h
  by_cases hgroup : m.group index = 0
  · rw [groupWord?_of_empty hgroup] at hword
    cases hword
  · rw [groupWord?_of_nonempty hgroup] at hword
    exact ⟨index, List.mem_range.1 hindex, hgroup, (Option.some.inj hword).symm⟩

/-- The groups of the words are those that the mask has calls of, in ascending order. -/
theorem map_groupOf_toDescriptors (m : CallMask) :
    m.toDescriptors.map groupOf = (List.range CallMask.groupCount).filter fun index => m.group index ≠ 0 := by
  rw [toDescriptors_eq, List.map_filterMap, ← List.filterMap_eq_filter]
  refine List.filterMap_congr fun index hindex => ?_
  have hlt : index < 8 := Nat.lt_trans (List.mem_range.1 hindex) (by decide)
  by_cases hgroup : m.group index = 0
  · simp [groupWord?_of_empty, Option.guard, hgroup]
  · simp [groupWord?_of_nonempty, Option.guard, hgroup, groupOf_maskWord hlt]

end Capability

namespace Capabilities

namespace Reading

variable {r r' : Reading} {rest : List UInt32}

/-- A word that is no range word is taken by itself. -/
theorem run_cons (h : Descriptor.ofWord word ≠ .mapRange) : run coreCount r (word :: rest) =
    match r.accept coreCount word (Descriptor.ofWord word) with
    | .ok r => run coreCount r rest
    | .error e => .error e := by
  cases haccept : r.accept coreCount word (Descriptor.ofWord word) <;> simp [run, h, haccept]

/-- A group that was not taken and has no call beyond the last is taken. -/
theorem accept_callMask_ok (hseen : index ∉ r.masksSeen) (hcalls : ∀ id ∈ callsOf index calls, id < supervisorCallCount) :
    r.accept coreCount word (.callMask index calls) = .ok { r with
      masksSeen := index :: r.masksSeen
      granted := { r.granted with callMask := (callsOf index calls).foldl CallMask.insert r.granted.callMask } } := by
  rw [accept, if_neg (by simpa using hseen), if_neg]
  rw [Bool.not_eq_true, List.any_eq_false]
  exact fun id hid => by simpa using hcalls id hid

/-- The words of groups that were not taken grant their calls on top of what was granted. -/
theorem run_maskWords (m : CallMask) {indices : List Nat} (hnodup : indices.Nodup) (hlt : ∀ index ∈ indices, index < 8)
    (hseen : ∀ index ∈ indices, index ∉ r.masksSeen) :
    run coreCount r (indices.filterMap (groupWord? m)) = .ok { r.granted with
      callMask := (indices.flatMap fun index => callsOf index (m.group index)).foldl CallMask.insert r.granted.callMask } := by
  induction indices generalizing r with
  | nil => rfl
  | cons index rest ih =>
    obtain ⟨hfirst, hrest⟩ := List.nodup_cons.1 hnodup
    rw [List.forall_mem_cons] at hlt hseen
    rw [List.flatMap_cons, List.foldl_append]
    by_cases hgroup : m.group index = 0
    · rw [List.filterMap_cons_none (groupWord?_of_empty hgroup), ih hrest hlt.2 hseen.2, hgroup, CallMask.callsOf_zero]
      rfl
    · rw [List.filterMap_cons_some (groupWord?_of_nonempty hgroup), run_cons (by simp [ofWord_maskWord m hlt.1]),
        ofWord_maskWord m hlt.1, accept_callMask_ok hseen.1
          fun id hid => CallMask.lt_of_contains ((CallMask.mem_callsOf_group m index id).1 hid).2]
      refine ih hrest hlt.2 fun other hother hm => ?_
      rcases List.mem_cons.1 hm with rfl | hm
      · exact hfirst hother
      · exact hseen.2 other hother hm

end Reading

/-- Nothing else than the calls of the mask is granted by all its groups. -/
theorem insert_groups (m : CallMask) : ((List.range CallMask.groupCount).flatMap fun index => callsOf index (m.group index)).foldl
    CallMask.insert CallMask.empty = m := by
  refine CallMask.ext_contains fun id => ?_
  rw [Bool.eq_iff_iff, CallMask.contains_insertAll, CallMask.contains_empty, List.mem_flatMap]
  constructor
  · rintro (h | ⟨⟨index, -, hid⟩, -⟩)
    · cases h
    · exact ((CallMask.mem_callsOf_group m index id).1 hid).2
  · intro hid
    have hlt := CallMask.lt_of_contains hid
    refine .inr ⟨⟨id / callsPerDescriptor, List.mem_range.2 ?_, (CallMask.mem_callsOf_group m _ id).2 ⟨rfl, hid⟩⟩, hlt⟩
    exact Nat.lt_of_le_of_lt (Nat.div_le_div_right (Nat.le_of_lt_succ hlt)) (by decide)

/-- The words of a mask are read on every machine, as the mask and as nothing else; they are about different groups, and no group is
empty. A mask of listed calls has those of them that there are. -/
theorem parse_toDescriptors (m : CallMask) (coreCount : Nat) :
    parse m.toDescriptors coreCount = .ok { callMask := m } ∧
    (∀ word ∈ m.toDescriptors, HasKind word callMaskKind ∧ bits word.toNat 5 callsPerDescriptor ≠ 0) ∧
    (m.toDescriptors.map groupOf).Nodup ∧
    ∀ ids id, (CallMask.ofList ids).contains id = true ↔ id < supervisorCallCount ∧ id ∈ ids := by
  refine ⟨?_, fun word hword => ?_, ?_, CallMask.contains_ofList⟩
  · have hlt : ∀ index ∈ List.range CallMask.groupCount, index < 8 := by decide
    rw [parse, toDescriptors_eq, Reading.run_maskWords m List.nodup_range hlt fun _ _ => List.not_mem_nil, insert_groups]
  · obtain ⟨index, -, hgroup, rfl⟩ := exists_of_mem_toDescriptors hword
    exact ⟨hasKind_maskWord _ _, by rwa [calls_maskWord _ (group_lt m index)]⟩
  · rw [map_groupOf_toDescriptors]
    exact List.nodup_range.filter _

/-- Calls on both sides of borders of groups and of the halves of the mask, the last one, and one that there is not. -/
def straddlingCalls : List Nat := [23, 24, 63, 64, 119, 120, 127, 128]

/-- Calls on both sides of a group's border come out of two words. -/
theorem parse_toDescriptors_straddlingCalls :
    (0x4030000F ∈ (CallMask.ofList straddlingCalls).toDescriptors ∧ HasKind 0x4030000F callMaskKind ∧
      bits (0x4030000F : UInt32).toNat 5 callsPerDescriptor ≠ 0) ∧
    parse (CallMask.ofList straddlingCalls).toDescriptors 0 = .ok { callMask := CallMask.ofList straddlingCalls } ∧
    (CallMask.ofList straddlingCalls).contains 127 = true ∧ (CallMask.ofList straddlingCalls).contains 128 = false := by
  obtain ⟨hparse, hwords, -, hlisted⟩ := parse_toDescriptors (CallMask.ofList straddlingCalls) 0
  have hword : 0x4030000F ∈ (CallMask.ofList straddlingCalls).toDescriptors := by decide
  refine ⟨⟨hword, hwords _ hword⟩, hparse, (hlisted _ _).2 (by decide), ?_⟩
  rw [← Bool.not_eq_true, hlisted]
  decide

/-- A group without calls has no word. -/
example : (CallMask.ofList straddlingCalls).toDescriptors.map groupOf = [0, 1, 2, 4, 5] := by decide

end Capabilities

end Microkernel
