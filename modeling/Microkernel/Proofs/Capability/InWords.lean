import Mathlib.Data.Nat.Bitwise
import Microkernel.Proofs.Capability.Grammar

/-!
# Capabilities in words

Descriptors are 32-bit words, masks are 64-bit ones, and a sum, product or shift that leaves its word stops whoever takes it. Here all of
them stand where they are taken (`parseInWords`), and what is read comes out as if numbers had no end (`parseInWords_eq`): nothing
leaves its word but the shift by the first core of a range, which reading reports.
-/

namespace Microkernel

open Capability

/-! ## Arithmetic of words -/

section Arithmetic

variable {width a b places : Nat}

/-- A sum in a word of some width. -/
def sum? (width a b : Nat) : Option Nat := if a + b < widthLimit width then some (a + b) else none

def difference? (a b : Nat) : Option Nat := if b ≤ a then some (a - b) else none

def product? (width a b : Nat) : Option Nat := if a * b < widthLimit width then some (a * b) else none

/-- A shift to the left, by less than the whole word; bits that leave the word are lost. -/
def shift? (width a places : Nat) : Option Nat :=
  if places < width then some (a * widthLimit places % widthLimit width) else none

/-- A sum that fits is the sum. -/
theorem sum?_eq (h : a + b < widthLimit width) : sum? width a b = some (a + b) := if_pos h

/-- A difference of ordered numbers is their difference. -/
theorem difference?_eq (h : b ≤ a) : difference? a b = some (a - b) := if_pos h

/-- A product that fits is the product. -/
theorem product?_eq (h : a * b < widthLimit width) : product? width a b = some (a * b) := if_pos h

/-- A shift by less than the width is a product cut to the width. -/
theorem shift?_eq (h : places < width) : shift? width a places = some (a * widthLimit places % widthLimit width) := if_pos h

/-- A shift by the width or more is none. -/
theorem shift?_eq_none (h : width ≤ places) : shift? width a places = none := if_neg (Nat.not_lt.2 h)

/-- A single bit within the word is not lost. -/
theorem shift?_one (h : places < width) : shift? width 1 places = some (2 ^ places) := by
  rw [shift?_eq h, Nat.one_mul]
  exact congrArg some (Nat.mod_eq_of_lt (Nat.pow_lt_pow_right (by decide) h))

end Arithmetic

/-! ## Reading in words -/

/-- A row of ones in a 64-bit word; a longer one fills the word. -/
def ones? (count : Nat) : Option Nat := if 64 ≤ count then some (widthLimit 64 - 1) else do difference? (← shift? 64 1 count) 1

/-- Words of ones have at most 64 of them. -/
theorem ones?_eq (count : Nat) : ones? count = some (2 ^ min count 64 - 1) := by
  rw [ones?]
  split
  · next hfull =>
    rw [Nat.min_eq_right hfull]
    rfl
  · next hpart =>
    rw [shift?_one (Nat.not_le.1 hpart), Nat.min_eq_left (Nat.le_of_not_le hpart)]
    exact difference?_eq Nat.one_le_two_pow

/-- The mask of positions `low` to `high`, whose length is counted in a 32-bit word. -/
def Capabilities.rangeMask? (low high : Nat) : Option Nat := do
  let count ← sum? 32 (← difference? high low) 1
  shift? 64 (← ones? count) low

/-- The number of a call of a group. -/
def callNumber? (index bit : Nat) : Option Nat := do sum? 32 (← product? 32 index callsPerDescriptor) bit

/-- The number of a call of a mask is a word. -/
theorem callNumber?_eq {index bit : Nat} (hindex : index < 8) (hbit : bit < callsPerDescriptor) :
    callNumber? index bit = some (index * callsPerDescriptor + bit) := by
  have hwidth : callsPerDescriptor = 24 := rfl
  have hlimit : widthLimit 32 = 4294967296 := rfl
  rw [callNumber?, product?_eq (by rw [hwidth, hlimit]; omega)]
  exact sum?_eq (by rw [hwidth, hlimit]; omega)

/-- Permits a call, whose bit is put into one of the two 64-bit words of the mask. -/
def CallMask.insert? (m : CallMask) (id : Nat) : Option CallMask :=
  if id < supervisorCallCount then do
    let place ← shift? 64 1 (id % 64)
    return ⟨m.calls ||| BitVec.ofNat 128 place <<< (64 * (id / 64))⟩
  else return m

namespace Capabilities

/-- Arithmetic that stops the reading of a word if it leaves a word. -/
def inWord {α : Type} (word : UInt32) : Option α → Except CapabilityError α
  | some a => .ok a
  | none => .error (.overflow word)

/-- Grants those of a group's calls whose bits are set, one after the other. -/
def grantCalls (word : UInt32) (index calls : Nat) : List Nat → CallMask → Except CapabilityError CallMask
  | [], m => .ok m
  | bit :: rest, m => do
    let place ← inWord word (shift? 32 1 bit)
    if calls &&& place = 0 then grantCalls word index calls rest m
    else
      let id ← inWord word (callNumber? index bit)
      if supervisorCallCount ≤ id then .error (.reservedValue word)
      else grantCalls word index calls rest (← inWord word (m.insert? id))

/-- Adds one word that stands alone. -/
def Reading.acceptInWords (coreCount : Nat) (r : Reading) (word : UInt32) : Descriptor → Except CapabilityError Reading
  | .corePriority lowest highest minCore maxCore =>
    if r.corePrioritySeen then .error (.invalidCombination word)
    else if lowest < highest ∨ maxCore < minCore then .error (.invalidCombination word)
    else if coreCount ≤ maxCore then .error (.invalidCpuCore word)
    else do
      let priorityMask ← inWord word (rangeMask? highest lowest)
      let coreMask ← inWord word (rangeMask? minCore maxCore)
      return { r with corePrioritySeen := true, granted := { r.granted with priorityMask, coreMask } }
  | .callMask index calls => do
    -- the groups seen so far are bits of a word
    let _ ← inWord word (shift? 32 1 index)
    if r.masksSeen.contains index then .error (.invalidCombination word)
    else
      let callMask ← grantCalls word index calls (List.range callsPerDescriptor) r.granted.callMask
      return { r with masksSeen := index :: r.masksSeen, granted := { r.granted with callMask } }
  | descriptor => r.accept coreCount word descriptor

/-- Reads the words one by one; a range word takes the range word behind it along. -/
def Reading.runInWords (coreCount : Nat) : Reading → List UInt32 → Except CapabilityError Capabilities
  | r, [] => .ok r.granted
  | r, word :: rest =>
    match Descriptor.ofWord word, rest with
    | .mapRange, next :: rest =>
      if Descriptor.ofWord next = .mapRange then runInWords coreCount r rest else .error (.invalidCombination word)
    | .mapRange, [] => .error (.invalidCombination word)
    | descriptor, rest =>
      match r.acceptInWords coreCount word descriptor with
      | .ok r => runInWords coreCount r rest
      | .error e => .error e

/-- The capabilities that a list of words grants, by arithmetic in words. -/
def parseInWords (words : List UInt32) (coreCount : Nat) : Except CapabilityError Capabilities :=
  Reading.runInWords coreCount {} words

/-! ### What leaves its word -/

variable {low high : Nat}

/-- A mask leaves its word if the range begins beyond it, and only then. -/
theorem rangeMask?_eq (hle : low ≤ high) (hhigh : high < 256) :
    rangeMask? low high = if low < 64 then some (rangeMask low high) else none := by
  have hcount : high - low + 1 < widthLimit 32 := Nat.lt_of_lt_of_le (show _ < 257 by omega) (by decide)
  have hrange : rangeMask? low high = shift? 64 (2 ^ min (high - low + 1) 64 - 1) low := by
    rw [rangeMask?, difference?_eq hle]
    change (sum? 32 (high - low) 1 >>= fun count => ones? count >>= (shift? 64 · low)) = _
    rw [sum?_eq hcount]
    change (ones? (high - low + 1) >>= (shift? 64 · low)) = _
    rw [ones?_eq]
    rfl
  rw [hrange]
  split
  · next hlt =>
    rw [shift?_eq hlt]
    refine congrArg some (Nat.eq_of_testBit_eq fun i => ?_)
    change ((2 ^ min (high - low + 1) 64 - 1) * 2 ^ low % 2 ^ 64).testBit i = ((2 ^ (high - low + 1) - 1) * 2 ^ low % 2 ^ 64).testBit i
    simp only [Nat.testBit_mod_two_pow, Nat.testBit_mul_two_pow, Nat.testBit_two_pow_sub_one]
    -- the ones that the row is short of would be shifted out
    rw [Bool.eq_iff_iff]
    simp only [Bool.and_eq_true, decide_eq_true_eq]
    omega
  · next hge => exact shift?_eq_none (Nat.not_lt.1 hge)

end Capabilities

/-- The bit of a call is in the word of the mask. -/
theorem CallMask.insert?_eq (m : CallMask) (id : Nat) : m.insert? id = some (m.insert id) := by
  rw [CallMask.insert?, CallMask.insert]
  split
  · next hlt =>
    rw [shift?_one (Nat.mod_lt id (by decide))]
    have hplace : BitVec.ofNat 128 (2 ^ (id % 64)) <<< (64 * (id / 64)) = BitVec.twoPow 128 id := by
      refine BitVec.eq_of_getLsbD_eq fun i hi => ?_
      have hcount : supervisorCallCount = 128 := rfl
      rw [BitVec.getLsbD_shiftLeft, BitVec.getLsbD_ofNat, BitVec.getLsbD_twoPow, Nat.testBit_two_pow]
      rw [Bool.eq_iff_iff]
      simp only [Bool.and_eq_true, Bool.not_eq_true', decide_eq_true_eq, decide_eq_false_iff_not]
      omega
    exact congrArg (fun place => some (CallMask.mk (m.calls ||| place))) hplace
  · rfl

namespace Capabilities

variable {index calls : Nat} {word : UInt32}

/-- Granting the calls of a group one after the other, no number leaves its word. -/
theorem grantCalls_eq (hindex : index < 8) {places : List Nat} (hplaces : ∀ bit ∈ places, bit < callsPerDescriptor) (m : CallMask) :
    grantCalls word index calls places m =
      if ((places.filter calls.testBit).map (index * callsPerDescriptor + ·)).any (supervisorCallCount ≤ ·) then
        .error (.reservedValue word)
      else .ok (((places.filter calls.testBit).map (index * callsPerDescriptor + ·)).foldl CallMask.insert m) := by
  induction places generalizing m with
  | nil => rfl
  | cons bit rest ih =>
    obtain ⟨hbit, hrest⟩ := List.forall_mem_cons.1 hplaces
    rw [grantCalls, shift?_one (Nat.lt_trans hbit (by decide)), callNumber?_eq hindex hbit]
    change (if calls &&& 2 ^ bit = 0 then grantCalls word index calls rest m
      else if supervisorCallCount ≤ index * callsPerDescriptor + bit then .error (.reservedValue word)
        else inWord word (m.insert? (index * callsPerDescriptor + bit)) >>= grantCalls word index calls rest) = _
    rw [CallMask.insert?_eq]
    change (if calls &&& 2 ^ bit = 0 then grantCalls word index calls rest m
      else if supervisorCallCount ≤ index * callsPerDescriptor + bit then .error (.reservedValue word)
        else grantCalls word index calls rest (m.insert (index * callsPerDescriptor + bit))) = _
    have hset : calls &&& 2 ^ bit = 0 ↔ calls.testBit bit = false := by
      rw [Nat.and_two_pow]
      cases calls.testBit bit <;> simp
    by_cases hclear : calls.testBit bit = false
    · rw [if_pos (hset.2 hclear), ih hrest, List.filter_cons_of_neg (by simp [hclear])]
    · rw [if_neg (hclear ∘ hset.1), ih hrest, List.filter_cons_of_pos (by simpa using hclear)]
      by_cases hlast : supervisorCallCount ≤ index * callsPerDescriptor + bit <;> simp [hlast]

/-- A word is taken, or refused, as it is by arithmetic without an end. -/
theorem acceptInWords_eq (coreCount : Nat) (r : Reading) (word : UInt32) :
    r.acceptInWords coreCount word (Descriptor.ofWord word) = r.accept coreCount word (Descriptor.ofWord word) := by
  rcases Descriptor.ofWord_cases word with
    ⟨-, hw⟩ | ⟨-, hw⟩ | ⟨-, hw⟩ | ⟨-, hw⟩ | ⟨-, hw⟩ | ⟨-, hw⟩ | ⟨-, hw⟩ | ⟨-, hw⟩ | ⟨-, hw⟩
  case inl =>
    have hlowest : lowestOf word < 64 := Nat.mod_lt _ (by decide)
    have hmax : maxCoreOf word < 256 := Nat.mod_lt _ (by decide)
    rw [hw, Reading.acceptInWords, Reading.accept]
    split
    · rfl
    split
    · rfl
    next hrange =>
    obtain ⟨hpriorities, hcores⟩ := not_or.1 hrange
    split
    · rfl
    rw [rangeMask?_eq (Nat.not_lt.1 hpriorities) (by omega), if_pos (by omega), rangeMask?_eq (Nat.not_lt.1 hcores) hmax]
    by_cases hmin : minCoreOf word < 64
    · rw [if_pos hmin, if_neg (Nat.not_le.2 hmin)]
      rfl
    · rw [if_neg hmin, if_pos (Nat.not_lt.1 hmin)]
      rfl
  case inr.inl =>
    have hindex : groupOf word < 8 := Nat.mod_lt _ (by decide)
    rw [hw, Reading.acceptInWords, Reading.accept, shift?_one (by omega), grantCalls_eq hindex fun _ => List.mem_range.1]
    change (if r.masksSeen.contains (groupOf word) then _ else _) = _
    refine if_congr Iff.rfl rfl ?_
    rw [← callsOf]
    split <;> rfl
  all_goals
    rw [hw]
    rfl

/-- Reading a list in words of the program never overflows where plain numbers do not, and gives the same. -/
theorem parseInWords_eq (words : List UInt32) (coreCount : Nat) : parseInWords words coreCount = parse words coreCount := by
  suffices h : ∀ r, Reading.runInWords coreCount r words = Reading.run coreCount r words from h {}
  intro r
  fun_induction Reading.run coreCount r words with
  | case1 r => rfl
  | case2 r word next rest hw hn ih => simp [Reading.runInWords, hw, hn, ih]
  | case3 r word next rest hw hn => simp [Reading.runInWords, hw, hn]
  | case4 r word hw => simp [Reading.runInWords, hw]
  | case5 r word rest r' hpair hlast haccept ih =>
    rw [← acceptInWords_eq] at haccept
    rw [Reading.runInWords]
    · rw [haccept]
      exact ih
    · exact hpair
    · exact hlast
  | case6 r word rest e hpair hlast haccept =>
    rw [← acceptInWords_eq] at haccept
    rw [Reading.runInWords]
    · rw [haccept]
    · exact hpair
    · exact hlast

end Capabilities

end Microkernel
