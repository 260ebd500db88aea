import Mathlib.Data.List.Forall2
import Microkernel.Proofs.Service.Registration
import Microkernel.Proofs.Wire.Commands

/-!
# Arguments and where they are looked for

A client appends the numbers of a request one right behind the other, but a handler looks for each of them at the next multiple of
its size. What is read is what was written exactly if every number stands where it is looked for; and it does so whatever the values
are exactly if every number was appended at a multiple of its size (`delivers_iff`).
-/

namespace Microkernel

namespace Wire

/-- Bytes are the little-endian bytes of the number they stand for. -/
theorem littleEndian_ofLittleEndian (bytes : Bytes) : littleEndian bytes.length (ofLittleEndian bytes) = bytes := by
  induction bytes with
  | nil => rfl
  | cons b rest ih =>
    have hb := b.toNat_lt
    have hlow : UInt8.ofNat (b.toNat + 256 * ofLittleEndian rest) = b := by
      rw [← UInt8.toNat_inj, UInt8.toNat_ofNat']
      omega
    have hhigh : (b.toNat + 256 * ofLittleEndian rest) / 256 = ofLittleEndian rest := by omega
    rw [List.length_cons, ofLittleEndian, littleEndian, hlow, hhigh, ih]

/-- A multiple of the unit is aligned already. -/
theorem alignUp_of_dvd {offset unit : Nat} (hunit : 0 < unit) (h : unit ∣ offset) : alignUp offset unit = offset := by
  obtain ⟨k, rfl⟩ := h
  rw [alignUp, Nat.mul_add_div hunit, Nat.div_eq_of_lt (by omega), Nat.add_zero, Nat.mul_comm]

/-! ## Numbers -/

/-- A number that a client appends to its arguments. -/
inductive Number
  | word (value : UInt32)
  | longWord (value : UInt64)
  deriving DecidableEq, Repr

namespace Number

def argument : Number → Argument
  | word value => .word value
  | longWord value => .longWord value

def bytes (n : Number) : Bytes := n.argument.bytes

def size : Number → Nat
  | word _ => 4
  | longWord _ => 8

def toNat : Number → Nat
  | word value => value.toNat
  | longWord value => value.toNat

/-- One, as a number of the same size. -/
def one : Number → Number
  | word _ => word 1
  | longWord _ => longWord 1

variable (n : Number)

/-- The bytes of a number are its value in little-endian order. -/
theorem bytes_eq : n.bytes = littleEndian n.size n.toNat := by cases n <;> rfl

/-- A number has as many bytes as its size. -/
@[simp] theorem length_bytes : n.bytes.length = n.size := by rw [bytes_eq, length_littleEndian]

@[simp] theorem size_one : n.one.size = n.size := by cases n <;> rfl

/-- No number is without bytes. -/
theorem size_pos : 0 < n.size := by cases n <;> exact Nat.succ_pos _

/-- The size of a number is a multiple of four. -/
theorem four_dvd_size : 4 ∣ n.size := by
  cases n with
  | word _ => exact Nat.dvd_refl 4
  | longWord _ => exact ⟨2, rfl⟩

/-- The value of a number fits its size. -/
theorem toNat_lt : n.toNat < widthLimit (8 * n.size) := by
  cases n with
  | word value => exact value.toNat_lt
  | longWord value => exact value.toNat_lt

/-- A number is read off the bytes that it was written as, and off no others. -/
theorem prefix_drop_iff (payload : Bytes) (place : Nat) : n.bytes <+: payload.drop place ↔
    place + n.size ≤ payload.length ∧ ofLittleEndian ((payload.drop place).take n.size) = n.toNat := by
  constructor
  · rintro ⟨rest, h⟩
    have hlen := congrArg List.length h
    have hpos := n.size_pos
    rw [List.length_append, length_bytes, List.length_drop] at hlen
    refine ⟨by omega, ?_⟩
    rw [← h, List.take_left' n.length_bytes, bytes_eq, ofLittleEndian_littleEndian, Nat.mod_eq_of_lt n.toNat_lt]
  · rintro ⟨hroom, hvalue⟩
    have hlen : ((payload.drop place).take n.size).length = n.size := by
      rw [List.length_take, List.length_drop]
      omega
    have hbytes := littleEndian_ofLittleEndian ((payload.drop place).take n.size)
    rw [hlen, hvalue, ← bytes_eq] at hbytes
    rw [hbytes]
    exact List.take_prefix _ _

end Number

/-! ## Places -/

/-- Where numbers of these sizes stand if they are appended behind `offset` bytes. -/
def writtenAt (offset : Nat) : List Nat → List Nat
  | [] => []
  | size :: rest => offset :: writtenAt (offset + size) rest

/-- Where numbers of these sizes are looked for by a handler that has read as far as `cursor`. -/
def soughtAt (cursor : Nat) : List Nat → List Nat
  | [] => []
  | size :: rest => alignUp cursor size :: soughtAt (alignUp cursor size + size) rest

/-- Every number stands in the payload at its place. -/
def Stand (payload : Bytes) (numbers : List Number) (places : List Nat) : Prop :=
  List.Forall₂ (fun n place => n.bytes <+: payload.drop place) numbers places

instance (payload : Bytes) (numbers : List Number) (places : List Nat) : Decidable (Stand payload numbers places) :=
  inferInstanceAs (Decidable (List.Forall₂ _ _ _))

/-- Numbers stand in a payload if the first stands at its place and the others at theirs. -/
theorem stand_cons {payload : Bytes} {n : Number} {numbers : List Number} {place : Nat} {places : List Nat} :
    Stand payload (n :: numbers) (place :: places) ↔ n.bytes <+: payload.drop place ∧ Stand payload numbers places :=
  List.forall₂_cons

/-- Numbers of these sizes are appended at multiples of their sizes. -/
def Aligned (offset : Nat) (sizes : List Nat) : Prop := List.Forall₂ (· ∣ ·) sizes (writtenAt offset sizes)

instance (offset : Nat) (sizes : List Nat) : Decidable (Aligned offset sizes) := inferInstanceAs (Decidable (List.Forall₂ _ _ _))

/-- Numbers are aligned if the first is and the others are behind it. -/
theorem aligned_cons {offset size : Nat} {rest : List Nat} :
    Aligned offset (size :: rest) ↔ size ∣ offset ∧ Aligned (offset + size) rest := List.forall₂_cons

/-- Numbers that are appended at multiples of their sizes are looked for where they stand. -/
theorem soughtAt_of_aligned {numbers : List Number} {offset : Nat} (h : Aligned offset (numbers.map Number.size)) :
    soughtAt offset (numbers.map Number.size) = writtenAt offset (numbers.map Number.size) := by
  induction numbers generalizing offset with
  | nil => rfl
  | cons n rest ih =>
    obtain ⟨hn, hrest⟩ := aligned_cons.1 h
    rw [List.map_cons, soughtAt, writtenAt, alignUp_of_dvd n.size_pos hn, ih hrest]

/-- Numbers stand where they are appended. -/
theorem stand_writtenAt (before : Bytes) (numbers : List Number) (behind : Bytes) :
    Stand (before ++ (numbers.flatMap Number.bytes ++ behind)) numbers (writtenAt before.length (numbers.map Number.size)) := by
  induction numbers generalizing before with
  | nil => exact .nil
  | cons n rest ih =>
    constructor
    · rw [List.drop_left, List.flatMap_cons, List.append_assoc]
      exact List.prefix_append _ _
    · have h := ih (before ++ n.bytes)
      rwa [List.length_append, n.length_bytes, List.append_assoc, ← List.append_assoc n.bytes] at h

/-- A long word that is not at a multiple of its size is looked for at its upper half. -/
theorem not_prefix_of_not_dvd (before behind : Bytes) (h4 : 4 ∣ before.length) (h8 : ¬8 ∣ before.length) :
    ¬(Number.longWord 1).bytes <+: (before ++ ((Number.longWord 1).bytes ++ behind)).drop (alignUp before.length 8) := by
  have hplace : alignUp before.length 8 = before.length + 4 := by
    unfold alignUp
    omega
  rw [hplace, ← List.drop_drop, List.drop_left]
  rintro ⟨rest, h⟩
  have hfirst : some (1 : UInt8) = some 0 := congrArg List.head? h
  exact absurd hfirst (by decide)

/-- If ones are found where they are looked for, they were appended at multiples of their sizes. -/
theorem aligned_of_stand_ones (before : Bytes) {behind : Bytes} {numbers : List Number} (h4 : 4 ∣ before.length)
    (h : Stand (before ++ ((numbers.map Number.one).flatMap Number.bytes ++ behind)) (numbers.map Number.one)
      (soughtAt before.length (numbers.map Number.size))) : Aligned before.length (numbers.map Number.size) := by
  induction numbers generalizing before with
  | nil => exact .nil
  | cons n rest ih =>
    obtain ⟨hn, hrest⟩ := stand_cons.1 h
    have hdvd : n.size ∣ before.length := by
      cases n with
      | word value => exact h4
      | longWord value =>
        by_contra h8
        refine not_prefix_of_not_dvd before ((rest.map Number.one).flatMap Number.bytes ++ behind) h4 h8 ?_
        rwa [List.map_cons, List.flatMap_cons, List.append_assoc] at hn
    have hlen : (before ++ n.one.bytes).length = before.length + n.size := by simp
    have h4' : 4 ∣ (before ++ n.one.bytes).length := by
      rw [hlen]
      exact Nat.dvd_add h4 n.four_dvd_size
    refine aligned_cons.2 ⟨hdvd, hlen ▸ ih (before ++ n.one.bytes) h4' ?_⟩
    rw [alignUp_of_dvd n.size_pos hdvd] at hrest
    rw [hlen]
    rwa [List.map_cons, List.flatMap_cons, List.append_assoc, ← List.append_assoc before] at hrest

/-! ## Requests -/

/-- Whether a message fits depends on how long its data section is, not on what it holds. -/
theorem Message.Fits.with_data {m : Message} (h : m.Fits) (data : Bytes) (hlen : data.length = m.data.length) :
    Message.Fits { m with data } := by
  have hbody : ({ m with data } : Message).bodyBytes.length = m.bodyBytes.length := by
    rw [length_bodyBytes, length_bodyBytes, hlen]
    rfl
  have hstart : ({ m with data } : Message).listStart = m.listStart := by
    unfold listStart
    rw [hbody]
  have himage : ({ m with data } : Message).image.length = m.image.length := by
    simp only [image, List.length_append, listGap, length_zeros, hstart, hbody]
  exact { h with
    data := hlen ▸ h.data
    start := by
      rw [hbody, hstart]
      exact h.start
    size := himage.trans_le h.size }

namespace RequestDescription

/-- The request with these numbers as its arguments. -/
def carrying (r : RequestDescription) (numbers : List Number) : RequestDescription :=
  { r with arguments := numbers.map Number.argument }

variable {r : RequestDescription} {numbers others : List Number}

/-- The payload of a request that carries numbers is their bytes in a row. -/
theorem payload_carrying (r : RequestDescription) (numbers : List Number) :
    (r.carrying numbers).payload = numbers.flatMap Number.bytes := List.flatMap_map ..

/-- Such a payload is as long as the sizes of the numbers together. -/
theorem length_payload_carrying (r : RequestDescription) (numbers : List Number) :
    (r.carrying numbers).payload.length = (numbers.map Number.size).sum := by
  simp [payload_carrying, List.length_flatMap]

/-- Numbers of the same sizes fit a message buffer together. -/
theorem fits_carrying (h : (r.carrying numbers).message.Fits) (hsizes : others.map Number.size = numbers.map Number.size) :
    (r.carrying others).message.Fits := by
  refine h.with_data (r.carrying others).message.data ?_
  rw [show (r.carrying others).message.data.length = reservedSize (r.carrying others).payload from length_frameData _ _ _,
    show (r.carrying numbers).message.data.length = reservedSize (r.carrying numbers).payload from length_frameData _ _ _,
    reservedSize, reservedSize, length_payload_carrying, length_payload_carrying, hsizes]

end RequestDescription

end Wire

/-! ## Reading -/

namespace Call

open Wire

/-- Reads numbers of these sizes, one after the other. -/
def readNumbers (sizes : List Nat) : Handler (List Nat) := sizes.mapM readNumber

/-- A number is read where it is looked for, if it is there whole. -/
theorem run_readNumber (size : Nat) (c : Call) (s : Machine) : (readNumber size).run.run c s =
    if alignUp c.cursor size + size ≤ c.request.payload.length then
      ((.ok (ofLittleEndian ((c.request.payload.drop (alignUp c.cursor size)).take size)),
        { c with cursor := alignUp c.cursor size + size }), s)
    else ((.error (.error (.result .invalidHeaderSize)), c), s) := by
  rw [readNumber, Handler.run_bind, readAligned, Handler.run_look]
  dsimp only
  by_cases hroom : alignUp c.cursor size + size ≤ c.request.payload.length
  · rw [if_pos hroom, if_pos hroom]
    rfl
  · rw [if_neg hroom, if_neg hroom]
    rfl

/-- A handler reads numbers off a payload exactly if each stands where it is looked for. -/
theorem readNumbers_eq_ok_iff (numbers : List Number) (c : Call) (s : Machine) :
    ((readNumbers (numbers.map Number.size)).run.run c s).1.1 = .ok (numbers.map Number.toNat) ↔
      Stand c.request.payload numbers (soughtAt c.cursor (numbers.map Number.size)) := by
  induction numbers generalizing c with
  | nil => exact ⟨fun _ => .nil, fun _ => rfl⟩
  | cons n rest ih =>
    have hsplit : (readNumbers ((n :: rest).map Number.size)).run.run c s =
        (readNumber n.size >>= fun value =>
          readNumbers (rest.map Number.size) >>= fun values => pure (value :: values)).run.run c s := by
      rw [readNumbers, List.map_cons, List.mapM_cons]
      rfl
    rw [hsplit, Handler.run_bind, run_readNumber, List.map_cons, List.map_cons, soughtAt, stand_cons,
      Number.prefix_drop_iff]
    by_cases hroom : alignUp c.cursor n.size + n.size ≤ c.request.payload.length
    · rw [if_pos hroom]
      have hrest := ih { c with cursor := alignUp c.cursor n.size + n.size }
      dsimp only at hrest ⊢
      rw [Handler.run_bind]
      generalize (readNumbers (rest.map Number.size)).run.run _ s = answer at hrest ⊢
      obtain ⟨⟨result, c'⟩, t⟩ := answer
      rw [and_iff_right hroom]
      cases result with
      | error e => exact ⟨nofun, fun h => absurd (hrest.2 h.2) nofun⟩
      | ok values =>
        rw [← hrest]
        change Except.ok (_ :: values) = _ ↔ _ ∧ Except.ok values = _
        rw [Except.ok.injEq, Except.ok.injEq, List.cons.injEq]
    · rw [if_neg hroom]
      exact ⟨nofun, fun h => absurd h.1.1 hroom⟩

end Call

namespace Wire.RequestDescription

variable {r : RequestDescription} {numbers others : List Number}

/-- The numbers reach the handler: the request that carries them has an image, and whoever handles what is read of that image and reads
numbers of their sizes, in their order, gets them. -/
def Delivers (r : RequestDescription) (numbers : List Number) : Prop :=
  ∃ image q, (r.carrying numbers).encode = .ok image ∧ Request.parse image = .ok q ∧
    ∀ (c : Call) (s : Machine), c.request = q → c.cursor = 0 →
      ((Call.readNumbers (numbers.map Number.size)).run.run c s).1.1 = .ok (numbers.map Number.toNat)

/-- The argument bytes that a handler of the request finds. -/
def payloadCarrying (r : RequestDescription) (numbers : List Number) : Bytes := (r.carrying numbers).onWire.payload

/-- The argument bytes that a handler finds begin with those of the numbers. -/
theorem payloadCarrying_eq (r : RequestDescription) (numbers : List Number) :
    ∃ behind, r.payloadCarrying numbers = [] ++ (numbers.flatMap Number.bytes ++ behind) := by
  refine ⟨zeros (frameSlack (r.carrying numbers).envelope.computeDataOffset (r.carrying numbers).payload), ?_⟩
  rw [List.nil_append, ← payload_carrying r]
  rfl

/-- Numbers of a request that fits are delivered exactly if each stands where it is looked for. -/
theorem delivers_iff_stand (h : (r.carrying numbers).message.Fits) :
    r.Delivers numbers ↔ Stand (r.payloadCarrying numbers) numbers (soughtAt 0 (numbers.map Number.size)) := by
  have hencode : (r.carrying numbers).encode = .ok (r.carrying numbers).message.image := (Message.encode_eq_ok_iff _ _).2 ⟨h, rfl⟩
  constructor
  · rintro ⟨image, q, himage, hq, hread⟩
    obtain rfl := Except.ok.inj (hencode.symm.trans himage)
    obtain rfl := Except.ok.inj ((parse_image h).symm.trans hq)
    exact (Call.readNumbers_eq_ok_iff numbers { (default : Call) with request := (r.carrying numbers).onWire } default).1
      (hread _ _ rfl rfl)
  · intro hstand
    refine ⟨_, _, hencode, parse_image h, fun c s hq hcursor => (Call.readNumbers_eq_ok_iff numbers c s).2 ?_⟩
    rw [hq, hcursor]
    exact hstand

/-- Numbers that are appended at multiples of their sizes are delivered. -/
theorem delivers_of_aligned (h : (r.carrying numbers).message.Fits) (haligned : Aligned 0 (numbers.map Number.size)) :
    r.Delivers numbers := by
  obtain ⟨behind, hpayload⟩ := r.payloadCarrying_eq numbers
  rw [delivers_iff_stand h, soughtAt_of_aligned haligned, hpayload]
  exact stand_writtenAt [] numbers behind

/-- Numbers whose sizes are delivered whatever the values are appended at multiples of their sizes. -/
theorem aligned_of_delivers_ones (h : (r.carrying numbers).message.Fits) (hones : r.Delivers (numbers.map Number.one)) :
    Aligned 0 (numbers.map Number.size) := by
  have hsizes : (numbers.map Number.one).map Number.size = numbers.map Number.size := by simp
  obtain ⟨behind, hpayload⟩ := r.payloadCarrying_eq (numbers.map Number.one)
  rw [delivers_iff_stand (fits_carrying h hsizes), hpayload, hsizes] at hones
  exact aligned_of_stand_ones [] (Nat.dvd_zero 4) hones

/-- Numbers are delivered exactly if each stands in the payload where it is looked for: at the next multiple of its size. So it is with
numbers of these sizes whatever their values exactly if each is appended at a multiple of its size. -/
theorem delivers_iff (r : RequestDescription) (numbers : List Number) (image : Bytes) (h : (r.carrying numbers).encode = .ok image) :
    (r.Delivers numbers ↔ Stand (r.payloadCarrying numbers) numbers (soughtAt 0 (numbers.map Number.size))) ∧
    ((∀ others : List Number, others.map Number.size = numbers.map Number.size → r.Delivers others) ↔
      Aligned 0 (numbers.map Number.size)) := by
  obtain ⟨hfits, -⟩ := (Message.encode_eq_ok_iff _ _).1 h
  refine ⟨delivers_iff_stand hfits, fun hall => ?_, fun haligned others hsizes => ?_⟩
  · exact aligned_of_delivers_ones hfits (hall _ (by simp))
  · exact delivers_of_aligned (fits_carrying hfits hsizes) (hsizes ▸ haligned)

/-- Two words between long words, and a long word behind a word that happens to be found at its place. -/
theorem delivers_iff_paired :
    Delivers {} [.longWord 0x1122334455667788, .word 3, .word 4, .longWord 5] ∧ Delivers {} [.word 1, .longWord 0] := by
  have hpaired : Message.Fits (carrying {} [.longWord 0x1122334455667788, .word 3, .word 4, .longWord 5]).message := by
    constructor <;> decide +kernel
  have hzero : Message.Fits (carrying {} [.word 1, .longWord 0]).message := by constructor <;> decide +kernel
  constructor
  · exact (delivers_iff {} _ _ ((Message.encode_eq_ok_iff _ _).2 ⟨hpaired, rfl⟩)).2.2 (by decide) _ rfl
  · exact (delivers_iff {} _ _ ((Message.encode_eq_ok_iff _ _).2 ⟨hzero, rfl⟩)).1.2 (by decide +kernel)

/-- A word and a long word are not delivered: the long word is looked for four bytes behind its place. -/
theorem delivers_false :
    ¬∀ (r : RequestDescription) (numbers : List Number) (image : Bytes), (r.carrying numbers).encode = .ok image →
      r.Delivers numbers := by
  intro hall
  have hfits : Message.Fits (carrying {} [.word 1, .longWord 2]).message := by constructor <;> decide +kernel
  have hdelivers := hall {} _ _ ((Message.encode_eq_ok_iff _ _).2 ⟨hfits, rfl⟩)
  rw [delivers_iff_stand hfits] at hdelivers
  exact absurd hdelivers (by decide +kernel)

end Wire.RequestDescription

end Microkernel
