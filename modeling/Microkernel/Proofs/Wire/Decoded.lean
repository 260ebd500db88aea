import Microkernel.Proofs.Wire.RoundTrip

/-!
# What a decoded message is like

The other direction of reading: not what a decoder makes of bytes that were written, but what can be said of its answer whatever the
bytes were. `Decoder.Spans d n P` says that an answer of `d` was read off the next `n` bytes of the image and has the property `P`.
`Message.Legible` collects what holds of every message that was read off an image (`decode_legible`): its lists are as short as
their count fields announce, its descriptors hold no more than the wire carries, and its parts lie in the image in their order.
-/

namespace Microkernel.Wire

/-- Bytes stand for a number that fits them. -/
theorem ofLittleEndian_lt (bytes : Bytes) : ofLittleEndian bytes < widthLimit (8 * bytes.length) := by
  induction bytes with
  | nil => exact widthLimit_pos 0
  | cons b bytes ih =>
    have hb := b.toNat_lt
    have h8 : widthLimit 8 = 256 := rfl
    rw [ofLittleEndian, List.length_cons, Nat.mul_succ, Nat.add_comm (8 * bytes.length), widthLimit_add, h8]
    omega

/-! ## Where a decoder gets its answer -/

namespace Decoder

variable {α β : Type} {image : Bytes} {offset next : Nat} {a : α} {b : β}

/-- A decoder answers by the answers of its parts. -/
theorem bind_eq_ok {d : Decoder α} {f : α → Decoder β} :
    (d >>= f) image offset = .ok (b, next) ↔ ∃ a mid, d image offset = .ok (a, mid) ∧ f a image mid = .ok (b, next) := by
  change Decoder.bind d f image offset = .ok (b, next) ↔ _
  unfold Decoder.bind
  cases d image offset with
  | ok pair =>
    obtain ⟨a, mid⟩ := pair
    constructor
    · exact fun h => ⟨a, mid, rfl, h⟩
    · rintro ⟨_, _, hp, h⟩
      cases hp
      exact h
  | error e => simp

/-- A decoder that reads nothing stays where it is. -/
theorem pure_eq_ok {a' : α} : (pure a : Decoder α) image offset = .ok (a', next) ↔ a = a' ∧ offset = next := by
  change Except.ok (a, offset) = .ok (a', next) ↔ _
  rw [Except.ok.injEq, Prod.mk.injEq]

/-- Asking for the position answers it and stays there. -/
theorem position_eq_ok {here : Nat} : position image offset = .ok (here, next) ↔ offset = here ∧ offset = next := by
  change Except.ok (offset, offset) = .ok (here, next) ↔ _
  rw [Except.ok.injEq, Prod.mk.injEq]

/-- Bytes are taken only where there are as many. -/
theorem take_eq_ok {n : Nat} {bytes : Bytes} : take n image offset = .ok (bytes, next) ↔
    offset + n ≤ image.length ∧ (image.drop offset).take n = bytes ∧ offset + n = next := by
  unfold take
  split
  · next h => simp [h]
  · next h => simp [h]

/-- Running a decoder begins at the first byte. -/
theorem run_eq_ok {d : Decoder α} : d.run image = .ok a ↔ ∃ next, d image 0 = .ok (a, next) := by
  unfold run
  cases d image 0 with
  | ok pair => simp [Except.map, Prod.ext_iff]
  | error e => simp [Except.map]

/-- An answer of the decoder was read off the next `n` bytes of the image, and has the property. -/
def Spans (d : Decoder α) (n : Nat) (P : α → Prop) : Prop :=
  ∀ image offset a next, d image offset = .ok (a, next) → next = offset + n ∧ (0 < n → next ≤ image.length) ∧ P a

namespace Spans

variable {d : Decoder α} {n k : Nat} {P : α → Prop} {Q : β → Prop}

theorem pure (h : P a) : Spans (Pure.pure a) 0 P := by
  intro image offset a' next he
  obtain ⟨rfl, rfl⟩ := pure_eq_ok.1 he
  exact ⟨rfl, fun h0 => absurd h0 (Nat.lt_irrefl 0), h⟩

/-- A decoder that fails spans anything. -/
theorem fail (e : ProtocolError) : Spans (Decoder.fail e) n P := by
  intro image offset a next he
  cases he

/-- What two decoders span in a row they span together. -/
theorem bind {f : α → Decoder β} (h : Spans d n P) (h' : ∀ a, P a → Spans (f a) k Q) : Spans (d >>= f) (n + k) Q := by
  intro image offset b next he
  obtain ⟨a, mid, ha, hb⟩ := bind_eq_ok.1 he
  obtain ⟨hmid, hl, hp⟩ := h image offset a mid ha
  obtain ⟨hnext, hl', hq⟩ := h' a hp image mid b next hb
  refine ⟨by omega, ?_, hq⟩
  -- the bytes behind the last one that was read may be none
  intro hpos
  by_cases hk : k = 0
  · have := hl (by omega)
    omega
  · exact hl' (Nat.pos_of_ne_zero hk)

/-- The last step of a decoder reads nothing more. -/
theorem bind_pure {f : α → β} (h : Spans d n P) (h' : ∀ a, P a → Q (f a)) : Spans (d >>= fun a => Pure.pure (f a)) n Q :=
  h.bind fun a ha => pure (h' a ha)

/-- Taking bytes spans as many as are taken. -/
theorem take (n : Nat) : Spans (take n) n fun bytes => bytes.length = n := by
  intro image offset bytes next he
  obtain ⟨hn, hb, rfl⟩ := take_eq_ok.1 he
  have hl : bytes.length = n := by
    rw [← hb, List.length_take, List.length_drop]
    omega
  exact ⟨rfl, fun _ => hn, hl⟩

/-- A word is below the limit of its 32 bits. -/
theorem word : Spans word 4 fun n => n < widthLimit 32 := by
  refine (take 4).bind_pure ?_
  intro bytes hb
  have h := ofLittleEndian_lt bytes
  rwa [hb] at h

theorem longWord : Spans longWord 8 fun _ => True :=
  word.bind fun _ _ => word.bind_pure fun _ _ => trivial

/-- What is made of an answer spans what the answer spans. -/
theorem map {f : α → β} (h : Spans d n P) (h' : ∀ a, P a → Q (f a)) : Spans (f <$> d) n Q := h.bind_pure h'

/-- As many values as were asked for, one behind the other. -/
theorem times (h : Spans d n P) (count : Nat) :
    Spans (times d count) (count * n) fun xs => xs.length = count ∧ ∀ x ∈ xs, P x := by
  induction count with
  | zero =>
    rw [Nat.zero_mul]
    exact pure ⟨rfl, by simp⟩
  | succ count ih =>
    rw [Nat.succ_mul, Nat.add_comm (count * n)]
    refine h.bind fun x hx => ih.bind_pure fun xs hxs => ?_
    exact ⟨congrArg Nat.succ hxs.1, List.forall_mem_cons.2 ⟨hx, hxs.2⟩⟩

end Spans

end Decoder

/-! ## Descriptors that the wire carries whole -/

/-- A number made of bits of its field is that field of itself. -/
theorem ofNat_mod_widthLimit {n width : Nat} (hn : n < widthLimit width) (hw : width ≤ 64) :
    UInt64.ofNat ((UInt64.ofNat n).toNat % widthLimit width) = UInt64.ofNat n := by
  have h64 : widthLimit width ≤ 2 ^ 64 := Nat.pow_le_pow_right (by decide) hw
  rw [UInt64.toNat_ofNat_of_lt' (Nat.lt_of_lt_of_le hn h64), Nat.mod_eq_of_lt hn]

namespace Message

open Decoder

/-- A handle is read off four bytes. -/
theorem spans_handle : Spans handleDecoder 4 fun _ => True := Spans.word.bind_pure fun _ _ => trivial

/-- A static descriptor is read off eight bytes and holds no more than the wire carries. -/
theorem spans_static : Spans staticDecoder 8 fun d => d.onWire = d := by
  refine Spans.word.bind fun head _ => Spans.word.bind_pure fun low _ => ?_
  have hi : bits head 0 6 < widthLimit 6 := bits_lt _ _ _
  have h6 : widthLimit 6 = 64 := rfl
  have ha := packFields_lt [(32, low), (4, bits head 12 4), (6, bits head 6 6)]
  simp only [StaticDescriptor.onWire, StaticDescriptor.mk.injEq, and_true]
  constructor
  · rw [UInt8.toNat_ofNat_of_lt' (by unfold UInt8.size; omega), Nat.mod_eq_of_lt hi]
  · exact ofNat_mod_widthLimit ha (by decide)

/-- A buffer descriptor is read off twelve bytes and holds no more than the wire carries. -/
theorem spans_buffer : Spans bufferDecoder 12 fun d => d.onWire = d := by
  refine Spans.word.bind fun size _ => Spans.word.bind fun address _ => Spans.word.bind (k := 0) fun tail _ => ?_
  split
  · apply Spans.pure
    have ha := packFields_lt [(32, address), (4, bits tail 28 4), (22, bits tail 2 22)]
    have hs := packFields_lt [(32, size), (4, bits tail 24 4)]
    simp only [BufferDescriptor.onWire, BufferDescriptor.mk.injEq, and_true]
    exact ⟨ofNat_mod_widthLimit ha (by decide), ofNat_mod_widthLimit hs (by decide)⟩
  · exact Spans.fail _

/-- A receive-list entry is read off eight bytes and holds no more than the wire carries. -/
theorem spans_receiveEntry : Spans receiveEntryDecoder 8 fun e => e.onWire = e := by
  refine Spans.word.bind fun low _ => Spans.word.bind_pure fun high _ => ?_
  have ha := packFields_lt [(32, low), (16, bits high 0 16)]
  simp only [ReceiveEntry.onWire, ReceiveEntry.mk.injEq, and_true]
  exact ofNat_mod_widthLimit ha (by decide)

/-! ## The sections -/

/-- How many words a special header takes, which is there only if it holds something. -/
def specialWords (pid : Option UInt64) (copyHandles moveHandles : List UInt32) : Nat :=
  if pid.isSome || !copyHandles.isEmpty || !moveHandles.isEmpty then
    1 + (if pid.isSome then 2 else 0) + copyHandles.length + moveHandles.length
  else 0

/-- The data section begins behind the words of the header, of the special header and of the descriptors. -/
theorem computeDataOffset_eq (m : Message) : m.computeDataOffset =
    (2 + specialWords m.pid m.copyHandles m.moveHandles + (m.sendStatics.length * 2 +
      (m.sendBuffers.length + m.receiveBuffers.length + m.exchangeBuffers.length) * 3)) * 4 := rfl

variable {image : Bytes} {offset next : Nat} {pid : Option UInt64} {copyHandles moveHandles : List UInt32}

/-- A count that four bits announce. -/
theorem bits_four_le (word low : Nat) : bits word low 4 ≤ maxDescriptors := Nat.le_of_lt_succ (bits_lt word low 4)

/-- A process id takes two words, a missing one none. -/
theorem pid_sound (c : Prop) [Decidable c]
    (h : (if c then (some ∘ UInt64.ofNat) <$> longWord else pure none : Decoder (Option UInt64)) image offset = .ok (pid, next)) :
    next = offset + (if pid.isSome then 2 else 0) * 4 := by
  split at h
  · obtain ⟨hn, -, hp⟩ := Spans.longWord.map (Q := fun pid => pid.isSome = true) (fun _ _ => rfl) _ _ _ _ h
    rwa [hp]
  · obtain ⟨rfl, rfl⟩ := pure_eq_ok.1 h
    rfl

/-- A special header that is read has no more handles than fit its fields, and takes as many words as it says. -/
theorem special_sound (h : specialDecoder image offset = .ok ((pid, copyHandles, moveHandles), next)) :
    copyHandles.length ≤ maxDescriptors ∧ moveHandles.length ≤ maxDescriptors ∧
      next = offset + (1 + (if pid.isSome then 2 else 0) + copyHandles.length + moveHandles.length) * 4 := by
  unfold specialDecoder at h
  simp only [ite_bind, bind_eq_ok] at h
  obtain ⟨special, o1, h1, pid', o2, h2, copies, o3, h3, moves, o4, h4, h⟩ := h
  obtain ⟨hanswer, rfl⟩ := pure_eq_ok.1 h
  obtain ⟨rfl, rfl, rfl⟩ := hanswer
  obtain ⟨rfl, -, -⟩ := Spans.word _ _ _ _ h1
  obtain rfl := pid_sound _ h2
  obtain ⟨rfl, -, hc, -⟩ := spans_handle.times _ _ _ _ _ h3
  obtain ⟨rfl, -, hm, -⟩ := spans_handle.times _ _ _ _ _ h4
  refine ⟨hc ▸ bits_four_le _ _, hm ▸ bits_four_le _ _, ?_⟩
  omega

/-- An image without a special header gives neither a process id nor handles. One with an empty special header gives none either,
but is a word longer. -/
theorem special?_sound (c : Prop) [Decidable c]
    (h : (if c then specialDecoder else pure (none, [], [])) image offset = .ok ((pid, copyHandles, moveHandles), next)) :
    copyHandles.length ≤ maxDescriptors ∧ moveHandles.length ≤ maxDescriptors ∧
      offset + specialWords pid copyHandles moveHandles * 4 ≤ next := by
  split at h
  · obtain ⟨hc, hm, hn⟩ := special_sound h
    refine ⟨hc, hm, ?_⟩
    unfold specialWords
    split <;> omega
  · obtain ⟨hanswer, rfl⟩ := pure_eq_ok.1 h
    cases hanswer
    exact ⟨Nat.zero_le _, Nat.zero_le _, Nat.le_refl _⟩

/-- The mode field announces at most as many entries as the writer allows. -/
theorem receiveListLength_le {mode : Nat} (h : mode < widthLimit 4) :
    receiveListLength mode ≤ maxDescriptors - explicitListBase := by
  have hw : widthLimit 4 = 16 := rfl
  unfold receiveListLength maxDescriptors explicitListBase
  split <;> omega

/-- Where the receive list of a message that was read began. -/
def foundListAt (m : Message) : Nat :=
  if m.receiveListOffset = 0 then m.dataOffset + m.data.length else m.receiveListOffset.toNat * 4

/-- Without entries nothing is looked for; with entries the list does not begin inside the data section. -/
theorem seekReceiveList_sound {entries list dataEnd : Nat} (hentries : 0 < entries)
    (h : seekReceiveList entries list image dataEnd = .ok ((), next)) :
    dataEnd ≤ next ∧ next = if list = 0 then dataEnd else list * 4 := by
  unfold seekReceiveList at h
  by_cases hlist : list = 0
  · rw [if_neg (fun h => h.2 hlist)] at h
    obtain ⟨-, rfl⟩ := pure_eq_ok.1 h
    rw [if_pos hlist]
    exact ⟨Nat.le_refl _, rfl⟩
  · rw [if_pos ⟨hentries, hlist⟩] at h
    obtain ⟨here, mid, h1, h⟩ := bind_eq_ok.1 h
    obtain ⟨rfl, rfl⟩ := position_eq_ok.1 h1
    unfold receiveListStart at h
    rw [if_neg hlist]
    by_cases hs : list * 4 < dataEnd
    · rw [if_pos hs] at h
      cases h
    · rw [if_neg hs] at h
      cases h
      exact ⟨Nat.not_lt.1 hs, rfl⟩

/-- What every message is like that was read off an image of `size` bytes. -/
structure Legible (m : Message) (size : Nat) : Prop where
  sendStatics : m.sendStatics.length ≤ maxDescriptors
  sendBuffers : m.sendBuffers.length ≤ maxDescriptors
  receiveBuffers : m.receiveBuffers.length ≤ maxDescriptors
  exchangeBuffers : m.exchangeBuffers.length ≤ maxDescriptors
  copyHandles : m.copyHandles.length ≤ maxDescriptors
  moveHandles : m.moveHandles.length ≤ maxDescriptors
  receiveList : m.receiveList.length ≤ maxDescriptors - explicitListBase
  words : m.data.length % 4 = 0
  dataWords : piecesOf m.data.length 4 ≤ maxDataWords
  sendStatics_carried : ∀ d ∈ m.sendStatics, d.onWire = d
  sendBuffers_carried : ∀ d ∈ m.sendBuffers, d.onWire = d
  receiveBuffers_carried : ∀ d ∈ m.receiveBuffers, d.onWire = d
  exchangeBuffers_carried : ∀ d ∈ m.exchangeBuffers, d.onWire = d
  receiveList_carried : ∀ e ∈ m.receiveList, e.onWire = e
  /-- The data section was found where it belongs, or one word later where a special header is empty. -/
  dataOffset : m.computeDataOffset ≤ m.dataOffset
  dataEnd : m.dataOffset + m.data.length ≤ size
  /-- A receive list with entries stood behind the data section. -/
  listStart : m.receiveList ≠ [] → m.dataOffset + m.data.length ≤ m.foundListAt
  listEnd : m.receiveList ≠ [] → m.foundListAt + m.receiveList.length * 8 ≤ size

/-- Every message that was read off an image is legible. -/
theorem decode_legible {m : Message} (h : decode image = .ok m) : m.Legible image.length := by
  obtain ⟨next, h⟩ := run_eq_ok.1 h
  simp only [decoder, ite_bind, bind_eq_ok, pure_eq_ok, position_eq_ok] at h
  obtain ⟨first, o1, h1, second, o2, h2, ⟨pid, copyHandles, moveHandles⟩, o3, h3, h⟩ := h
  obtain ⟨statics, o4, h4, sends, o5, h5, receives, o6, h6, exchanges, o7, h7, at', o8, ⟨rfl, rfl⟩, data, o9, h9, _, o10, h10,
    entries, o11, h11, rfl, rfl⟩ := h
  obtain ⟨rfl, -, -⟩ := Spans.word _ _ _ _ h1
  obtain ⟨rfl, -, -⟩ := Spans.word _ _ _ _ h2
  obtain ⟨hcopies, hmoves, hspecial⟩ := special?_sound _ h3
  obtain ⟨rfl, -, hx, hxs⟩ := spans_static.times _ _ _ _ _ h4
  obtain ⟨rfl, -, ha, has⟩ := spans_buffer.times _ _ _ _ _ h5
  obtain ⟨rfl, -, hb, hbs⟩ := spans_buffer.times _ _ _ _ _ h6
  obtain ⟨rfl, -, hw, hws⟩ := spans_buffer.times _ _ _ _ _ h7
  obtain ⟨rfl, -, hd⟩ := Spans.take _ _ _ _ _ h9
  obtain ⟨hend, -, -⟩ := take_eq_ok.1 h9
  obtain ⟨rfl, hlistEnd, he, hes⟩ := spans_receiveEntry.times _ _ _ _ _ h11
  have hoffset : (UInt16.ofNat (bits second 20 11)).toNat = bits second 20 11 :=
    UInt16.toNat_ofNat_of_lt' (Nat.lt_trans (bits_lt second 20 11) (by decide))
  have hzero : UInt16.ofNat (bits second 20 11) = 0 ↔ bits second 20 11 = 0 := by
    rw [← UInt16.toNat_inj, hoffset]
    rfl
  refine {
    sendStatics := hx ▸ bits_four_le _ _
    sendBuffers := ha ▸ bits_four_le _ _
    receiveBuffers := hb ▸ bits_four_le _ _
    exchangeBuffers := hw ▸ bits_four_le _ _
    copyHandles := hcopies
    moveHandles := hmoves
    receiveList := he ▸ receiveListLength_le (bits_lt _ _ _)
    words := by rw [hd, Nat.mul_mod_left]
    dataWords := ?dataWords
    sendStatics_carried := hxs
    sendBuffers_carried := has
    receiveBuffers_carried := hbs
    exchangeBuffers_carried := hws
    receiveList_carried := hes
    dataOffset := ?dataOffset
    dataEnd := by rw [hd]; exact hend
    listStart := ?listStart
    listEnd := ?listEnd }
  case dataWords =>
    have hwords : bits second 0 10 < 1024 := bits_lt second 0 10
    simp only [hd, piecesOf, maxDataWords]
    omega
  case dataOffset =>
    rw [computeDataOffset_eq]
    simp only
    omega
  case listStart =>
    intro hne
    obtain ⟨hs, hn⟩ := seekReceiveList_sound (he ▸ List.length_pos_iff.2 hne) h10
    simp only [foundListAt, hzero, hoffset, hd]
    omega
  case listEnd =>
    intro hne
    have hpos : 0 < entries.length := List.length_pos_iff.2 hne
    obtain ⟨hs, hn⟩ := seekReceiveList_sound (he ▸ hpos) h10
    simp only [foundListAt, hzero, hoffset, hd]
    have := hlistEnd (by omega)
    omega

end Message

end Microkernel.Wire
