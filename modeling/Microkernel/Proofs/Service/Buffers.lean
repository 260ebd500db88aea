import Microkernel.Proofs.Machine.Accesses
import Microkernel.Proofs.Service.Registration
import Microkernel.Proofs.Wire.Decoded
import Microkernel.Service.Buffer

/-!
# Buffers that pass validation can be used

A request is checked against the declarations of its command before the handler runs, by a selection of descriptors that is written
apart from the selections of the accessors. `BufferSpec.measured` is the range of client memory that a declaration was checked
against, and `validated_buffers_usable` says that the accessor for the declaration works on exactly that range.
-/

namespace Microkernel

open Machine
open Wire (Bytes Message)

/-! ## How much a read gives -/

/-- Reading pieces gives as many bytes as they are long together. -/
theorem HostMemory.length_readChunks {m : HostMemory} {pieces : List (Nat × Nat)} {bytes : Bytes}
    (h : m.readChunks pieces = .ok bytes) : bytes.length = total Prod.snd pieces := by
  induction pieces generalizing bytes with
  | nil =>
    cases h
    rfl
  | cons piece rest ih =>
    obtain ⟨address, length⟩ := piece
    rw [readChunks] at h
    cases hr : m.read address length with
    | error e =>
      rw [hr] at h
      cases h
    | ok first =>
      rw [hr] at h
      cases ho : m.readChunks rest with
      | error e =>
        rw [ho] at h
        cases h
      | ok others =>
        rw [ho] at h
        cases h
        have hf : first.length = length := by
          rw [← (read_eq_ok_iff.1 hr).2, bytesFrom, List.length_map, List.length_range]
        rw [List.length_append, hf, ih ho]
        rfl

/-- The pieces of a range are together as long as the range. -/
theorem AddressSpace.total_translateFrom {space : AddressSpace} {access : Access} {cursor length : Nat} {pieces : List (Nat × Nat)}
    (h : space.translateFrom access cursor length = .ok pieces) : total Prod.snd pieces = length := by
  induction cursor, length using translateFrom.induct space access generalizing pieces with
  | case1 cursor =>
    unfold translateFrom at h
    cases h
    rfl
  | case2 cursor length h0 hnone =>
    rw [translateFrom_unmapped h0 hnone] at h
    cases h
  | case3 cursor length h0 m hm hdenied =>
    rw [translateFrom_denied h0 hm (by simpa using hdenied)] at h
    cases h
  | case4 cursor length h0 m hm hallowed hnone =>
    unfold translateFrom at h
    grind
  | case5 cursor length h0 m hm hallowed physical contiguous hsome piece =>
    rename_i ih
    rw [translateFrom_step h0 hm (by simpa using hallowed) hsome] at h
    cases hrest : space.translateFrom access (cursor + piece) (length - piece) with
    | error e =>
      rw [hrest] at h
      cases h
    | ok rest =>
      rw [hrest] at h
      cases h
      have hsmall : piece ≤ length := Nat.min_le_right _ _
      rw [total, ih hrest]
      exact Nat.add_sub_cancel' hsmall

/-- A process that reads memory gets as many bytes as it asked for. -/
theorem Machine.length_readMemory {process : RecordId} {address length : Nat} {s t : Machine} {bytes : Bytes}
    (h : (readMemory process address length).run s = (.ok bytes, t)) : bytes.length = length := by
  rw [readMemory_run] at h
  cases ht : (s.process process).space.translate address length .read with
  | error e =>
    rw [ht] at h
    cases h
  | ok pieces =>
    rw [ht] at h
    unfold AddressSpace.translate at ht
    split at ht
    · cases ht
    · rw [HostMemory.length_readChunks (Prod.mk.inj h).1, AddressSpace.total_translateFrom ht]

/-! ## Codes of the kernel -/

/-- No capability error is answered as an invalid buffer size. -/
theorem CapabilityError.code_ne_invalidBufferSize (e : CapabilityError) : e.code ≠ .invalidBufferSize := by
  cases e <;> dsimp only [code] <;> decide

/-- The code for a bad buffer is the services' own. -/
theorem KernelError.code_ne_invalidBufferSize (e : KernelError) : e.code ≠ .invalidBufferSize := by
  cases e with
  | capability e => exact e.code_ne_invalidBufferSize
  | _ =>
    dsimp only [code]
    decide

/-! ## What was measured -/

/-- The range of client memory that a message brings for a declaration. -/
def BufferSpec.measured (spec : BufferSpec) (m : Message) : Option (Nat × Nat) :=
  match spec.kind with
  | .input => (m.sendBuffers[spec.index]?).map fun b => (b.address.toNat, b.size.toNat)
  | .output => (m.receiveBuffers[spec.index]?).map fun b => (b.address.toNat, b.size.toNat)
  | .exchange => (m.exchangeBuffers[spec.index]?).map fun b => (b.address.toNat, b.size.toNat)
  | .inputPointer => (m.sendStatics.find? (·.index.toNat = spec.index)).map fun d => (d.address.toNat, d.size.toNat)
  | .outputPointer => (m.receiveList[spec.index]?).map fun e => (e.address.toNat, e.size.toNat)
  | .outputEither =>
    match (m.receiveBuffers[spec.index]?).filter (·.size ≠ 0) with
    | some b => some (b.address.toNat, b.size.toNat)
    | none => (m.receiveList[spec.index]?).map fun e => (e.address.toNat, e.size.toNat)

namespace BufferSpec

variable {spec : BufferSpec} {m : Message}

/-- The size that is checked is the size of the measured range. -/
theorem actualSize_eq (spec : BufferSpec) (m : Message) : spec.actualSize m = (spec.measured m).map (·.2) := by
  unfold actualSize measured
  cases spec.kind with
  | outputEither =>
    dsimp only
    cases (m.receiveBuffers[spec.index]?).filter (·.size ≠ 0) with
    | some b => rfl
    | none =>
      dsimp only
      rw [Option.map_map]
      rfl
  | _ =>
    dsimp only
    rw [Option.map_map]
    rfl

/-- What passes validation is there, and as large as declared. -/
theorem measured_of_validated {specs : List BufferSpec} (hv : validateBuffers specs m = .ok ()) (hspec : spec ∈ specs) :
    ∃ address size, spec.measured m = some (address, size) ∧ spec.actualSize m = some size ∧ spec.minSize ≤ size := by
  unfold validateBuffers at hv
  split at hv
  · next hall =>
    have hmet := List.all_eq_true.1 hall spec hspec
    unfold isMet at hmet
    rw [actualSize_eq] at hmet ⊢
    cases hm : spec.measured m with
    | none =>
      rw [hm] at hmet
      cases hmet
    | some range =>
      rw [hm] at hmet
      exact ⟨range.1, range.2, rfl, rfl, of_decide_eq_true hmet⟩
  · cases hv

end BufferSpec

/-! ## What the accessors do -/

namespace Call

variable {c : Call} {s : Machine} {address size : Nat}

/-- A kernel operation in a handler does what it does, and its error is told as the kernel's. -/
theorem run_perform {α : Type} (p : Action α) (c : Call) (s : Machine) :
    (perform p).run.run c s = (((p.run s).1.mapError fun e => .error (.kernel e), c), (p.run s).2) := by
  rw [perform, attempt, Handler.run_update_bind, Update.run_bind]
  rcases p.run s with ⟨e | a, t⟩ <;> rfl

/-- Reading client memory answers as the kernel does, and changes nothing. -/
theorem run_readMemory (c : Call) (s : Machine) (address length : Nat) : (readMemory address length).run.run c s =
    ((((Machine.readMemory c.client address length).run s).1.mapError fun e => .error (.kernel e), c), s) := by
  have hstill : ((Machine.readMemory c.client address length).run s).2 = s := by
    rw [Machine.readMemory_run]
    split <;> rfl
  rw [readMemory, Handler.run_look, run_perform, hstill]

/-- Bytes that fit an output buffer are staged for its address. -/
theorem run_writeOutBuffer {index : Nat} {bytes : Bytes} {b : Wire.BufferDescriptor} (hb : c.outBuffer? index = some b)
    (hl : bytes.length ≤ b.size.toNat) : (writeOutBuffer index bytes).run.run c s =
      ((.ok (), { c with writes := c.writes ++ [(b.address.toNat, bytes)] }), s) := by
  rw [writeOutBuffer, Handler.run_look, hb, Option.filter_some, if_pos (decide_eq_true hl)]
  rfl

/-- Bytes that fit an output pointer are staged for its address, and the response tells how many. -/
theorem run_writeOutPointer {index : Nat} {bytes : Bytes} {e : Wire.ReceiveEntry}
    (he : c.request.message.receiveList[index]? = some e) (hl : bytes.length ≤ e.size.toNat) (hi : index < widthLimit 8) :
    (writeOutPointer index bytes).run.run c s = ((.ok (), { c with
      writes := c.writes ++ [(e.address.toNat, bytes)]
      statics := c.statics ++ [{ index := .ofNat index, address := e.address, size := .ofNat bytes.length }] }), s) := by
  rw [writeOutPointer, Handler.run_look, he, Option.filter_some, if_pos (decide_eq_true hl)]
  dsimp only
  rw [if_neg (Nat.not_le.2 hi)]
  rfl

/-- The handler succeeds, and all it does for the bytes is to stage one write, which stays inside the range; the response may tell
where it went. -/
def StagesWithin (h : Handler Unit) (bytes : Bytes) (c : Call) (s : Machine) (address size : Nat) : Prop :=
  ∃ told, h.run.run c s = ((.ok (), { c with writes := c.writes ++ [(address, bytes)], statics := c.statics ++ told }), s) ∧
    address + bytes.length ≤ address + size

/-- The handler reads the range as the kernel shows it, whole; where it fails, the kernel did. -/
structure ReadsRange (h : Handler Bytes) (c : Call) (s : Machine) (address size : Nat) : Prop where
  readable : ∀ bytes, (Machine.readMemory c.client address size).run s = (.ok bytes, s) →
    h.run.run c s = ((.ok bytes, c), s) ∧ bytes.length = size
  refused : ∀ failure c' t, h.run.run c s = ((.error failure, c'), t) →
    ∃ e : KernelError, failure = .error (.kernel e) ∧ e.code ≠ .invalidBufferSize

/-- A handler that reads a range of client memory reads that range. -/
theorem readsRange_of_run {h : Handler Bytes} (hrun : h.run.run c s = (readMemory address size).run.run c s) :
    ReadsRange h c s address size := by
  rw [run_readMemory] at hrun
  constructor
  · intro bytes hread
    rw [hread] at hrun
    exact ⟨hrun, Machine.length_readMemory hread⟩
  · intro failure c' t hfail
    rw [hfail] at hrun
    cases hread : ((Machine.readMemory c.client address size).run s).1 with
    | ok bytes =>
      rw [hread] at hrun
      cases hrun
    | error e =>
      rw [hread] at hrun
      cases hrun
      exact ⟨e, rfl, e.code_ne_invalidBufferSize⟩

end Call

/-! ## Validation covers the accessors -/

/-- The accessor of a declared buffer works on a range as its command expects. No accessor is bound to an exchange buffer. -/
def BufferSpec.Usable (spec : BufferSpec) (c : Call) (s : Machine) (address size : Nat) : Prop :=
  match spec.kind with
  | .input => Call.ReadsRange (Call.readInBuffer spec.index) c s address size
  | .inputPointer => ∃ index : UInt8, index.toNat = spec.index ∧ Call.ReadsRange (Call.readInPointer index) c s address size
  | .output => ∀ bytes : Bytes, bytes.length ≤ spec.minSize →
    Call.StagesWithin (Call.writeOutBuffer spec.index bytes) bytes c s address size
  | .outputPointer => ∀ bytes : Bytes, bytes.length ≤ spec.minSize →
    Call.StagesWithin (Call.writeOutPointer spec.index bytes) bytes c s address size
  | .outputEither => ∀ bytes : Bytes, bytes.length ≤ spec.minSize →
    Call.StagesWithin (Call.writeOutEither spec.index bytes) bytes c s address size
  | .exchange => True

namespace Call

variable {c : Call} {s : Machine} {index : Nat} {bytes : Bytes}

/-- The entries of a decoded receive list are few enough for a response to tell their positions. -/
theorem receiveList_index_lt {image : Bytes} {m : Message} {e : Wire.ReceiveEntry} (hd : Message.decode image = .ok m)
    (he : m.receiveList[index]? = some e) : index < widthLimit 8 := by
  have hlength := (Message.decode_legible hd).receiveList
  have hindex := (List.getElem?_eq_some_iff.1 he).1
  have hw : widthLimit 8 = 256 := rfl
  unfold Wire.maxDescriptors Wire.explicitListBase at hlength
  omega

/-- What is written to an output buffer is staged within its range. -/
theorem stagesWithin_outBuffer {b : Wire.BufferDescriptor} (hb : c.request.message.receiveBuffers[index]? = some b)
    (hl : bytes.length ≤ b.size.toNat) : StagesWithin (writeOutBuffer index bytes) bytes c s b.address.toNat b.size.toNat :=
  ⟨[], by rw [run_writeOutBuffer hb hl, List.append_nil], Nat.add_le_add_left hl _⟩

/-- What is written to an output pointer is staged within its range. -/
theorem stagesWithin_outPointer {image : Bytes} {e : Wire.ReceiveEntry} (hd : Message.decode image = .ok c.request.message)
    (he : c.request.message.receiveList[index]? = some e) (hl : bytes.length ≤ e.size.toNat) :
    StagesWithin (writeOutPointer index bytes) bytes c s e.address.toNat e.size.toNat :=
  ⟨_, run_writeOutPointer he hl (receiveList_index_lt hd he), Nat.add_le_add_left hl _⟩

/-- Where there is an output buffer that is not empty, it is written to. -/
theorem writeOutEither_of_some {b : Wire.BufferDescriptor} (hb : (c.outBuffer? index).filter (·.size ≠ 0) = some b) :
    (writeOutEither index bytes).run.run c s = (writeOutBuffer index bytes).run.run c s := by
  rw [writeOutEither, Handler.run_look, hb]

/-- Where there is no such output buffer, the output pointer is written to. -/
theorem writeOutEither_of_none (hb : (c.outBuffer? index).filter (·.size ≠ 0) = none) :
    (writeOutEither index bytes).run.run c s = (writeOutPointer index bytes).run.run c s := by
  rw [writeOutEither, Handler.run_look, hb]

/-- An input buffer is read from its range. -/
theorem readsRange_inBuffer {b : Wire.BufferDescriptor} (hb : c.request.message.sendBuffers[index]? = some b) :
    ReadsRange (readInBuffer index) c s b.address.toNat b.size.toNat := by
  refine readsRange_of_run ?_
  rw [readInBuffer, Handler.run_look, hb]

/-- The first static with the index is the one that was measured, however its index is compared. -/
theorem readsRange_inPointer {d : Wire.StaticDescriptor}
    (hf : c.request.message.sendStatics.find? (·.index.toNat = index) = some d) :
    d.index.toNat = index ∧ ReadsRange (readInPointer d.index) c s d.address.toNat d.size.toNat := by
  have hindex : d.index.toNat = index := by simpa using List.find?_some hf
  refine ⟨hindex, readsRange_of_run ?_⟩
  have hsame : c.request.message.sendStatics.find? (·.index = d.index) = some d := by
    rw [← hf]
    refine congrArg (List.find? · _) (funext fun other => ?_)
    exact decide_eq_decide.2 (by rw [← hindex, UInt8.toNat_inj])
  rw [readInPointer, Handler.run_look, hsame]

end Call

/-- A declaration that was met can be used. -/
theorem BufferSpec.usable_of_measured {spec : BufferSpec} {c : Call} {image : Bytes} {address size : Nat}
    (hd : Message.decode image = .ok c.request.message) (hm : spec.measured c.request.message = some (address, size))
    (hmin : spec.minSize ≤ size) (s : Machine) : spec.Usable c s address size := by
  unfold measured at hm
  unfold Usable
  cases hk : spec.kind with
  | input =>
    rw [hk] at hm
    obtain ⟨b, hb, hrange⟩ := Option.map_eq_some_iff.1 hm
    cases hrange
    exact Call.readsRange_inBuffer hb
  | output =>
    rw [hk] at hm
    obtain ⟨b, hb, hrange⟩ := Option.map_eq_some_iff.1 hm
    cases hrange
    exact fun bytes hl => Call.stagesWithin_outBuffer hb (Nat.le_trans hl hmin)
  | exchange => trivial
  | inputPointer =>
    rw [hk] at hm
    obtain ⟨d, hf, hrange⟩ := Option.map_eq_some_iff.1 hm
    cases hrange
    exact ⟨d.index, Call.readsRange_inPointer hf⟩
  | outputPointer =>
    rw [hk] at hm
    obtain ⟨e, he, hrange⟩ := Option.map_eq_some_iff.1 hm
    cases hrange
    exact fun bytes hl => Call.stagesWithin_outPointer hd he (Nat.le_trans hl hmin)
  | outputEither =>
    rw [hk] at hm
    intro bytes hl
    cases hb : (c.request.message.receiveBuffers[spec.index]?).filter (·.size ≠ 0) with
    | some b =>
      -- a receive buffer that is not empty is measured and written, however large the receive-list entry is
      rw [hb] at hm
      cases hm
      have hmem := (Option.filter_eq_some_iff.1 hb).1
      rw [Call.StagesWithin, Call.writeOutEither_of_some hb]
      exact Call.stagesWithin_outBuffer hmem (Nat.le_trans hl hmin)
    | none =>
      rw [hb] at hm
      obtain ⟨e, he, hrange⟩ := Option.map_eq_some_iff.1 hm
      cases hrange
      rw [Call.StagesWithin, Call.writeOutEither_of_none hb]
      exact Call.stagesWithin_outPointer hd he (Nat.le_trans hl hmin)

/-- Where the buffers of a decoded request pass validation, each declaration was checked against a range of client memory that is
large enough. The accessors for output stage any bytes of the declared size inside that range; the accessors for input never refuse
the buffer, and read the whole range where the client's memory can be read. -/
theorem validated_buffers_usable {image : Bytes} {c : Call} {specs : List BufferSpec} (s : Machine)
    (hd : Message.decode image = .ok c.request.message) (hv : validateBuffers specs c.request.message = .ok ()) :
    ∀ spec ∈ specs, ∃ address size, spec.measured c.request.message = some (address, size) ∧
      spec.actualSize c.request.message = some size ∧ spec.minSize ≤ size ∧ spec.Usable c s address size := by
  intro spec hspec
  obtain ⟨address, size, hm, ha, hmin⟩ := BufferSpec.measured_of_validated hv hspec
  exact ⟨address, size, hm, ha, hmin, BufferSpec.usable_of_measured hd hm hmin s⟩

/-- A request with two statics of one index, an empty receive buffer and a receive list of two entries. -/
def bufferedRequest : Message where
  messageType := 4
  sendStatics := [{ index := 7, address := 0x1000, size := 0x20 }, { index := 7, address := 0x2000, size := 0x10 }]
  sendBuffers := [{ address := 0x3000, size := 0x1000 }]
  receiveBuffers := [{ address := 0x5000, size := 0x80 }, { address := 0x6000, size := 0 }]
  receiveList := [{ address := 0x7000, size := 0x8 }, { address := 0x8000, size := 0x30 }]
  dataOffset := 60

/-- A command that begins with that request. -/
def bufferedCall : Call := { (default : Call) with request.message := bufferedRequest }

/-- The first static with the index is read, and what does not go to an empty receive buffer goes to the receive list. -/
theorem validated_buffers_usable_bufferedCall :
    Message.decode bufferedRequest.image = .ok bufferedCall.request.message ∧
    validateBuffers [⟨.inputPointer, 7, 0x20⟩, ⟨.outputEither, 1, 0x30⟩] bufferedCall.request.message = .ok () ∧
    Call.ReadsRange (Call.readInPointer 7) bufferedCall {} 0x1000 0x20 ∧
    Call.StagesWithin (Call.writeOutEither 1 [1, 2, 3]) [1, 2, 3] bufferedCall {} 0x8000 0x30 := by
  have hf : bufferedRequest.Fits := by constructor <;> decide +kernel
  have hw : bufferedRequest.onWire = bufferedRequest := by decide +kernel
  have hd : Message.decode bufferedRequest.image = .ok bufferedCall.request.message := by
    have hd := Message.decode_image hf []
    rwa [List.append_nil, hw] at hd
  have hv : validateBuffers [⟨.inputPointer, 7, 0x20⟩, ⟨.outputEither, 1, 0x30⟩] bufferedCall.request.message = .ok () := rfl
  have h := validated_buffers_usable {} hd hv
  refine ⟨hd, hv, ?_, ?_⟩
  · obtain ⟨_, _, hm, -, -, index, hindex, hreads⟩ := h ⟨.inputPointer, 7, 0x20⟩ List.mem_cons_self
    cases hm
    obtain rfl : index = 7 := UInt8.toNat_inj.1 hindex
    exact hreads
  · obtain ⟨_, _, hm, -, -, hstages⟩ := h ⟨.outputEither, 1, 0x30⟩ (by simp)
    cases hm
    exact hstages [1, 2, 3] (by decide)

end Microkernel
