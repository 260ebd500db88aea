import Microkernel.Proofs.Wire.Fields
import Microkernel.Wire.Decoder

/-!
# What a decoder reads

`ReadsAt d before bytes a` says that behind the bytes `before` the decoder `d` takes exactly `bytes` and answers `a`, whatever
follows. Decoders that run one after the other read the bytes one behind the other (`ReadsAt.bind`), so the reading of a message
is put together from the readings of its words. `Reads` is the same at every position, for decoders that do not ask where they are.
-/

namespace Microkernel.Wire

/-- More digits continue the number where fewer stop. -/
theorem littleEndian_add (width width' n : Nat) :
    littleEndian (width + width') n = littleEndian width n ++ littleEndian width' (n / widthLimit (8 * width)) := by
  induction width generalizing n with
  | zero => rw [Nat.mul_zero, widthLimit_zero, Nat.div_one, Nat.zero_add, littleEndian, List.nil_append]
  | succ width ih =>
    have h8 : widthLimit 8 = 256 := rfl
    rw [Nat.succ_add, littleEndian, littleEndian, ih, Nat.mul_succ, Nat.add_comm (8 * width), widthLimit_add, h8,
      Nat.div_div_eq_div_mul, List.cons_append]

@[simp] theorem length_word32 (n : Nat) : (word32 n).length = 4 := length_littleEndian 4 n

@[simp] theorem length_word64 (n : Nat) : (word64 n).length = 8 := length_littleEndian 8 n

/-- A long word is its low word and its high word. -/
theorem word64_eq (n : Nat) : word64 n = word32 n ++ word32 (n / widthLimit 32) := littleEndian_add 4 4 n

namespace Decoder

/-- Behind `before`, the decoder reads `bytes` as `a`, whatever follows them. -/
def ReadsAt {α : Type} (d : Decoder α) (before bytes : Bytes) (a : α) : Prop :=
  ∀ after, d (before ++ bytes ++ after) before.length = .ok (a, (before ++ bytes).length)

/-- Wherever they stand, the decoder reads `bytes` as `a`. -/
def Reads {α : Type} (d : Decoder α) (bytes : Bytes) (a : α) : Prop := ∀ before, ReadsAt d before bytes a

variable {α β : Type}

/-- A decoder that reads nothing reads no bytes. -/
theorem ReadsAt.pure (before : Bytes) (a : α) : ReadsAt (Pure.pure a) before [] a := by
  intro after
  rw [List.append_nil]
  rfl

theorem Reads.pure (a : α) : Reads (Pure.pure a) [] a := fun before => ReadsAt.pure before a

/-- One decoder reads behind the other. -/
theorem ReadsAt.bind {d : Decoder α} {f : α → Decoder β} {before bytes bytes' : Bytes} {a : α} {b : β}
    (h : ReadsAt d before bytes a) (h' : ReadsAt (f a) (before ++ bytes) bytes' b) :
    ReadsAt (d >>= f) before (bytes ++ bytes') b := by
  intro after
  have h1 := h (bytes' ++ after)
  have h2 := h' after
  rw [← List.append_assoc] at h1
  rw [← List.append_assoc]
  change Decoder.bind d f _ _ = _
  rw [Decoder.bind, h1]
  exact h2

/-- A decoder that looks at nothing hands on to the next. -/
theorem ReadsAt.bind_nil {d : Decoder α} {f : α → Decoder β} {before bytes : Bytes} {a : α} {b : β}
    (h : ReadsAt d before [] a) (h' : ReadsAt (f a) before bytes b) : ReadsAt (d >>= f) before bytes b := by
  have h' : ReadsAt (f a) (before ++ []) bytes b := by rwa [List.append_nil]
  exact h.bind h'

/-- Decoders that run one after the other read their bytes one behind the other. -/
theorem Reads.bind {d : Decoder α} {f : α → Decoder β} {bytes bytes' : Bytes} {a : α} {b : β}
    (h : Reads d bytes a) (h' : Reads (f a) bytes' b) : Reads (d >>= f) (bytes ++ bytes') b :=
  fun before => (h before).bind (h' _)

theorem Reads.of_eq {d : Decoder α} {bytes : Bytes} {a b : α} (h : Reads d bytes a) (hab : a = b) : Reads d bytes b := hab ▸ h

/-- What is left to do after the last bytes takes none. -/
theorem Reads.bind_end {d : Decoder α} {f : α → Decoder β} {bytes : Bytes} {a : α} {b : β}
    (h : Reads d bytes a) (h' : Reads (f a) [] b) : Reads (d >>= f) bytes b := by
  have hb := h.bind h'
  rwa [List.append_nil] at hb

/-- The last step of a decoder: what it answers, made of what was read. -/
theorem Reads.bind_pure {d : Decoder α} {bytes : Bytes} {a : α} (h : Reads d bytes a) (f : α → β) :
    Reads (d >>= fun a => Pure.pure (f a)) bytes (f a) :=
  h.bind_end (Reads.pure (f a))

/-- What is made of an answer is read off the same bytes. -/
theorem Reads.map {d : Decoder α} {bytes : Bytes} {a : α} (h : Reads d bytes a) (f : α → β) : Reads (f <$> d) bytes (f a) :=
  h.bind_pure f

/-- A choice between two decoders runs before what follows both. -/
theorem ite_bind (c : Prop) [Decidable c] (d d' : Decoder α) (f : α → Decoder β) :
    (if c then d >>= f else d' >>= f) = (if c then d else d') >>= f := by
  split <;> rfl

/-- Asking for the position reads no bytes. -/
theorem readsAt_position (before : Bytes) : ReadsAt position before [] before.length := by
  intro after
  rw [List.append_nil]
  rfl

/-- Skipping ahead passes over a gap. -/
theorem readsAt_seek (before gap : Bytes) : ReadsAt (seek (before ++ gap).length) before gap () := fun _ => rfl

/-- Bytes that are taken are read as themselves. -/
theorem reads_take (bytes : Bytes) : Reads (take bytes.length) bytes bytes := by
  intro before after
  rw [take, if_pos (by simp), List.append_assoc, List.drop_left, List.take_left, List.length_append]

/-- A word is read as it was written, cut to its 32 bits. -/
theorem reads_word (n : Nat) : Reads word (word32 n) (n % widthLimit 32) := by
  have h := (reads_take (word32 n)).bind_pure ofLittleEndian
  rw [length_word32] at h
  rwa [word32, ofLittleEndian_littleEndian] at h

/-- A word that holds fields is read with all of them. -/
theorem reads_packFields (fields : List (Nat × Nat)) (h : total Prod.fst fields ≤ 32) :
    Reads word (word32 (packFields fields)) (packFields fields) := by
  have hw := reads_word (packFields fields)
  rwa [packFields_mod fields 32 h] at hw

/-- A long word is read as it was written, cut to its 64 bits. -/
theorem reads_longWord (n : Nat) : Reads longWord (word64 n) (n % widthLimit 64) := by
  have hn : packFields [(32, n % widthLimit 32), (32, n / widthLimit 32 % widthLimit 32)] = n % widthLimit 64 := by
    have h := packFields_cuts n 0 [32, 32]
    rwa [cuts, cuts, cuts, bits_zero, Nat.zero_add, bits_zero] at h
  have h := (reads_word n).bind (f := fun low => do
    let high ← word
    return packFields [(32, low), (32, high)]) ((reads_word (n / widthLimit 32)).bind_pure _)
  rwa [hn, ← word64_eq] at h

/-- Values written one behind the other are read in order. -/
theorem reads_times {γ : Type} {d : Decoder α} {write : γ → Bytes} {view : γ → α} (h : ∀ x, Reads d (write x) (view x))
    (xs : List γ) : Reads (times d xs.length) (xs.flatMap write) (xs.map view) := by
  induction xs with
  | nil => exact Reads.pure []
  | cons x xs ih => exact (h x).bind (ih.bind_pure _)

/-- Reading from the start of an image. -/
theorem run_eq_of_readsAt {d : Decoder α} {bytes : Bytes} {a : α} (h : ReadsAt d [] bytes a) (after : Bytes) :
    d.run (bytes ++ after) = .ok a := by
  have hd : d (bytes ++ after) 0 = .ok (a, bytes.length) := h after
  rw [run, hd]
  rfl

end Decoder

end Microkernel.Wire
