import Microkernel.BitField

/-!
# Bytes and words

The alphabet of every wire format of the library: byte strings, little-endian words and alignment. `ofLittleEndian_littleEndian`
says that a number is read as it was written, cut to the width of its bytes.
-/

namespace Microkernel.Wire

/-- A byte string. -/
abbrev Bytes := List UInt8

/-- The lowest `width` bytes of `n`, least significant first. -/
def littleEndian : Nat → Nat → Bytes
  | 0, _ => []
  | width + 1, n => UInt8.ofNat n :: littleEndian width (n / 256)

/-- The number whose little-endian bytes are given. -/
def ofLittleEndian : Bytes → Nat
  | [] => 0
  | b :: rest => b.toNat + 256 * ofLittleEndian rest

/-- Four bytes of a word. -/
def word32 (n : Nat) : Bytes := littleEndian 4 n

/-- Eight bytes of a long word. -/
def word64 (n : Nat) : Bytes := littleEndian 8 n

/-- A run of zero bytes. -/
def zeros (n : Nat) : Bytes := List.replicate n 0

/-- Extends `bytes` with zeros to at least `n` bytes. -/
def padTo (n : Nat) (bytes : Bytes) : Bytes := bytes ++ zeros (n - bytes.length)

/-- The least multiple of `unit` that is at least `n`. -/
def alignUp (n unit : Nat) : Nat := (n + (unit - 1)) / unit * unit

/-- The number of `unit`-sized pieces that hold `n`. -/
def piecesOf (n unit : Nat) : Nat := (n + (unit - 1)) / unit

/-- A number is laid out in as many bytes as it is to have. -/
@[simp] theorem length_littleEndian (width n : Nat) : (littleEndian width n).length = width := by
  induction width generalizing n with
  | zero => rfl
  | succ width ih => simp [littleEndian, ih]

/-- There are as many zeros as were asked for. -/
@[simp] theorem length_zeros (n : Nat) : (zeros n).length = n := List.length_replicate

/-- What was laid out is read back, but for what did not fit into the bytes. -/
theorem ofLittleEndian_littleEndian (width n : Nat) :
    ofLittleEndian (littleEndian width n) = n % widthLimit (8 * width) := by
  induction width generalizing n with
  | zero =>
    have h : widthLimit 0 = 1 := rfl
    rw [Nat.mul_zero, h, Nat.mod_one]
    rfl
  | succ width ih =>
    have h : widthLimit 8 = 256 := rfl
    rw [littleEndian, ofLittleEndian, ih, Nat.mul_succ, Nat.add_comm (8 * width), widthLimit_add, h, Nat.mod_mul]
    simp

end Microkernel.Wire
