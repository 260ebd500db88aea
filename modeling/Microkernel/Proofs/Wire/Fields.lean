import Microkernel.BitField
import Microkernel.Memory.PageList

/-!
# Fields of words

Laws of `bits` and `packFields` beyond the first field: a row of fields fits the word that is as wide as they are together, every
field behind another is read behind it, and the pieces of a number, packed in order, are the number again.
-/

namespace Microkernel

theorem widthLimit_zero : widthLimit 0 = 1 := rfl

/-- A row of fields fits a word as wide as the fields together. -/
theorem packFields_lt (fields : List (Nat × Nat)) : packFields fields < widthLimit (total Prod.fst fields) := by
  induction fields with
  | nil => exact widthLimit_pos 0
  | cons field rest ih =>
    obtain ⟨width, value⟩ := field
    have hv : value % widthLimit width < widthLimit width := Nat.mod_lt _ (widthLimit_pos width)
    have hr : widthLimit width * (packFields rest + 1) ≤ widthLimit width * widthLimit (total Prod.fst rest) :=
      Nat.mul_le_mul_left _ ih
    rw [Nat.mul_add, Nat.mul_one] at hr
    simp only [packFields, total, widthLimit_add]
    omega

/-- A word that holds the fields of a row loses nothing of them. -/
theorem packFields_mod (fields : List (Nat × Nat)) (width : Nat) (h : total Prod.fst fields ≤ width) :
    packFields fields % widthLimit width = packFields fields := by
  apply Nat.mod_eq_of_lt
  exact Nat.lt_of_lt_of_le (packFields_lt fields) (Nat.pow_le_pow_right (by decide) h)

attribute [simp] bits_packFields_cons

/-- A field that begins behind the first one is a field of the rest. -/
@[simp] theorem bits_packFields_of_le (width value low len : Nat) (rest : List (Nat × Nat)) (h : width ≤ low) :
    bits (packFields ((width, value) :: rest)) low len = bits (packFields rest) (low - width) len := by
  obtain ⟨k, rfl⟩ := Nat.exists_eq_add_of_le h
  rw [bits_packFields_skip, Nat.add_sub_cancel_left]

/-- A field is as small as its width says. -/
theorem bits_lt (word low width : Nat) : bits word low width < widthLimit width := Nat.mod_lt _ (widthLimit_pos width)

/-- The bits of a field fit its width. -/
@[simp] theorem bits_mod_widthLimit (word low width : Nat) : bits word low width % widthLimit width = bits word low width :=
  Nat.mod_eq_of_lt (bits_lt word low width)

/-- The lowest bits of a number. -/
theorem bits_zero (n width : Nat) : bits n 0 width = n % widthLimit width := by
  rw [bits, widthLimit_zero, Nat.div_one]

/-- A field and the field above it are one field. -/
theorem bits_add (n low width width' : Nat) :
    bits n low width + widthLimit width * bits n (low + width) width' = bits n low (width + width') := by
  rw [bits, bits, bits, widthLimit_add, widthLimit_add, ← Nat.div_div_eq_div_mul, Nat.mod_mul]

/-- The pieces of a number from bit `low` on, one behind the other. -/
def cuts (n low : Nat) : List Nat → List (Nat × Nat)
  | [] => []
  | width :: widths => (width, bits n low width) :: cuts n (low + width) widths

/-- The pieces of a number, packed again, are its bits from the first to the last piece. -/
theorem packFields_cuts (n low : Nat) (widths : List Nat) : packFields (cuts n low widths) = bits n low (total id widths) := by
  induction widths generalizing low with
  | nil => rw [cuts, packFields, total, bits, widthLimit_zero, Nat.mod_one]
  | cons width widths ih =>
    rw [cuts, packFields, ih, bits_mod_widthLimit, bits_add]
    rfl

end Microkernel
