/-!
# Bit fields

Words as rows of bit fields. `bits` cuts a field out of a word and `packFields` puts a row of fields together;
`bits_packFields_cons` and `bits_packFields_skip` say that every field is read as it was written, cut to its width.
-/

namespace Microkernel

/-- The least number that `width` bits cannot hold. -/
def widthLimit (width : Nat) : Nat := Nat.pow 2 width

/-- Some value fits into a field of any width. -/
theorem widthLimit_pos (width : Nat) : 0 < widthLimit width := Nat.two_pow_pos width

/-- A field as wide as two others together holds as many values as they have pairs. -/
theorem widthLimit_add (m n : Nat) : widthLimit (m + n) = widthLimit m * widthLimit n := Nat.pow_add 2 m n

/-- The field of `width` bits that starts at bit `low` of `word`. -/
def bits (word low width : Nat) : Nat := word / widthLimit low % widthLimit width

/-- A word made of fields, each given by its width and its value, lowest first; a value is cut to its width. -/
def packFields : List (Nat × Nat) → Nat
  | [] => 0
  | (width, value) :: rest => value % widthLimit width + widthLimit width * packFields rest

/-- The lowest field of a packed word is the first one, cut to its width. -/
theorem bits_packFields_cons (width value : Nat) (rest : List (Nat × Nat)) :
    bits (packFields ((width, value) :: rest)) 0 width = value % widthLimit width := by
  have h : widthLimit 0 = 1 := rfl
  rw [bits, packFields, h, Nat.div_one, Nat.add_mul_mod_self_left, Nat.mod_mod]

/-- Above the first field stand the others as if they had been packed alone. -/
theorem bits_packFields_skip (width value low len : Nat) (rest : List (Nat × Nat)) :
    bits (packFields ((width, value) :: rest)) (width + low) len = bits (packFields rest) low len := by
  have h : (value % widthLimit width + widthLimit width * packFields rest) / widthLimit width = packFields rest := by
    rw [Nat.add_mul_div_left _ _ (widthLimit_pos width), Nat.div_eq_of_lt (Nat.mod_lt _ (widthLimit_pos width)), Nat.zero_add]
  rw [bits, bits, packFields, widthLimit_add, ← Nat.div_div_eq_div_mul, h]

end Microkernel
