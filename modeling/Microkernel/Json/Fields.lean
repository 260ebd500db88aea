import Microkernel.Json.Basic
import Microkernel.Text.Hex

/-!
# Fields with defaults

Descriptions are JSON objects in which any field can be left out; one that is missing, or is not of the kind asked for, has its
default.
-/

namespace Microkernel.Json

/-- A field, or null. -/
def field (j : Json) (name : String) : Json := (j.member? name).getD .null

/-- Whether a field is a number. -/
def hasNumber (j : Json) (name : String) : Bool := j.field name matches .number _

/-- Whether a field is missing or null. -/
def lacks (j : Json) (name : String) : Bool := j.field name matches .null

/-- A long word, or a default. -/
def numberOr (fallback : Nat) (j : Json) : Nat := (j.word? 64).getD fallback

/-- A long word in a field, or a default. -/
def natOr (j : Json) (name : String) (fallback : Nat) : Nat := (j.field name).numberOr fallback

/-- A long word in a field, or zero. -/
def num (j : Json) (name : String) : Nat := j.natOr name 0

/-- The low half of a long word in a field. -/
def num32 (j : Json) (name : String) : Nat := bits (j.num name) 0 32

/-- A signed long word in a field, or a default. -/
def intOr (j : Json) (name : String) (fallback : Int) : Int :=
  match j.field name with
  | .number i => if -0x8000000000000000 ≤ i ∧ i < 0x8000000000000000 then i else fallback
  | _ => fallback

/-- A text in a field, or a default. -/
def textOr (j : Json) (name fallback : String) : String := ((j.field name).string?).getD fallback

/-- A text in a field, or the empty one. -/
def text (j : Json) (name : String) : String := j.textOr name ""

/-- Whether a field is true. -/
def flag (j : Json) (name : String) : Bool := ((j.field name).bool?).getD false

/-- The items of an array in a field. -/
def items (j : Json) (name : String) : List Json := ((j.field name).array?).getD []

/-- The long words of an array in a field. -/
def nums (j : Json) (name : String) : List Nat := (j.items name).map (numberOr 0)

/-- The low halves of the long words of an array in a field. -/
def nums32 (j : Json) (name : String) : List Nat := (j.nums name).map (bits · 0 32)

/-- The words of an array in a field. -/
def words (j : Json) (name : String) : List UInt32 := (j.nums name).map UInt32.ofNat

/-- The texts of an array in a field. -/
def texts (j : Json) (name : String) : List String := (j.items name).map fun t => (t.string?).getD ""

/-- Digits stand for their bytes, and digits with a star and a count for so many times their bytes. -/
def bytesOf (digits : String) : List UInt8 :=
  let read (digits : String) : List UInt8 := (Text.bytesOfHex? digits).getD []
  match digits.splitOn "*" with
  | [once] => read once
  | [once, count] => (List.replicate (count.toNat?.getD 0) (read once)).flatten
  | _ => []

/-- The bytes in a field. -/
def hex (j : Json) (name : String) : List UInt8 := bytesOf (j.text name)

/-! ## Positions in an array -/

def nth (j : Json) (i : Nat) : Json := ((j.array?).getD [])[i]?.getD .null

def nthNum (j : Json) (i : Nat) : Nat := (j.nth i).numberOr 0

def nthText (j : Json) (i : Nat) : String := ((j.nth i).string?).getD ""

def nthHex (j : Json) (i : Nat) : List UInt8 := bytesOf (j.nthText i)

/-- The one of several things whose name a text is. -/
def named {α : Type} (all : List α) (name : α → String) (text : String) : Option α := all.find? (name · = text)

end Microkernel.Json
