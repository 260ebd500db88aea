import Microkernel.BitField

/-!
# JSON values and records
-/

namespace Microkernel

/-!
## JSON values

The value type in which the library writes configurations and records. An object keeps its members in the order they were written,
repeated names included.
-/

/-- A JSON value. -/
inductive Json
  | null
  | bool (value : Bool)
  /-- A number that a 64-bit word holds, signed or unsigned. -/
  | number (value : Int)
  /-- Any other number: fractions, exponents, negative zero, and numbers that leave the word. -/
  | inexact
  | string (text : String)
  /-- A string in which a surrogate stands alone. It holds no text, so only a reader that passes over the value accepts it. -/
  | unpaired
  | array (items : List Json)
  | object (members : List (String × Json))
  deriving Repr, Inhabited

namespace Json

/-- A number that counts something. -/
def nat (n : Nat) : Json := .number n

/-- A value, or `null`. -/
def opt {α : Type} (write : α → Json) : Option α → Json
  | some a => write a
  | none => .null

/-- An array of written values. -/
def list {α : Type} (write : α → Json) (items : List α) : Json := .array (items.map write)

/-- The last member with a name. -/
def member? (name : String) : Json → Option Json
  | .object members => (members.reverse.find? (·.1 = name)).map (·.2)
  | _ => none

/-! ### Reading with limits -/

def bool? : Json → Option Bool
  | .bool b => some b
  | _ => none

def string? : Json → Option String
  | .string s => some s
  | _ => none

def array? : Json → Option (List Json)
  | .array items => some items
  | _ => none

/-- A number that is not negative. -/
def nat? : Json → Option Nat
  | .number (.ofNat n) => some n
  | _ => none

/-- A number that `width` bits hold. -/
def word? (width : Nat) (j : Json) : Option Nat := j.nat?.filter (· < widthLimit width)

end Json

end Microkernel

/-!
## Records and variants in JSON

How the library reads its structures. A record is an object with named fields or an array with the same fields in order; unknown
names are ignored, a name that stands twice is refused. A variant without data is its name; one with data is an object whose only
member is the variant's name.
-/

namespace Microkernel.Json

/-- The fields of a record as far as they were given, in the order of the record. -/
structure Row where
  values : List (Option Json)
  /-- The record was written as an array. -/
  positional : Bool

namespace Row

/-- Sorts the members of an object, or the items of an array, under the names of the fields. -/
def ofJson? (names : List String) : Json → Option Row
  | .object members =>
    if names.any fun name => 1 < (members.filter (·.1 = name)).length then none
    else some { values := names.map fun name => (members.find? (·.1 = name)).map (·.2), positional := false }
  | .array items =>
    if names.length < items.length then none
    else some { values := (names.zipIdx).map fun (_, i) => items[i]?, positional := true }
  | _ => none

/-- The field at a position, if it was given. -/
def get? (r : Row) (i : Nat) : Option Json := (r.values[i]?).join

/-- A field that must be given. -/
def required {α : Type} (r : Row) (i : Nat) (read : Json → Option α) : Option α := r.get? i >>= read

/-- A field that may be `null`, and in an object may be left out. -/
def optional {α : Type} (r : Row) (i : Nat) (read : Json → Option α) : Option (Option α) :=
  match r.get? i with
  | none => if r.positional then none else some none
  | some .null => some none
  | some value => (read value).map some

/-- A field with a value to fall back on. -/
def defaulted {α : Type} (r : Row) (i : Nat) (fallback : α) (read : Json → Option α) : Option α :=
  match r.get? i with
  | none => some fallback
  | some value => read value

end Row

/-- A variant's name and its data. -/
def variant? : Json → Option (String × Json)
  | .string name => some (name, .null)
  | .object [(name, value)] => some (name, value)
  | _ => none

/-- A variant that carries no data, among those with a name. -/
def unitVariant? {α : Type} (all : List α) (name : α → String) (j : Json) : Option α :=
  match variant? j with
  | some (found, .null) => all.find? fun a => name a = found
  | _ => none

/-- A record's object: names and values in order. -/
def record (fields : List (String × Json)) : Json := .object fields

/-- A variant that carries data. -/
def tagged (name : String) (value : Json) : Json := .object [(name, value)]

end Microkernel.Json
