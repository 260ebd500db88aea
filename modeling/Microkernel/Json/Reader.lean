import Microkernel.Text.Hex
import Microkernel.Json.Basic

/-!
# Reading JSON text

A strict reader: one value, blanks around it, nothing behind it. Every function answers with what it read and the characters that
are left; `Json.parse` supplies as many steps as the text has characters, and each step consumes one.
-/

namespace Microkernel.Json

/-- The characters that may stand between tokens. -/
def isBlank (c : Char) : Bool := c = ' ' || c = '\n' || c = '\t' || c = '\r'

def skipBlanks (s : List Char) : List Char := s.dropWhile isBlank

/-- Four hexadecimal digits. -/
def readUnit : List Char → Option (Nat × List Char)
  | a :: b :: c :: d :: rest => do
    return ((← Text.digitValue? a) * 4096 + (← Text.digitValue? b) * 256 + (← Text.digitValue? c) * 16 + (← Text.digitValue? d), rest)
  | _ => none

/-- A character written as one 16-bit unit or as a pair of surrogates; a surrogate without its partner stands for no character. -/
def readUnicode (s : List Char) : Option (Option Char × List Char) := do
  let (unit, rest) ← readUnit s
  if 0xD800 ≤ unit ∧ unit < 0xDC00 then
    match rest with
    | '\\' :: 'u' :: next =>
      let (low, next) ← readUnit next
      if 0xDC00 ≤ low ∧ low < 0xE000 then
        some (some (Char.ofNat (0x10000 + (unit - 0xD800) * 0x400 + (low - 0xDC00))), next)
      else some (none, rest)
    | _ => some (none, rest)
  else if 0xDC00 ≤ unit ∧ unit < 0xE000 then some (none, rest)
  else some (some (Char.ofNat unit), rest)

/-- What follows a backslash inside a string. -/
def readEscape : List Char → Option (Option Char × List Char)
  | '"' :: rest => some (some '"', rest)
  | '\\' :: rest => some (some '\\', rest)
  | '/' :: rest => some (some '/', rest)
  | 'b' :: rest => some (some '\x08', rest)
  | 'f' :: rest => some (some '\x0c', rest)
  | 'n' :: rest => some (some '\n', rest)
  | 'r' :: rest => some (some '\r', rest)
  | 't' :: rest => some (some '\t', rest)
  | 'u' :: rest => readUnicode rest
  | _ => none

/-- The characters up to the closing quote, `none` for a surrogate that stands alone; control characters must be escaped. -/
def readString : Nat → List Char → Option (List (Option Char) × List Char)
  | 0, _ => none
  | _ + 1, [] => none
  | _ + 1, '"' :: rest => some ([], rest)
  | fuel + 1, '\\' :: rest => do
    let (c, rest) ← readEscape rest
    let (text, rest) ← readString fuel rest
    return (c :: text, rest)
  | fuel + 1, c :: rest =>
    if c.toNat < 0x20 then none
    else do
      let (text, rest) ← readString fuel rest
      return (some c :: text, rest)

/-- The text that was read, unless a surrogate stands alone in it. -/
def textOf (cs : List (Option Char)) : Option String := (cs.mapM id).map String.ofList

/-- A run of digits. -/
def readDigits (s : List Char) : List Char × List Char := s.span Char.isDigit

/-- The number that a run of digits stands for. -/
def digitsValue (digits : List Char) : Nat := digits.foldl (fun n c => n * 10 + (c.toNat - '0'.toNat)) 0

/-- A fraction, if one follows: whether it does, and the rest. -/
def readFraction : List Char → Option (Bool × List Char)
  | '.' :: rest =>
    let (digits, rest) := readDigits rest
    if digits.isEmpty then none else some (true, rest)
  | s => some (false, s)

/-- An exponent, if one follows: whether it does, and the rest. -/
def readExponent : List Char → Option (Bool × List Char)
  | c :: rest =>
    if c = 'e' ∨ c = 'E' then
      let unsigned := match rest with
        | '+' :: rest => rest
        | '-' :: rest => rest
        | rest => rest
      let (digits, rest) := readDigits unsigned
      if digits.isEmpty then none else some (true, rest)
    else some (false, c :: rest)
  | [] => some (false, [])

/-- A number, its sign already read. -/
def readNumber (negative : Bool) (s : List Char) : Option (Json × List Char) := do
  let (digits, rest) := readDigits s
  if digits.isEmpty ∨ (digits.head? = some '0' ∧ 1 < digits.length) then none
  let (fraction, rest) ← readFraction rest
  let (exponent, rest) ← readExponent rest
  let value := digitsValue digits
  let exact := !fraction && !exponent && (if negative then 0 < value && value ≤ widthLimit 63 else value < widthLimit 64)
  return (if exact then .number (if negative then -value else value) else .inexact, rest)

mutual

/-- One value, blanks before it skipped. -/
def readValue : Nat → List Char → Option (Json × List Char)
  | 0, _ => none
  | fuel + 1, s =>
    match skipBlanks s with
    | 'n' :: 'u' :: 'l' :: 'l' :: rest => some (.null, rest)
    | 't' :: 'r' :: 'u' :: 'e' :: rest => some (.bool true, rest)
    | 'f' :: 'a' :: 'l' :: 's' :: 'e' :: rest => some (.bool false, rest)
    | '"' :: rest => (readString fuel rest).map fun (cs, rest) => (((textOf cs).map Json.string).getD .unpaired, rest)
    | '[' :: rest =>
      match skipBlanks rest with
      | ']' :: rest => some (.array [], rest)
      | rest => (readItems fuel rest).map fun (items, rest) => (.array items, rest)
    | '\x7b' :: rest =>
      match skipBlanks rest with
      | '\x7d' :: rest => some (.object [], rest)
      | rest => (readMembers fuel rest).map fun (members, rest) => (.object members, rest)
    | '-' :: rest => readNumber true rest
    | rest => readNumber false rest

/-- The items of an array and its closing bracket. -/
def readItems : Nat → List Char → Option (List Json × List Char)
  | 0, _ => none
  | fuel + 1, s => do
    let (item, rest) ← readValue fuel s
    match skipBlanks rest with
    | ',' :: rest =>
      let (items, rest) ← readItems fuel rest
      return (item :: items, rest)
    | ']' :: rest => return ([item], rest)
    | _ => none

/-- The members of an object and its closing brace. -/
def readMembers : Nat → List Char → Option (List (String × Json) × List Char)
  | 0, _ => none
  | fuel + 1, s => do
    match skipBlanks s with
    | '"' :: rest =>
      let (name, rest) ← readString fuel rest
      match skipBlanks rest with
      | ':' :: rest =>
        let (value, rest) ← readValue fuel rest
        let member := (← textOf name, value)
        match skipBlanks rest with
        | ',' :: rest =>
          let (members, rest) ← readMembers fuel rest
          return (member :: members, rest)
        | '\x7d' :: rest => return ([member], rest)
        | _ => none
      | _ => none
    | _ => none

end

/-- The value that a text holds. -/
def parse (text : String) : Option Json :=
  let s := text.toList
  match readValue (s.length + 1) s with
  | some (value, rest) => if (skipBlanks rest).isEmpty then some value else none
  | none => none

end Microkernel.Json
