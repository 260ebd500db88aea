/-!
# Hexadecimal text

Numbers and byte strings in lower-case hexadecimal, as the library writes them in messages.
-/

namespace Microkernel.Text

/-- The hexadecimal digits of `n`, without leading zeros. -/
def hexDigits (n : Nat) : String := String.ofList (Nat.toDigits 16 n)

/-- The hexadecimal digits of `n`, filled with zeros on the left to `width` digits. -/
def hexPadded (width n : Nat) : String :=
  let digits := Nat.toDigits 16 n
  String.ofList (List.replicate (width - digits.length) '0' ++ digits)

/-- `n` in hexadecimal after the mark `0x`. -/
def hex (n : Nat) : String := "0x" ++ hexDigits n

/-- The decimal digits of `n`, filled with zeros on the left to `width` digits. -/
def decimalPadded (width n : Nat) : String :=
  let digits := Nat.toDigits 10 n
  String.ofList (List.replicate (width - digits.length) '0' ++ digits)

/-- The digits of a byte string, two for each byte. -/
def bytesHex (bytes : List UInt8) : String := String.join (bytes.map fun b => hexPadded 2 b.toNat)

/-- The value of a hexadecimal digit of either case. -/
def digitValue? (c : Char) : Option Nat :=
  if '0' ≤ c ∧ c ≤ '9' then some (c.toNat - '0'.toNat)
  else if 'a' ≤ c ∧ c ≤ 'f' then some (c.toNat - 'a'.toNat + 10)
  else if 'A' ≤ c ∧ c ≤ 'F' then some (c.toNat - 'A'.toNat + 10)
  else none

/-- Reads pairs of digits. -/
def readBytes : List Char → Option (List UInt8)
  | [] => some []
  | [_] => none
  | high :: low :: rest => do
    let byte := 16 * (← digitValue? high) + (← digitValue? low)
    return UInt8.ofNat byte :: (← readBytes rest)

/-- The byte string that a text of digits stands for. -/
def bytesOfHex? (text : String) : Option (List UInt8) := readBytes text.toList

end Microkernel.Text
