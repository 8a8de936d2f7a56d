/-!
# Hexadecimal text

Addresses and register values are written in lower-case hexadecimal behind `0x`, bare or
filled up with zeros to a fixed count of digits.
-/

namespace SocPeripherals.Text

/-- The lower-case hexadecimal digits of `value`, without leading zeros. -/
def hexDigits (value : Nat) : String :=
  String.ofList (Nat.toDigits 16 value)

/-- Writes `value` in hexadecimal behind `0x`. -/
def hex (value : Nat) : String :=
  "0x" ++ hexDigits value

/-- Writes `value` in hexadecimal behind `0x` with at least `count` digits. -/
def paddedHex (count value : Nat) : String :=
  let digits := Nat.toDigits 16 value
  "0x" ++ String.ofList (List.replicate (count - digits.length) '0' ++ digits)

/-- Two hexadecimal digits for one byte. -/
def byteDigits (byte : UInt8) : String :=
  String.ofList [Nat.digitChar (byte.toNat / 16), Nat.digitChar (byte.toNat % 16)]

/-- The bytes of a memory, two digits each, lowest address first. -/
def bytesDigits (bytes : List UInt8) : String :=
  String.join (bytes.map byteDigits)

end SocPeripherals.Text
