/-!
# Hexadecimal text

Addresses are written in hexadecimal.

## Main definitions

* `Text.hex`, `Text.paddedHex` — a word, with the digits it needs or with all of them.
-/

namespace JitSupport.Text

/-- The digits a word needs, in lower case. -/
def hexDigits (n : UInt64) : String := String.ofList (Nat.toDigits 16 n.toNat)

/-- A word in hexadecimal with the digits it needs. -/
def hex (n : UInt64) : String := "0x" ++ hexDigits n

/-- A word in hexadecimal with all sixteen digits. -/
def paddedHex (n : UInt64) : String :=
  "0x" ++ String.ofList ((Nat.toDigits 16 n.toNat).leftpad 16 '0')

end JitSupport.Text
