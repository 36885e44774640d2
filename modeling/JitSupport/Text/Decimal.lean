/-!
# Decimal words

Numbers and offsets are written with the decimal digits they need, without a sign and
without separators.

## Main definitions

* `Text.Decimal.encode` — the digits of a word.
-/

namespace JitSupport.Text.Decimal

/-- The decimal digits of a word. -/
def encode (n : UInt64) : String := toString n.toNat

end JitSupport.Text.Decimal
