import JitSupport.MemoryRange

/-!
# Writing addresses

The operating system places memory where it likes.  So that what is written about
a region does not depend on the place, an address in the region can be written as
an offset from the start of the region.

## Main definitions

* `Text.AddressStyle` — whether there is a region to refer to.
* `AddressStyle.address`, `AddressStyle.range` — the text of an address and of a range.
-/

namespace JitSupport.Text

/-- How addresses are written. -/
inductive AddressStyle
  /-- Every address as it is. -/
  | absolute
  /-- Addresses in a region, its end included, as offsets from its start. -/
  | relativeTo (region : MemoryRange)
  deriving DecidableEq, Repr

namespace AddressStyle

/-- The text of an address. -/
def address : AddressStyle → UInt64 → String
  | absolute, a => hex a
  | relativeTo region, a =>
    if region.start ≤ a ∧ a ≤ region.stop then "base+" ++ hex (a - region.start) else hex a

/-- The text of a range. -/
def range (style : AddressStyle) (r : MemoryRange) : String :=
  style.address r.start ++ ".." ++ style.address r.stop

end AddressStyle

end JitSupport.Text
