import JitSupport.Word

/-!
# Cache lines

A cache keeps memory in lines of a fixed size, a power of two.  Maintenance by
address is asked for once per line, so a range of addresses is walked in steps of a
line, from the line of its first address on.

The walk steps by a saturating sum.  A line that ends at the top of the address
space is followed by the largest address, which is below no bound, and the walk
ends there as well.

## Main definitions

* `LineSize` — the size of the lines of a cache.
* `LineSize.lines` — the lines that a range of addresses touches.
-/

namespace JitSupport

/-- The size of the lines of a cache: a power of two. -/
structure LineSize where
  /-- The number of bytes in a line. -/
  bytes : UInt64
  /-- Lines are as long as a power of two. -/
  isPowerOfTwo : bytes.IsPowerOfTwo

namespace LineSize

theorem bytes_pos (size : LineSize) : 0 < size.bytes.toNat := size.isPowerOfTwo.toNat_pos

/-- The addresses `address`, `address + bytes`, … below `stop`. -/
def linesFrom (size : LineSize) (address stop : UInt64) : List UInt64 :=
  if address < stop then
    address :: size.linesFrom (address.saturatingAdd size.bytes) stop
  else []
termination_by stop.toNat - address.toNat
decreasing_by
  next h =>
    have hpos := size.bytes_pos
    have hstop := stop.toNat_lt
    rw [UInt64.lt_iff_toNat_lt] at h
    rw [UInt64.toNat_saturatingAdd, UInt64.size]
    omega

/-- The lines from the one that holds `start` on that begin below `stop`. -/
def lines (size : LineSize) (start stop : UInt64) : List UInt64 :=
  size.linesFrom (start.alignDown size.bytes) stop

theorem linesFrom_of_lt {size : LineSize} {address stop : UInt64} (h : address < stop) :
    size.linesFrom address stop
      = address :: size.linesFrom (address.saturatingAdd size.bytes) stop := by
  rw [linesFrom, if_pos h]

theorem linesFrom_of_le {size : LineSize} {address stop : UInt64} (h : stop ≤ address) :
    size.linesFrom address stop = [] := by
  rw [linesFrom, if_neg (UInt64.not_lt.mpr h)]

/-! ### Sizes from a register field -/

theorem isPowerOfTwo_shift (field : UInt64) : ((4 : UInt64) <<< (field &&& 0xF)).IsPowerOfTwo := by
  have hlt : (field &&& 0xF).toNat < 16 := by
    rw [UInt64.toNat_and]
    exact Nat.lt_succ_of_le Nat.and_le_right
  have hall : ∀ k : Fin 16, ((4 : UInt64) <<< UInt64.ofNat k).IsPowerOfTwo := by decide
  simpa using hall ⟨_, hlt⟩

/-- The size that a field of four bits stands for: four bytes, doubled as often as the
field says. -/
def ofField (field : UInt64) : LineSize := ⟨4 <<< (field &&& 0xF), isPowerOfTwo_shift field⟩

@[simp] theorem bytes_ofField (field : UInt64) :
    (ofField field).bytes = 4 <<< (field &&& 0xF) := rfl

end LineSize

end JitSupport
