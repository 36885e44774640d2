import JitSupport.ByteString

/-!
# Bytes of fresh memory

Fresh memory holds zeros.  Only the bytes up to the last one that was ever written
are kept; all others are known to be zero.  A long stretch that was skipped or filled
takes one run, so that large memory with little in it stays small.

## Main definitions

* `Cells` — the contents of memory.
* `Cells.get`, `Cells.read` — one byte, and some bytes in a row.
* `Cells.write` — some bytes in a row replaced.

## Main results

* `Cells.get_write` — a byte is what was written to it last.
* `Cells.getElem?_read` — reading in a row reads byte by byte.
-/

namespace JitSupport

/-- The contents of memory that was filled with zeros before use. -/
structure Cells where
  /-- The bytes from the first one on; all bytes behind them are zero. -/
  touched : ByteString
  deriving Repr

namespace Cells

/-- Memory that was never written. -/
def zero : Cells := ⟨.empty⟩

/-- The byte at an offset. -/
def get (c : Cells) (i : Nat) : UInt8 := c.touched.toList.getD i 0

@[simp] theorem get_zero (i : Nat) : zero.get i = 0 := rfl

/-- The `len` bytes from an offset on. -/
def read (c : Cells) (offset len : Nat) : ByteString :=
  ((c.touched.rightpad (offset + len) 0).drop offset).take len

/-- The memory with bytes replaced from an offset on. -/
def write (c : Cells) (offset : Nat) (bytes : ByteString) : Cells :=
  ⟨(c.touched.rightpad offset 0).take offset ++ bytes ++ c.touched.drop (offset + bytes.length)⟩

theorem getElem?_rightpad (l : List UInt8) {i n : Nat} (h : i < n) :
    (l.rightpad n 0)[i]? = some (l.getD i 0) := by
  rw [List.rightpad, List.getElem?_append]
  split
  next hi => simp [List.getD_eq_getElem?_getD, hi]
  next hi =>
    rw [List.getElem?_replicate, if_pos (by omega), List.getD_eq_getElem?_getD,
      List.getElem?_eq_none (by omega), Option.getD_none]

/-- Reading in a row reads byte by byte. -/
theorem getElem?_read (c : Cells) (offset len i : Nat) :
    (c.read offset len).toList[i]? = if i < len then some (c.get (offset + i)) else none := by
  rw [read, ByteString.toList_take, ByteString.toList_drop, ByteString.toList_rightpad,
    List.getElem?_take]
  split
  next h => rw [List.getElem?_drop, getElem?_rightpad _ (by omega), get]
  next h => rfl

@[simp] theorem length_read (c : Cells) (offset len : Nat) : (c.read offset len).length = len := by
  simp [← ByteString.length_toList, read]
  omega

/-- A byte is what was written to it last. -/
theorem get_write (c : Cells) (offset : Nat) (bytes : ByteString) (i : Nat) :
    (c.write offset bytes).get i =
      if offset ≤ i ∧ i < offset + bytes.length then bytes.toList.getD (i - offset) 0
      else c.get i := by
  have hlen : ((c.touched.toList.rightpad offset 0).take offset).length = offset := by
    simp
    omega
  simp only [get, write, List.getD_eq_getElem?_getD, ByteString.toList_append,
    ByteString.toList_take, ByteString.toList_drop, ByteString.toList_rightpad,
    ← ByteString.length_toList, List.append_assoc]
  rw [List.getElem?_append, hlen]
  split
  next h =>
    rw [if_neg (by omega), List.getElem?_take, if_pos h, getElem?_rightpad _ h,
      List.getD_eq_getElem?_getD, Option.getD_some]
  next h =>
    rw [List.getElem?_append]
    split
    next hi => rw [if_pos (by omega)]
    next hi =>
      rw [if_neg (by omega), List.getElem?_drop]
      congr 2
      omega

end Cells

end JitSupport
