import JitSupport.Failure
import JitSupport.Word

/-!
# Pages

Memory is mapped and protected in whole pages.  A page size is a power of two,
so the page of an address is found by masking.  Rounding is given the page size and
refuses one that is no power of two, as a build with assertions for debugging does.

The host is taken to have pages of 4096 bytes, whatever keeps its instruction cache:
`Page.size` is this one number on every platform, and all that is said about mappings
and memory for code is said about hosts with such pages.

## Main definitions

* `Page.size` — the page size of the host.
* `Page.floor`, `Page.ceil` — an address rounded to whole pages of a given size.

## Main results

* `Page.le_of_floor`, `Page.le_of_ceil` — on which side of an address its roundings lie.
-/

namespace JitSupport.Page

/-- The page size of the host.  Every host is taken to have pages of this size. -/
def size : UInt64 := 4096

/-- The start of the page that holds an address. -/
def floor (address pageSize : UInt64) : Except Violation UInt64 :=
  if pageSize.IsPowerOfTwo then .ok (address.alignDown pageSize) else .error .pageSize

/-- The first page boundary that is not below a number of bytes, or `none` when no
word holds it. -/
def ceil (bytes pageSize : UInt64) : Except Violation (Option UInt64) :=
  if pageSize.IsPowerOfTwo then .ok (bytes.alignUp? pageSize) else .error .pageSize

variable {address bytes pageSize start stop : UInt64}

theorem floor_of_isPowerOfTwo (h : pageSize.IsPowerOfTwo) :
    floor address pageSize = .ok (address.alignDown pageSize) := if_pos h

theorem floor_of_not_isPowerOfTwo (h : ¬ pageSize.IsPowerOfTwo) :
    floor address pageSize = .error .pageSize := if_neg h

theorem ceil_of_isPowerOfTwo (h : pageSize.IsPowerOfTwo) :
    ceil bytes pageSize = .ok (bytes.alignUp? pageSize) := if_pos h

theorem ceil_of_not_isPowerOfTwo (h : ¬ pageSize.IsPowerOfTwo) :
    ceil bytes pageSize = .error .pageSize := if_neg h

theorem le_of_floor (h : floor address pageSize = .ok start) : start ≤ address := by
  unfold floor at h
  split at h
  next =>
    cases h
    exact UInt64.alignDown_le ..
  next => cases h

theorem le_of_ceil (h : ceil bytes pageSize = .ok (some stop)) : bytes ≤ stop := by
  unfold ceil at h
  split at h
  next hp =>
    rw [Except.ok.injEq] at h
    exact UInt64.le_of_alignUp? hp h
  next => cases h

theorem isPowerOfTwo_size : size.IsPowerOfTwo := by decide

@[simp] theorem floor_size (address : UInt64) : floor address size = .ok (address.alignDown size) :=
  floor_of_isPowerOfTwo isPowerOfTwo_size

@[simp] theorem ceil_size (bytes : UInt64) : ceil bytes size = .ok (bytes.alignUp? size) :=
  ceil_of_isPowerOfTwo isPowerOfTwo_size

end JitSupport.Page
