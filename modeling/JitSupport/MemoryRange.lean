import JitSupport.Page

/-!
# Ranges of addresses

A range holds the addresses from its start up to, but not including, its stop.
No range ends before it starts; a pair of addresses in the wrong order is refused
where the range is made, so that every later step can rely on the order.

## Main definitions

* `MemoryRange` — a half-open range of addresses.
* `MemoryRange.ofBounds`, `MemoryRange.ofLength`, `MemoryRange.part` — the ways to make one.
* `MemoryRange.pageAligned` — the range widened to whole pages.
-/

namespace JitSupport

/-- The addresses from `start` up to, but not including, `stop`. -/
structure MemoryRange where
  /-- The first address. -/
  start : UInt64
  /-- The first address behind the range. -/
  stop : UInt64
  /-- A range does not end before it starts. -/
  start_le_stop : start ≤ stop
  deriving DecidableEq, Repr

namespace MemoryRange

instance : Membership UInt64 MemoryRange := ⟨fun r x => r.start ≤ x ∧ x < r.stop⟩

theorem mem_def {r : MemoryRange} {x : UInt64} : x ∈ r ↔ r.start ≤ x ∧ x < r.stop := Iff.rfl

instance (r : MemoryRange) (x : UInt64) : Decidable (x ∈ r) :=
  inferInstanceAs (Decidable (_ ∧ _))

/-- The number of addresses in the range. -/
def len (r : MemoryRange) : UInt64 := r.stop - r.start

/-- Whether the range holds no address. -/
def isEmpty (r : MemoryRange) : Bool := r.start == r.stop

/-- The two ends of the range. -/
def bounds (r : MemoryRange) : UInt64 × UInt64 := (r.start, r.stop)

theorem toNat_len (r : MemoryRange) : r.len.toNat = r.stop.toNat - r.start.toNat :=
  UInt64.toNat_sub_of_le _ _ r.start_le_stop

theorem isEmpty_iff {r : MemoryRange} : r.isEmpty ↔ r.start = r.stop := beq_iff_eq

theorem start_lt_stop_of_isEmpty_eq_false {r : MemoryRange} (h : r.isEmpty = false) :
    r.start < r.stop := by
  rw [Bool.eq_false_iff, ne_eq, isEmpty_iff] at h
  exact UInt64.lt_of_le_of_ne r.start_le_stop h

theorem exists_mem_of_isEmpty_eq_false {r : MemoryRange} (h : r.isEmpty = false) : ∃ x, x ∈ r :=
  ⟨r.start, mem_def.mpr ⟨UInt64.le_refl _, start_lt_stop_of_isEmpty_eq_false h⟩⟩

theorem not_mem_of_isEmpty {r : MemoryRange} (h : r.isEmpty = true) (x : UInt64) : x ∉ r := by
  intro hx
  obtain ⟨hfirst, hlast⟩ := mem_def.mp hx
  rw [isEmpty_iff.mp h] at hfirst
  exact UInt64.not_lt.mpr hfirst hlast

/-! ### Making ranges -/

/-- The range between two addresses. -/
def ofBounds (start stop : UInt64) : Except Error MemoryRange :=
  if h : start ≤ stop then .ok ⟨start, stop, h⟩ else .error (.invertedRange start stop)

/-- The range of `len` addresses from `start` on. -/
def ofLength (start len : UInt64) : Except Error MemoryRange :=
  match h : start.checkedAdd len with
  | some stop => .ok ⟨start, stop, UInt64.le_of_checkedAdd h⟩
  | none => .error (.addressOverflow start len)

section OfLength

variable {start len stop : UInt64}

theorem ofLength_of_checkedAdd_eq_some (h : start.checkedAdd len = some stop) :
    ofLength start len = .ok ⟨start, stop, UInt64.le_of_checkedAdd h⟩ := by
  rw [ofLength]
  split
  next hsum =>
    cases hsum.symm.trans h
    rfl
  next hsum => cases hsum.symm.trans h

theorem ofLength_of_checkedAdd_eq_none (h : start.checkedAdd len = none) :
    ofLength start len = .error (.addressOverflow start len) := by
  rw [ofLength]
  split
  next hsum => cases hsum.symm.trans h
  next => rfl

end OfLength

theorem add_le_add_of_le_len {r : MemoryRange} {first last : UInt64} (h : first ≤ last)
    (hlast : last ≤ r.len) : r.start + first ≤ r.start + last := by
  have hstop := r.stop.toNat_lt
  have hle := r.start_le_stop
  have hlen := r.toNat_len
  rw [UInt64.le_iff_toNat_le] at *
  rw [UInt64.toNat_add, UInt64.toNat_add]
  omega

/-- The part of a range between two offsets. -/
def part (r : MemoryRange) (first last : UInt64) : Except Violation MemoryRange :=
  if h : first ≤ last then
    if hlast : last ≤ r.len then
      .ok ⟨r.start + first, r.start + last, add_le_add_of_le_len h hlast⟩
    else .error .partOutside
  else .error .partInverted

/-- The first `len` addresses of a range, or `none` when it has fewer. -/
def take? (r : MemoryRange) (len : UInt64) : Option MemoryRange :=
  if h : len ≤ r.len then
    some ⟨r.start, r.start + len, by
      have := add_le_add_of_le_len (r := r) (UInt64.zero_le (a := len)) h
      rwa [UInt64.add_zero] at this⟩
  else none

/-! ### Widening to pages -/

/-- The smallest range of whole pages that covers the range.  An empty range touches no
page and stays as it is, whatever the page size. -/
def pageAligned (r : MemoryRange) (pageSize : UInt64) : Except Failure MemoryRange :=
  if r.isEmpty then .ok r
  else
    match hstart : Page.floor r.start pageSize, hstop : Page.ceil r.stop pageSize with
    | .ok start, .ok (some stop) =>
      .ok ⟨start, stop,
        UInt64.le_trans (Page.le_of_floor hstart)
          (UInt64.le_trans r.start_le_stop (Page.le_of_ceil hstop))⟩
    | .ok _, .ok none => .error (.error (.addressOverflow r.start r.len))
    | .error v, _ => .error (.violation v)
    | .ok _, .error v => .error (.violation v)

theorem pageAligned_of_isEmpty {r : MemoryRange} (h : r.isEmpty) (pageSize : UInt64) :
    r.pageAligned pageSize = .ok r := if_pos h

variable {r : MemoryRange} {pageSize stop : UInt64}

/-- A range whose end can be rounded up is widened at both ends. -/
theorem pageAligned_of_alignUp?_eq_some (hne : r.isEmpty = false) (hp : pageSize.IsPowerOfTwo)
    (hup : r.stop.alignUp? pageSize = some stop) :
    ∃ hle, r.pageAligned pageSize = .ok ⟨r.start.alignDown pageSize, stop, hle⟩ := by
  have hfloor : Page.floor r.start pageSize = .ok (r.start.alignDown pageSize) :=
    Page.floor_of_isPowerOfTwo hp
  have hceil : Page.ceil r.stop pageSize = .ok (r.stop.alignUp? pageSize) :=
    Page.ceil_of_isPowerOfTwo hp
  rw [hup] at hceil
  refine ⟨UInt64.le_trans (Page.le_of_floor hfloor)
    (UInt64.le_trans r.start_le_stop (Page.le_of_ceil hceil)), ?_⟩
  rw [pageAligned, if_neg (by rw [hne]; decide)]
  split
  next hstart hstop =>
    cases hstart.symm.trans hfloor
    cases hstop.symm.trans hceil
    rfl
  next hstop => cases hstop.symm.trans hceil
  next hstart => cases hstart.symm.trans hfloor
  next hstop => cases hstop.symm.trans hceil

/-- A range whose end cannot be rounded up is refused, by its start and its length. -/
theorem pageAligned_of_alignUp?_eq_none (hne : r.isEmpty = false) (hp : pageSize.IsPowerOfTwo)
    (hup : r.stop.alignUp? pageSize = none) :
    r.pageAligned pageSize = .error (.error (.addressOverflow r.start r.len)) := by
  have hfloor : Page.floor r.start pageSize = .ok (r.start.alignDown pageSize) :=
    Page.floor_of_isPowerOfTwo hp
  have hceil : Page.ceil r.stop pageSize = .ok (r.stop.alignUp? pageSize) :=
    Page.ceil_of_isPowerOfTwo hp
  rw [hup] at hceil
  rw [pageAligned, if_neg (by rw [hne]; decide)]
  split
  next hstop => cases hstop.symm.trans hceil
  next => rfl
  next hstart => cases hstart.symm.trans hfloor
  next hstop => cases hstop.symm.trans hceil

/-- Only an empty range is widened by a page size that is no power of two. -/
theorem pageAligned_of_not_isPowerOfTwo (hne : r.isEmpty = false)
    (hp : ¬ pageSize.IsPowerOfTwo) : r.pageAligned pageSize = .error (.violation .pageSize) := by
  have hfloor : Page.floor r.start pageSize = .error .pageSize :=
    Page.floor_of_not_isPowerOfTwo hp
  rw [pageAligned, if_neg (by rw [hne]; decide)]
  split
  next hstart _ => cases hstart.symm.trans hfloor
  next hstart _ => cases hstart.symm.trans hfloor
  next hstart =>
    cases hstart.symm.trans hfloor
    rfl
  next hstart _ => cases hstart.symm.trans hfloor

end MemoryRange

end JitSupport
