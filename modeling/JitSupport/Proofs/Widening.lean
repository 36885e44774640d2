import JitSupport.Proofs.Rounding
import Mathlib.Order.Bounds.Defs

/-!
# The least pages around a range

A range is widened by rounding its two ends on their own.  What comes out is the least range of
whole pages that holds it: every range of whole pages around the range holds the widened range as
well.  That settles the rest.  A range that is whole pages already is its own least cover, and a
smaller range has a smaller one.  Only where there is no cover at all is widening refused, although
what is checked is a sum that steps past the end: the address space is itself a whole number of
pages, so that the sum leaves it exactly if the last page does.

Pages of two sizes nest, because a power of two divides every larger one.  So the least large pages
around a range are whole small pages as well, and hold the least small pages around it.  On the way
to them it makes no difference whether the range is widened to small pages, before or after.

## Main definitions

* `MemoryRange.WholePages` — a range of whole pages around another range.
* `MemoryRange.LeastPages` — widening that gives the least such range.
* `MemoryRange.WidensToLarger` — widening to two page sizes that is widening to the larger one.

## Main results

* `MemoryRange.isLeastCover_of_pageAligned` — the two ends of the widened range.
* `MemoryRange.mem_pageAligned_iff` — the widened range holds the pages of the addresses.
* `MemoryRange.exists_pageAligned_iff` — when a range can be widened.
* `MemoryRange.pageAligned_leastPages` — **widening gives the least whole pages around a range.**
* `MemoryRange.smallerFirst_eq_ok_iff`, `MemoryRange.largerFirst_eq_ok_iff` — two page sizes in
  either order.
* `MemoryRange.pageAligned_widensToLarger` — **widening to two page sizes is widening to the
  larger one.**
-/

namespace UInt64

/-- The bit test for powers of two, in numbers. -/
theorem isPowerOfTwo_iff_toNat {p : UInt64} : p.IsPowerOfTwo ↔ p.toNat.isPowerOfTwo := by
  rw [isPowerOfTwo_iff]
  constructor
  · rintro ⟨k, -, hk⟩
    exact ⟨k, by rw [hk, Nat.one_shiftLeft]⟩
  · rintro ⟨k, hk⟩
    have hlt := p.toNat_lt
    rw [hk] at hlt
    exact ⟨k, (Nat.pow_lt_pow_iff_right (by decide)).mp hlt, by rw [hk, Nat.one_shiftLeft]⟩

/-- The address space is a whole number of pages. -/
theorem IsPowerOfTwo.dvd_size {p : UInt64} (hp : p.IsPowerOfTwo) : p.toNat ∣ size := by
  obtain ⟨k, hk, hpow⟩ := isPowerOfTwo_iff.mp hp
  rw [hpow, Nat.one_shiftLeft, size]
  exact Nat.pow_dvd_pow 2 (Nat.le_of_lt hk)

/-- A power of two divides every larger one. -/
theorem IsPowerOfTwo.dvd_of_le {p q : UInt64} (hp : p.IsPowerOfTwo) (hq : q.IsPowerOfTwo)
    (hpq : p ≤ q) : p.toNat ∣ q.toNat := by
  obtain ⟨i, -, hi⟩ := isPowerOfTwo_iff.mp hp
  obtain ⟨j, -, hj⟩ := isPowerOfTwo_iff.mp hq
  rw [UInt64.le_iff_toNat_le, hi, hj, Nat.one_shiftLeft, Nat.one_shiftLeft] at hpq
  rw [hi, hj, Nat.one_shiftLeft, Nat.one_shiftLeft]
  exact Nat.pow_dvd_pow 2 ((Nat.pow_le_pow_iff_right (by decide)).mp hpq)

end UInt64

namespace JitSupport

namespace Page

/-- From one page boundary to the next one it is at least a page. -/
theorem add_le_of_dvd_of_lt {p a b : Nat} (ha : p ∣ a) (hb : p ∣ b) (h : a < b) : a + p ≤ b := by
  have hle := Nat.le_of_dvd (Nat.sub_pos_of_lt h) (Nat.dvd_sub hb ha)
  omega

/-- Rounding up gives the least page boundary that is not below a number. -/
theorem isLeast_round {p : Nat} (hp : 0 < p) (m : Nat) :
    IsLeast {n | p ∣ n ∧ m ≤ n} ((m + (p - 1)) / p * p) := by
  have hround := isLeastCover_round hp 0 m
  refine ⟨⟨hround.dvd_stop, hround.le_stop⟩, ?_⟩
  rintro n ⟨hdvd, hle⟩
  exact (hround.least 0 n (Nat.dvd_zero p) hdvd (Nat.zero_le 0) hle).2

/-- The least page boundary that is not below a number lies in the address space exactly if the
sum that steps past it does. -/
theorem exists_isLeast_lt_iff {p space : Nat} (hp : 0 < p) (hspace : p ∣ space) (m : Nat) :
    (∃ n < space, IsLeast {n | p ∣ n ∧ m ≤ n} n) ↔ m + (p - 1) < space := by
  constructor
  · rintro ⟨n, hlt, ⟨hdvd, hle⟩, -⟩
    have hroom := add_le_of_dvd_of_lt hdvd hspace hlt
    omega
  · intro hfits
    exact ⟨_, Nat.lt_of_le_of_lt (Nat.div_mul_le_self ..) hfits, isLeast_round hp m⟩

/-- The least whole pages that hold something are the pages that some of it lies in. -/
theorem IsLeastCover.mem_iff {p first last start stop : Nat}
    (h : IsLeastCover p first last start stop) (hp : 0 < p) (hlt : first < last) (n : Nat) :
    start ≤ n ∧ n < stop ↔ ∃ i, (first ≤ i ∧ i < last) ∧ i / p = n / p := by
  have hsum := Nat.div_add_mod' n p
  have hrest := Nat.mod_lt n hp
  constructor
  · rintro ⟨hstart, hstop⟩
    -- the page of the number would be left over if nothing lay in it
    have hbehind : first < n / p * p + p := by
      refine Nat.lt_of_not_le fun hle => ?_
      have hleft := h.least _ _ (Nat.dvd_add (Nat.dvd_mul_left ..) (Nat.dvd_refl p)) h.dvd_stop hle
        h.le_stop
      omega
    have hbefore : n / p * p < last := by
      refine Nat.lt_of_not_le fun hle => ?_
      have hleft := h.least _ _ h.dvd_start (Nat.dvd_mul_left ..) h.start_le hle
      omega
    refine ⟨max first (n / p * p), by omega, Nat.div_eq_of_lt_le (by omega) ?_⟩
    rw [Nat.succ_mul]
    omega
  · rintro ⟨i, ⟨hfirst, hlast⟩, hpage⟩
    have hstart : start / p ≤ n / p := hpage ▸ Nat.div_le_div_right (Nat.le_trans h.start_le hfirst)
    have hstop : n / p < stop / p := by
      rw [← hpage, Nat.div_lt_iff_lt_mul hp, Nat.div_mul_cancel h.dvd_stop]
      exact Nat.lt_of_lt_of_le hlast h.le_stop
    rw [Nat.le_div_iff_mul_le hp, Nat.div_mul_cancel h.dvd_start] at hstart
    rw [Nat.div_lt_iff_lt_mul hp, Nat.div_mul_cancel h.dvd_stop] at hstop
    exact ⟨hstart, hstop⟩

end Page

namespace MemoryRange

/-- Every address of a range is one of another. -/
instance : HasSubset MemoryRange := ⟨fun r s => ∀ x ∈ r, x ∈ s⟩

/-- A range of whole pages of size `p` around another range. -/
structure WholePages (p : UInt64) (r c : MemoryRange) : Prop where
  /-- The range starts with a page. -/
  dvd_start : p.toNat ∣ c.start.toNat
  /-- It stops with a page. -/
  dvd_stop : p.toNat ∣ c.stop.toNat
  /-- It holds the other range. -/
  subset : r ⊆ c

/-- Widening a range to pages of size `p` gives the least whole pages around it. -/
structure LeastPages (p : UInt64) (r : MemoryRange) : Prop where
  /-- The range can be widened exactly if there are whole pages around it. -/
  ok_iff : (∃ w, r.pageAligned p = .ok w) ↔ ∃ c, WholePages p r c
  /-- The widened range is one of whole pages around it. -/
  wholePages : ∀ w, r.pageAligned p = .ok w → WholePages p r w
  /-- It lies in any other. -/
  least : ∀ w, r.pageAligned p = .ok w → ∀ c, WholePages p r c → w ⊆ c
  /-- Widening it once more does not change it. -/
  stable : ∀ w, r.pageAligned p = .ok w → w.pageAligned p = .ok w
  /-- Where there are no whole pages around the range, its start and its length are reported. -/
  overflow : (¬ ∃ c, WholePages p r c) →
    r.pageAligned p = .error (.error (.addressOverflow r.start (r.stop - r.start)))
  /-- A range inside one that can be widened can be widened, and stays inside. -/
  monotone : ∀ s v, r ⊆ s → s.pageAligned p = .ok v → ∃ w, r.pageAligned p = .ok w ∧ w ⊆ v

variable {p q x : UInt64} {r s v w c : MemoryRange}

/-! ### Ranges inside ranges -/

/-- A range that is not empty lies in another if its ends do. -/
theorem subset_iff (hne : r.isEmpty = false) : r ⊆ s ↔ s.start ≤ r.start ∧ r.stop ≤ s.stop := by
  have hlt := start_lt_stop_of_isEmpty_eq_false hne
  constructor
  · intro h
    have hpos : r.stop ≠ 0 := fun hzero => UInt64.not_lt_zero (hzero ▸ hlt)
    have hprev := UInt64.toNat_sub_one hpos
    -- the last address of the range is the one before its stop
    have hlast : r.stop - 1 ∈ r := by
      rw [mem_def, UInt64.le_iff_toNat_le, UInt64.lt_iff_toNat_lt, hprev]
      rw [UInt64.lt_iff_toNat_lt] at hlt
      omega
    obtain ⟨hstart, -⟩ := mem_def.mp (h r.start (mem_def.mpr ⟨UInt64.le_refl _, hlt⟩))
    obtain ⟨-, hstop⟩ := mem_def.mp (h _ hlast)
    refine ⟨hstart, ?_⟩
    rw [UInt64.lt_iff_toNat_lt, hprev] at hstop
    rw [UInt64.le_iff_toNat_le]
    omega
  · rintro ⟨hstart, hstop⟩ x hx
    obtain ⟨hfirst, hlast⟩ := mem_def.mp hx
    exact mem_def.mpr ⟨UInt64.le_trans hstart hfirst, UInt64.lt_of_lt_of_le hlast hstop⟩

theorem subset_trans (hrs : r ⊆ s) (hsc : s ⊆ c) : r ⊆ c := fun x hx => hsc x (hrs x hx)

/-- A range around one that is not empty is not empty. -/
theorem isEmpty_eq_false_of_subset (hne : r.isEmpty = false) (h : r ⊆ s) : s.isEmpty = false := by
  obtain ⟨x, hx⟩ := exists_mem_of_isEmpty_eq_false hne
  rw [Bool.eq_false_iff]
  exact fun hempty => not_mem_of_isEmpty hempty x (h x hx)

/-- Ranges that lie in each other are the same, unless they are empty. -/
theorem eq_of_subset_of_subset (hne : r.isEmpty = false) (hrs : r ⊆ s) (hsr : s ⊆ r) : r = s := by
  obtain ⟨hstart, hstop⟩ := (subset_iff hne).mp hrs
  obtain ⟨hstart', hstop'⟩ := (subset_iff (isEmpty_eq_false_of_subset hne hrs)).mp hsr
  cases r
  cases s
  simp only [mk.injEq]
  exact ⟨UInt64.le_antisymm hstart' hstart, UInt64.le_antisymm hstop hstop'⟩

/-! ### Whole pages around a range -/

/-- The two ends of the widened range. -/
theorem isLeastCover_of_pageAligned (hne : r.isEmpty = false) (h : r.pageAligned p = .ok w) :
    Page.IsLeastCover p.toNat r.start.toNat r.stop.toNat w.start.toNat w.stop.toNat := by
  obtain ⟨hp, hstart, hstop⟩ := ends_of_pageAligned hne h
  rw [hstart, UInt64.toNat_alignDown hp, ((UInt64.alignUp?_eq_some_iff hp).mp hstop).2]
  exact Page.isLeastCover_round hp.toNat_pos _ _

theorem wholePages_of_pageAligned (hne : r.isEmpty = false) (h : r.pageAligned p = .ok w) :
    WholePages p r w where
  dvd_start := (isLeastCover_of_pageAligned hne h).dvd_start
  dvd_stop := (isLeastCover_of_pageAligned hne h).dvd_stop
  subset _ hx := mem_of_pageAligned h hx

/-- Whole pages around a range are around the ranges inside it, too. -/
theorem WholePages.of_subset (hc : WholePages p s c) (h : r ⊆ s) : WholePages p r c :=
  ⟨hc.dvd_start, hc.dvd_stop, subset_trans h hc.subset⟩

/-- Whole pages are around themselves. -/
theorem WholePages.around_self (hc : WholePages p r c) : WholePages p c c :=
  ⟨hc.dvd_start, hc.dvd_stop, fun _ hx => hx⟩

/-- Whole pages are whole smaller pages. -/
theorem WholePages.of_dvd (hc : WholePages q r c) (hpq : p.toNat ∣ q.toNat) : WholePages p r c where
  dvd_start := Nat.dvd_trans hpq hc.dvd_start
  dvd_stop := Nat.dvd_trans hpq hc.dvd_stop
  subset := hc.subset

/-- Whole pages around a range hold the widened range. -/
theorem WholePages.pageAligned_subset (hc : WholePages p r c) (hne : r.isEmpty = false)
    (h : r.pageAligned p = .ok w) : w ⊆ c := by
  have hsubset := wholePages_of_pageAligned hne h
  obtain ⟨hstart, hstop⟩ := (subset_iff hne).mp hc.subset
  rw [subset_iff (isEmpty_eq_false_of_subset hne hsubset.subset), UInt64.le_iff_toNat_le,
    UInt64.le_iff_toNat_le]
  exact (isLeastCover_of_pageAligned hne h).least _ _ hc.dvd_start hc.dvd_stop
    (UInt64.le_iff_toNat_le.mp hstart) (UInt64.le_iff_toNat_le.mp hstop)

/-- The sum that is checked leaves the address space only if the last page does. -/
theorem WholePages.fits (hc : WholePages p r c) (hp : p.IsPowerOfTwo) (hne : r.isEmpty = false) :
    r.stop.toNat + (p.toNat - 1) < UInt64.size := by
  obtain ⟨-, hstop⟩ := (subset_iff hne).mp hc.subset
  have hle := UInt64.le_iff_toNat_le.mp hstop
  -- between two multiples of the page size there is room for a page
  have hroom := Page.add_le_of_dvd_of_lt hc.dvd_stop hp.dvd_size c.stop.toNat_lt
  have hpos := hp.toNat_pos
  omega

/-- A range can be widened exactly if there are whole pages around it. -/
theorem exists_pageAligned_iff (hp : p.IsPowerOfTwo) (hne : r.isEmpty = false) :
    (∃ w, r.pageAligned p = .ok w) ↔ ∃ c, WholePages p r c := by
  constructor
  · rintro ⟨w, h⟩
    exact ⟨w, wholePages_of_pageAligned hne h⟩
  · rintro ⟨c, hc⟩
    obtain ⟨w, h, -⟩ := pageAligned_of_fits hp hne (hc.fits hp hne)
    exact ⟨w, h⟩

/-- Whole pages are their own least cover. -/
theorem WholePages.pageAligned_eq (hc : WholePages p c c) (hp : p.IsPowerOfTwo)
    (hne : c.isEmpty = false) : c.pageAligned p = .ok c := by
  obtain ⟨w, h⟩ := (exists_pageAligned_iff hp hne).mpr ⟨c, hc⟩
  have hsubset := (wholePages_of_pageAligned hne h).subset
  rw [h, eq_of_subset_of_subset hne hsubset (hc.pageAligned_subset hne h)]

/-- Widening once more, to pages of the same or a smaller size, changes nothing. -/
theorem pageAligned_of_pageAligned (hp : p.IsPowerOfTwo) (hpq : p.toNat ∣ q.toNat)
    (hne : r.isEmpty = false) (h : r.pageAligned q = .ok w) : w.pageAligned p = .ok w := by
  have hw := (wholePages_of_pageAligned hne h).of_dvd hpq
  exact hw.around_self.pageAligned_eq hp (isEmpty_eq_false_of_subset hne hw.subset)

/-- The widened range holds the pages in which some address of the range lies. -/
theorem mem_pageAligned_iff (hne : r.isEmpty = false) (h : r.pageAligned p = .ok w) :
    x ∈ w ↔ ∃ y ∈ r, y.toNat / p.toNat = x.toNat / p.toNat := by
  obtain ⟨hp, -⟩ := ends_of_pageAligned hne h
  have hlt := UInt64.lt_iff_toNat_lt.mp (start_lt_stop_of_isEmpty_eq_false hne)
  rw [mem_def, UInt64.le_iff_toNat_le, UInt64.lt_iff_toNat_lt,
    (isLeastCover_of_pageAligned hne h).mem_iff hp.toNat_pos hlt]
  constructor
  · rintro ⟨i, ⟨hfirst, hlast⟩, hpage⟩
    have hi : (UInt64.ofNat i).toNat = i :=
      UInt64.toNat_ofNat_of_lt' (Nat.lt_trans hlast r.stop.toNat_lt)
    refine ⟨UInt64.ofNat i, mem_def.mpr ⟨?_, ?_⟩, by rw [hi, hpage]⟩
    · rwa [UInt64.le_iff_toNat_le, hi]
    · rwa [UInt64.lt_iff_toNat_lt, hi]
  · rintro ⟨y, hy, hpage⟩
    obtain ⟨hfirst, hlast⟩ := mem_def.mp hy
    exact ⟨y.toNat, ⟨UInt64.le_iff_toNat_le.mp hfirst, UInt64.lt_iff_toNat_lt.mp hlast⟩, hpage⟩

/-! ### Every range and every page size -/

/-- A range without whole pages around it is refused. -/
theorem pageAligned_of_not_exists (hp : p.IsPowerOfTwo) (hne : r.isEmpty = false)
    (hnone : ¬ ∃ c, WholePages p r c) :
    r.pageAligned p = .error (.error (.addressOverflow r.start r.len)) := by
  refine pageAligned_of_overflow hp hne (Nat.le_of_not_lt fun hfits => ?_)
  obtain ⟨w, h, -⟩ := pageAligned_of_fits hp hne hfits
  exact hnone ⟨w, wholePages_of_pageAligned hne h⟩

theorem leastPages (hp : p.IsPowerOfTwo) (hne : r.isEmpty = false) : LeastPages p r where
  ok_iff := exists_pageAligned_iff hp hne
  wholePages _ h := wholePages_of_pageAligned hne h
  least _ h _ hc := hc.pageAligned_subset hne h
  stable _ h := pageAligned_of_pageAligned hp (Nat.dvd_refl _) hne h
  overflow := pageAligned_of_not_exists hp hne
  monotone s v hrs h := by
    have hv := wholePages_of_pageAligned (isEmpty_eq_false_of_subset hne hrs) h
    have hc : WholePages p r v := hv.of_subset hrs
    obtain ⟨w, hw⟩ := (exists_pageAligned_iff hp hne).mpr ⟨v, hc⟩
    exact ⟨w, hw, hc.pageAligned_subset hne hw⟩

/-- **Widening gives the least whole pages around a range**, for every page size that is a power
of two, or reports that there are none.  A range that is not empty has no pages of any other size;
an empty range stays as it is, whatever the size. -/
theorem pageAligned_leastPages (r : MemoryRange) (p : UInt64) :
    (r.isEmpty = true → r.pageAligned p = .ok r) ∧
      (r.isEmpty = false → p.toNat.isPowerOfTwo → LeastPages p r) ∧
      (r.isEmpty = false → ¬ p.toNat.isPowerOfTwo →
        r.pageAligned p = .error (.violation .pageSize)) := by
  refine ⟨fun hempty => pageAligned_of_isEmpty hempty p, fun hne hp => ?_, fun hne hp => ?_⟩
  · exact leastPages (UInt64.isPowerOfTwo_iff_toNat.mpr hp) hne
  · exact pageAligned_of_not_isPowerOfTwo hne (mt UInt64.isPowerOfTwo_iff_toNat.mp hp)

/-- Four bytes on both sides of a border between pages. -/
def acrossBorder : MemoryRange := ⟨0x4FFE, 0x5002, by decide⟩

/-- The two pages beside that border. -/
def besideBorder : MemoryRange := ⟨0x4000, 0x6000, by decide⟩

/-- The last address but one of all. -/
def atEnd : MemoryRange := ⟨0xFFFFFFFFFFFFFFFE, 0xFFFFFFFFFFFFFFFF, by decide⟩

/-- Bytes across a border have the two pages beside it, and so have two bytes between them; an
address at the end of the address space has no page that stops within it. -/
theorem acrossBorder_leastPages :
    WholePages Page.size acrossBorder besideBorder ∧
      (∀ c, WholePages Page.size acrossBorder c → besideBorder ⊆ c) ∧
      besideBorder.pageAligned Page.size = .ok besideBorder ∧
      (∃ w, pageAligned ⟨0x4FFF, 0x5001, by decide⟩ Page.size = .ok w ∧ w ⊆ besideBorder) ∧
      atEnd.pageAligned Page.size = .error (.error (.addressOverflow 0xFFFFFFFFFFFFFFFE 1)) ∧
      acrossBorder.pageAligned 4095 = .error (.violation .pageSize) ∧
      pageAligned ⟨5, 5, by decide⟩ 0 = .ok ⟨5, 5, by decide⟩ := by
  have hsize : Page.size.toNat.isPowerOfTwo := ⟨12, rfl⟩
  have hodd : ¬ (4095 : UInt64).toNat.isPowerOfTwo := by
    rw [← UInt64.isPowerOfTwo_iff_toNat]
    decide
  have hw : acrossBorder.pageAligned Page.size = .ok besideBorder := rfl
  have hborder := (pageAligned_leastPages acrossBorder Page.size).2.1 rfl hsize
  have hbetween := (pageAligned_leastPages ⟨0x4FFF, 0x5001, by decide⟩ Page.size).2.1 rfl hsize
  have hend := (pageAligned_leastPages atEnd Page.size).2.1 rfl hsize
  refine ⟨hborder.wholePages _ hw, hborder.least _ hw, hborder.stable _ hw, ?_, ?_, ?_, ?_⟩
  · exact hbetween.monotone acrossBorder besideBorder ((subset_iff rfl).mpr (by decide)) hw
  · apply hend.overflow
    rw [← hend.ok_iff]
    rintro ⟨w, h⟩
    cases h
  · exact (pageAligned_leastPages acrossBorder 4095).2.2 rfl hodd
  · exact (pageAligned_leastPages ⟨5, 5, by decide⟩ 0).1 rfl

/-! ### Two page sizes -/

/-- A range that can be widened to pages can be widened to smaller pages before. -/
theorem exists_pageAligned_of_dvd (hp : p.IsPowerOfTwo) (hq : q.IsPowerOfTwo)
    (hpq : p.toNat ∣ q.toNat) (hne : r.isEmpty = false) (h : r.pageAligned q = .ok w) :
    ∃ v, r.pageAligned p = .ok v ∧ v.pageAligned q = .ok w := by
  have hw := wholePages_of_pageAligned hne h
  have hsmaller : WholePages p r w := hw.of_dvd hpq
  obtain ⟨v, hv⟩ := (exists_pageAligned_iff hp hne).mpr ⟨w, hsmaller⟩
  have hrv := (wholePages_of_pageAligned hne hv).subset
  have hvne := isEmpty_eq_false_of_subset hne hrv
  have haround : WholePages q v w :=
    ⟨hw.dvd_start, hw.dvd_stop, hsmaller.pageAligned_subset hne hv⟩
  obtain ⟨w', hw'⟩ := (exists_pageAligned_iff hq hvne).mpr ⟨w, haround⟩
  -- either of the two lies in the other, being the least pages around a range that it holds
  have hbelow := haround.pageAligned_subset hvne hw'
  have habove := ((wholePages_of_pageAligned hvne hw').of_subset hrv).pageAligned_subset hne h
  have heq : w = w' :=
    eq_of_subset_of_subset (isEmpty_eq_false_of_subset hne hw.subset) habove hbelow
  exact ⟨v, hv, heq ▸ hw'⟩

/-- Widening to pages and then to larger pages is widening to the larger pages. -/
theorem smallerFirst_eq_ok_iff (hp : p.IsPowerOfTwo) (hq : q.IsPowerOfTwo)
    (hpq : p.toNat ∣ q.toNat) :
    (r.pageAligned p >>= fun v => v.pageAligned q) = .ok w ↔ r.pageAligned q = .ok w := by
  rw [bind_eq_ok_iff]
  cases hempty : r.isEmpty with
  | true => simp [pageAligned_of_isEmpty hempty]
  | false =>
    constructor
    · rintro ⟨v, hv, hw⟩
      have hrv := (wholePages_of_pageAligned hempty hv).subset
      have hvw := wholePages_of_pageAligned (isEmpty_eq_false_of_subset hempty hrv) hw
      obtain ⟨w', hw'⟩ := (exists_pageAligned_iff hq hempty).mpr ⟨w, hvw.of_subset hrv⟩
      -- the direct way comes by the same intermediate range
      obtain ⟨v', hv', hchain⟩ := exists_pageAligned_of_dvd hp hq hpq hempty hw'
      cases hv.symm.trans hv'
      cases hw.symm.trans hchain
      exact hw'
    · exact exists_pageAligned_of_dvd hp hq hpq hempty

/-- Widening to pages and then to smaller pages is widening to the larger pages. -/
theorem largerFirst_eq_ok_iff (hp : p.IsPowerOfTwo) (hpq : p.toNat ∣ q.toNat) :
    (r.pageAligned q >>= fun v => v.pageAligned p) = .ok w ↔ r.pageAligned q = .ok w := by
  rw [bind_eq_ok_iff]
  cases hempty : r.isEmpty with
  | true => simp [pageAligned_of_isEmpty hempty]
  | false =>
    constructor
    · rintro ⟨v, hv, hw⟩
      cases (pageAligned_of_pageAligned hp hpq hempty hv).symm.trans hw
      exact hv
    · intro hw
      exact ⟨w, hw, pageAligned_of_pageAligned hp hpq hempty hw⟩

/-- With a page size that is a power of two, widening is only refused for want of addresses. -/
theorem pageAligned_ok_or_overflow (hp : p.IsPowerOfTwo) (r : MemoryRange) :
    (∃ w, r.pageAligned p = .ok w) ∨
      r.pageAligned p = .error (.error (.addressOverflow r.start r.len)) := by
  cases hempty : r.isEmpty with
  | true => exact Or.inl ⟨r, pageAligned_of_isEmpty hempty p⟩
  | false =>
    rw [exists_pageAligned_iff hp hempty]
    by_cases hpages : ∃ c, WholePages p r c
    · exact Or.inl hpages
    · exact Or.inr (pageAligned_of_not_exists hp hempty hpages)

/-- Widening a range to two page sizes, one after the other, is widening it to the larger one. -/
structure WidensToLarger (p q : UInt64) (r : MemoryRange) : Prop where
  /-- Widening to the smaller pages first makes no difference, -/
  smaller_first : ∀ w,
    (r.pageAligned p >>= fun v => v.pageAligned q) = .ok w ↔ r.pageAligned q = .ok w
  /-- and neither does widening to them afterwards. -/
  larger_first : ∀ w,
    (r.pageAligned q >>= fun v => v.pageAligned p) = .ok w ↔ r.pageAligned q = .ok w
  /-- If the larger pages do not fit in the address space, then that is reported either way. -/
  overflow : (¬ ∃ w, r.pageAligned q = .ok w) →
    (∃ start len, (r.pageAligned p >>= fun v => v.pageAligned q) =
      .error (.error (.addressOverflow start len))) ∧
    (r.pageAligned q >>= fun v => v.pageAligned p) =
      .error (.error (.addressOverflow r.start r.len))

/-- **Widening to two page sizes is widening to the larger one**, whichever comes first.  No range
is saved by being widened to smaller pages on the way, and none is lost. -/
theorem pageAligned_widensToLarger (r : MemoryRange) (hp : p.toNat.isPowerOfTwo)
    (hq : q.toNat.isPowerOfTwo) (hpq : p ≤ q) : WidensToLarger p q r := by
  rw [← UInt64.isPowerOfTwo_iff_toNat] at hp hq
  have hdvd := hp.dvd_of_le hq hpq
  constructor
  case smaller_first =>
    intro w
    exact smallerFirst_eq_ok_iff hp hq hdvd
  case larger_first =>
    intro w
    exact largerFirst_eq_ok_iff hp hdvd
  case overflow =>
    intro hnone
    constructor
    · rcases pageAligned_ok_or_overflow hp r with ⟨v, hv⟩ | hfirst
      · rcases pageAligned_ok_or_overflow hq v with ⟨w, hw⟩ | hsecond
        · refine absurd ⟨w, ?_⟩ hnone
          exact (smallerFirst_eq_ok_iff hp hq hdvd).mp (bind_eq_ok_iff.mpr ⟨v, hv, hw⟩)
        · exact ⟨v.start, v.len, by rw [hv]; exact hsecond⟩
      · exact ⟨r.start, r.len, by rw [hfirst]; rfl⟩
    · rcases pageAligned_ok_or_overflow hq r with hok | hoverflow
      · exact absurd hok hnone
      · rw [hoverflow]
        rfl

/-- Two bytes near the end of the address space. -/
def nearEnd : MemoryRange := ⟨0xFFFFFFFFFFFF0FFF, 0xFFFFFFFFFFFF1001, by decide⟩

/-- Bytes across a border have pages of four and of sixty-four kibibytes, and bytes near the end of
the address space have the former only. -/
theorem acrossBorder_widensToLarger :
    (acrossBorder.pageAligned Page.size >>= fun v => v.pageAligned 0x10000) =
        .ok ⟨0, 0x10000, by decide⟩ ∧
      (acrossBorder.pageAligned 0x10000 >>= fun v => v.pageAligned Page.size) =
        .ok ⟨0, 0x10000, by decide⟩ ∧
      nearEnd.pageAligned Page.size =
        .ok ⟨0xFFFFFFFFFFFF0000, 0xFFFFFFFFFFFF2000, by decide⟩ ∧
      (nearEnd.pageAligned 0x10000 >>= fun v => v.pageAligned Page.size) =
        .error (.error (.addressOverflow 0xFFFFFFFFFFFF0FFF 2)) := by
  have hsmall : Page.size.toNat.isPowerOfTwo := ⟨12, rfl⟩
  have hlarge : (0x10000 : UInt64).toNat.isPowerOfTwo := ⟨16, rfl⟩
  have hborder := pageAligned_widensToLarger acrossBorder hsmall hlarge (by decide)
  have hend := pageAligned_widensToLarger nearEnd hsmall hlarge (by decide)
  refine ⟨(hborder.smaller_first _).mpr rfl, (hborder.larger_first _).mpr rfl, rfl, ?_⟩
  apply (hend.overflow ?_).2
  rintro ⟨w, h⟩
  cases h

end MemoryRange

end JitSupport
