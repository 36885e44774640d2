import JitSupport.MemoryRange

/-!
# Rounding to pages, in numbers

The masks of `JitSupport.Word` round to multiples by clearing bits.  Here they are
read as divisions, so that a later argument about pages is one about numbers.

## Main definitions

* `Page.IsLeastCover` — the least whole pages that hold something.

## Main results

* `UInt64.alignUp?_eq_some_iff`, `UInt64.alignUp?_eq_none_iff` — rounding up, and
  when it leaves the word.
* `Page.isLeastCover_round` — rounding both ends gives the least cover.
* `MemoryRange.pageAligned_of_fits`, `MemoryRange.pageAligned_of_overflow` — the two
  ways in which widening a range can end.
* `MemoryRange.mem_of_pageAligned` — widening loses no address.
-/

namespace UInt64

/-- Rounding up is refused exactly when stepping past the next multiple leaves the word. -/
theorem alignUp?_eq_none_iff {x p : UInt64} (hp : p.IsPowerOfTwo) :
    x.alignUp? p = none ↔ size ≤ x.toNat + (p.toNat - 1) := by
  rw [alignUp?, Option.map_eq_none_iff, checkedAdd_eq_none_iff, toNat_sub_one hp.1]

/-- Rounding up is a division of the sum that steps past the next multiple. -/
theorem alignUp?_eq_some_iff {x p y : UInt64} (hp : p.IsPowerOfTwo) :
    x.alignUp? p = some y ↔ x.toNat + (p.toNat - 1) < size ∧
      y.toNat = (x.toNat + (p.toNat - 1)) / p.toNat * p.toNat := by
  rw [alignUp?, Option.map_eq_some_iff]
  constructor
  · rintro ⟨s, hs, rfl⟩
    rw [checkedAdd_eq_some_iff, toNat_sub_one hp.1] at hs
    refine ⟨hs ▸ s.toNat_lt, ?_⟩
    rw [toNat_alignDown hp, hs]
  · rintro ⟨hlt, hy⟩
    have hsum : (x + (p - 1)).toNat = x.toNat + (p.toNat - 1) := by
      rw [UInt64.toNat_add, toNat_sub_one hp.1, Nat.mod_eq_of_lt hlt]
    refine ⟨x + (p - 1), ?_, ?_⟩
    · rw [checkedAdd_eq_some_iff, hsum, toNat_sub_one hp.1]
    · rw [← UInt64.toNat_inj, toNat_alignDown hp, hsum, hy]

/-- A multiple is one as a number, too. -/
theorem mod_eq_zero_iff {x p : UInt64} : x % p = 0 ↔ x.toNat % p.toNat = 0 := by
  rw [← UInt64.toNat_inj, UInt64.toNat_mod, UInt64.toNat_zero]

/-- What was rounded up is a multiple. -/
theorem mod_eq_zero_of_alignUp? {x p y : UInt64} (hp : p.IsPowerOfTwo)
    (h : x.alignUp? p = some y) : y % p = 0 := by
  rw [mod_eq_zero_iff, ((alignUp?_eq_some_iff hp).mp h).2, Nat.mul_mod_left]

/-- Rounding up does not lose a word that is not zero. -/
theorem ne_zero_of_alignUp? {x p y : UInt64} (hp : p.IsPowerOfTwo) (h : x.alignUp? p = some y)
    (hx : x ≠ 0) : y ≠ 0 := by
  rintro rfl
  have hle := UInt64.le_iff_toNat_le.mp (le_of_alignUp? hp h)
  exact hx (UInt64.toNat_inj.mp (Nat.le_zero.mp hle))

end UInt64

namespace JitSupport

namespace Page

@[simp] theorem toNat_size : size.toNat = 4096 := rfl

/-- The pages of size `p` from `start` up to `stop` are the least whole pages that hold
everything from `first` up to `last`. -/
structure IsLeastCover (p first last start stop : Nat) : Prop where
  /-- The cover starts with a page. -/
  dvd_start : p ∣ start
  /-- It stops with a page. -/
  dvd_stop : p ∣ stop
  /-- Nothing lies before it. -/
  start_le : start ≤ first
  /-- Nothing lies behind it. -/
  le_stop : last ≤ stop
  /-- It lies in any other cover. -/
  least : ∀ a b, p ∣ a → p ∣ b → a ≤ first → last ≤ b → a ≤ start ∧ stop ≤ b

/-- Rounding both ends gives the least cover. -/
theorem isLeastCover_round {p : Nat} (hp : 0 < p) (first last : Nat) :
    IsLeastCover p first last (first / p * p) ((last + (p - 1)) / p * p) where
  dvd_start := Nat.dvd_mul_left ..
  dvd_stop := Nat.dvd_mul_left ..
  start_le := Nat.div_mul_le_self ..
  le_stop := by
    have hsum := Nat.div_add_mod (last + (p - 1)) p
    have hrest := Nat.mod_lt (last + (p - 1)) hp
    rw [Nat.mul_comm] at hsum
    omega
  least := by
    rintro a b ⟨c, rfl⟩ ⟨d, rfl⟩ hfirst hlast
    constructor
    · rw [Nat.mul_comm]
      apply Nat.mul_le_mul_right
      rwa [Nat.le_div_iff_mul_le hp, Nat.mul_comm]
    · rw [Nat.mul_comm p]
      apply Nat.mul_le_mul_right
      apply Nat.le_of_lt_succ
      -- one page more would be stepped past
      rw [Nat.div_lt_iff_lt_mul hp, Nat.succ_mul, Nat.mul_comm]
      omega

/-- A size that is rounded up is the least one of whole pages. -/
theorem isLeastCover_of_alignUp? {count total : UInt64} (h : count.alignUp? size = some total) :
    IsLeastCover size.toNat 0 count.toNat 0 total.toNat := by
  have hround := isLeastCover_round (p := size.toNat) (by decide) 0 count.toNat
  rw [Nat.zero_div, Nat.zero_mul] at hround
  rw [((UInt64.alignUp?_eq_some_iff isPowerOfTwo_size).mp h).2]
  exact hround

/-- A sum stays within a multiple of the page size when it is rounded up. -/
theorem roundUp_le {n total : Nat} (htotal : total % size.toNat = 0) (hn : n ≤ total) :
    (n + (size.toNat - 1)) / size.toNat * size.toNat ≤ total := by
  rw [toNat_size] at *
  omega

end Page

namespace MemoryRange

/-- A range whose end can be rounded up becomes one of whole pages. -/
theorem pageAligned_of_fits {r : MemoryRange} {p : UInt64} (hp : p.IsPowerOfTwo)
    (hne : r.isEmpty = false) (hfits : r.stop.toNat + (p.toNat - 1) < UInt64.size) :
    ∃ w, r.pageAligned p = .ok w ∧ w.start.toNat = r.start.toNat / p.toNat * p.toNat ∧
      w.stop.toNat = (r.stop.toNat + (p.toNat - 1)) / p.toNat * p.toNat := by
  cases hup : r.stop.alignUp? p with
  | none =>
    rw [UInt64.alignUp?_eq_none_iff hp] at hup
    omega
  | some stop =>
    obtain ⟨hle, h⟩ := pageAligned_of_alignUp?_eq_some hne hp hup
    exact ⟨_, h, UInt64.toNat_alignDown hp _, ((UInt64.alignUp?_eq_some_iff hp).mp hup).2⟩

/-- A range that is not empty is widened by rounding its ends. -/
theorem ends_of_pageAligned {r w : MemoryRange} {p : UInt64} (hne : r.isEmpty = false)
    (h : r.pageAligned p = .ok w) :
    p.IsPowerOfTwo ∧ w.start = r.start.alignDown p ∧ r.stop.alignUp? p = some w.stop := by
  by_cases hp : p.IsPowerOfTwo
  · cases hup : r.stop.alignUp? p with
    | none =>
      rw [pageAligned_of_alignUp?_eq_none hne hp hup] at h
      cases h
    | some stop =>
      obtain ⟨hle, hw⟩ := pageAligned_of_alignUp?_eq_some hne hp hup
      cases hw.symm.trans h
      exact ⟨hp, rfl, rfl⟩
  · rw [pageAligned_of_not_isPowerOfTwo hne hp] at h
    cases h

/-- Widening loses no address. -/
theorem mem_of_pageAligned {r w : MemoryRange} {p x : UInt64} (h : r.pageAligned p = .ok w)
    (hx : x ∈ r) : x ∈ w := by
  cases hempty : r.isEmpty with
  | true =>
    rw [pageAligned_of_isEmpty hempty] at h
    cases h
    exact hx
  | false =>
    obtain ⟨hp, hstart, hstop⟩ := ends_of_pageAligned hempty h
    obtain ⟨hfirst, hlast⟩ := mem_def.mp hx
    refine mem_def.mpr ⟨?_, UInt64.lt_of_lt_of_le hlast (UInt64.le_of_alignUp? hp hstop)⟩
    rw [hstart]
    exact UInt64.le_trans (UInt64.alignDown_le ..) hfirst

/-- A range whose end cannot be rounded up is refused, by its start and its length. -/
theorem pageAligned_of_overflow {r : MemoryRange} {p : UInt64} (hp : p.IsPowerOfTwo)
    (hne : r.isEmpty = false) (hover : UInt64.size ≤ r.stop.toNat + (p.toNat - 1)) :
    r.pageAligned p = .error (.error (.addressOverflow r.start r.len)) := by
  rw [← UInt64.alignUp?_eq_none_iff hp] at hover
  exact pageAligned_of_alignUp?_eq_none hne hp hover

end MemoryRange

end JitSupport
