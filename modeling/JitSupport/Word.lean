/-!
# Arithmetic of machine words

Addresses, sizes and offsets are words of 64 bits.  A sum of words that leaves
the word is either reported or clamped, never wrapped silently, and rounding to a
multiple of a power of two is done by masking the low bits.

## Main definitions

* `UInt64.ofNat?` — the word for a number, or nothing when it does not fit.
* `UInt64.checkedAdd` — the sum, or nothing when it does not fit.
* `UInt64.saturatingAdd` — the sum, clamped to the largest word.
* `UInt64.IsPowerOfTwo` — the bit test for powers of two.
* `UInt64.alignDown`, `UInt64.alignUp?` — rounding by masks.

## Main results

* `checkedAdd_eq_some_iff` — a checked sum is the sum of the numbers.
* `isPowerOfTwo_iff` — the bit test accepts exactly the powers of two.
* `toNat_alignDown` — masking is rounding down by division.
* `le_of_alignUp?` — rounding up never goes below the word.
-/

namespace UInt64

/-! ### Numbers -/

/-- The word that stands for a number, or `none` when the number does not fit in a word. -/
def ofNat? (n : Nat) : Option UInt64 :=
  if n < size then some (UInt64.ofNat n) else none

theorem ofNat?_eq_some_iff {n : Nat} {a : UInt64} : ofNat? n = some a ↔ a.toNat = n := by
  unfold ofNat?
  split
  next h =>
    rw [Option.some.injEq, ← UInt64.toNat_inj, UInt64.toNat_ofNat_of_lt' h]
    exact eq_comm
  next h =>
    have ha := a.toNat_lt
    simp only [reduceCtorEq, false_iff]
    rw [size] at h
    omega

/-! ### Sums -/

/-- The sum of two words, or `none` when it does not fit in a word. -/
def checkedAdd (a b : UInt64) : Option UInt64 :=
  if a ≤ a + b then some (a + b) else none

theorem le_add_iff {a b : UInt64} : a ≤ a + b ↔ a.toNat + b.toNat < size := by
  have ha := a.toNat_lt
  have hb := b.toNat_lt
  rw [UInt64.le_iff_toNat_le, UInt64.toNat_add, size]
  omega

/-- A checked sum is the sum of the numbers. -/
theorem checkedAdd_eq_some_iff {a b c : UInt64} :
    a.checkedAdd b = some c ↔ c.toNat = a.toNat + b.toNat := by
  have hc := c.toNat_lt
  unfold checkedAdd
  split
  next h =>
    have hsum : (a + b).toNat = a.toNat + b.toNat := by
      rw [UInt64.toNat_add, Nat.mod_eq_of_lt (le_add_iff.mp h)]
    rw [Option.some.injEq, ← UInt64.toNat_inj, hsum]
    exact eq_comm
  next h =>
    rw [le_add_iff, size] at h
    simp only [reduceCtorEq, false_iff]
    omega

theorem le_of_checkedAdd {a b c : UInt64} (h : a.checkedAdd b = some c) : a ≤ c := by
  rw [checkedAdd_eq_some_iff] at h
  rw [UInt64.le_iff_toNat_le]
  omega

/-- A checked sum is refused exactly when it leaves the word. -/
theorem checkedAdd_eq_none_iff {a b : UInt64} :
    a.checkedAdd b = none ↔ size ≤ a.toNat + b.toNat := by
  unfold checkedAdd
  split
  next h => rw [le_add_iff] at h; simp only [reduceCtorEq, false_iff]; omega
  next h => rw [le_add_iff] at h; simp only [true_iff]; omega

/-- The sum of a word and a number that both have to fit. -/
theorem bind_checkedAdd_eq_some_iff {a c : UInt64} {n : Nat} :
    (ofNat? n).bind a.checkedAdd = some c ↔ c.toNat = a.toNat + n := by
  rw [Option.bind_eq_some_iff]
  constructor
  · rintro ⟨b, hb, hsum⟩
    rwa [checkedAdd_eq_some_iff, ofNat?_eq_some_iff.mp hb] at hsum
  · intro hsum
    have hc := c.toNat_lt
    have hn : (UInt64.ofNat n).toNat = n := UInt64.toNat_ofNat_of_lt' (by rw [size]; omega)
    refine ⟨UInt64.ofNat n, ofNat?_eq_some_iff.mpr hn, ?_⟩
    rw [checkedAdd_eq_some_iff, hn, hsum]

/-- The sum of two words, clamped to the largest word. -/
def saturatingAdd (a b : UInt64) : UInt64 :=
  (a.checkedAdd b).getD 0xFFFFFFFFFFFFFFFF

theorem toNat_saturatingAdd (a b : UInt64) :
    (a.saturatingAdd b).toNat = min (a.toNat + b.toNat) (size - 1) := by
  unfold saturatingAdd
  cases h : a.checkedAdd b with
  | none =>
    rw [checkedAdd_eq_none_iff] at h
    simp only [Option.getD_none, UInt64.reduceToNat, size] at h ⊢
    omega
  | some c =>
    rw [checkedAdd_eq_some_iff] at h
    have hc := c.toNat_lt
    simp only [Option.getD_some, size]
    omega

/-! ### Powers of two -/

/-- A nonzero word that shares no bit with its predecessor. -/
def IsPowerOfTwo (p : UInt64) : Prop := p ≠ 0 ∧ p &&& (p - 1) = 0

instance (p : UInt64) : Decidable p.IsPowerOfTwo :=
  inferInstanceAs (Decidable (_ ∧ _))

theorem toNat_sub_one {p : UInt64} (hp : p ≠ 0) : (p - 1).toNat = p.toNat - 1 := by
  have hpos : p.toNat ≠ 0 := fun h => hp (UInt64.toNat_inj.mp h)
  have hle : (1 : UInt64) ≤ p := by
    rw [UInt64.le_iff_toNat_le, UInt64.toNat_one]
    omega
  rw [UInt64.toNat_sub_of_le _ _ hle, UInt64.toNat_one]

theorem isPowerOfTwo_iff {p : UInt64} : p.IsPowerOfTwo ↔ ∃ k < 64, p.toNat = 1 <<< k := by
  have hlt := p.toNat_lt
  unfold IsPowerOfTwo
  constructor
  · rintro ⟨hp, hbits⟩
    have hpos : p.toNat ≠ 0 := fun h => hp (UInt64.toNat_inj.mp h)
    rw [← UInt64.toNat_inj, UInt64.toNat_and, toNat_sub_one hp] at hbits
    obtain ⟨k, hk⟩ := (Nat.and_sub_one_eq_zero_iff_isPowerOfTwo hpos).mp hbits
    refine ⟨k, ?_, by rw [hk, Nat.one_shiftLeft]⟩
    rw [hk] at hlt
    exact (Nat.pow_lt_pow_iff_right (by decide)).mp hlt
  · rintro ⟨k, -, hk⟩
    rw [Nat.one_shiftLeft] at hk
    have hpos : p.toNat ≠ 0 := by rw [hk]; exact Nat.ne_of_gt (Nat.two_pow_pos k)
    have hp : p ≠ 0 := fun h => hpos (by rw [h]; rfl)
    refine ⟨hp, ?_⟩
    rw [← UInt64.toNat_inj, UInt64.toNat_and, toNat_sub_one hp]
    exact (Nat.and_sub_one_eq_zero_iff_isPowerOfTwo hpos).mpr ⟨k, hk⟩

theorem IsPowerOfTwo.toNat_pos {p : UInt64} (hp : p.IsPowerOfTwo) : 0 < p.toNat :=
  Nat.pos_of_ne_zero fun h => hp.1 (UInt64.toNat_inj.mp h)

/-! ### Rounding to multiples -/

/-- The word with the bits below `p` cleared: the multiple of `p` at or below it,
when `p` is a power of two. -/
def alignDown (x p : UInt64) : UInt64 := x &&& ~~~(p - 1)

/-- The multiple of `p` at or above the word, when `p` is a power of two; nothing
when stepping past the next multiple leaves the word. -/
def alignUp? (x p : UInt64) : Option UInt64 := (x.checkedAdd (p - 1)).map (·.alignDown p)

theorem alignDown_le (x p : UInt64) : x.alignDown p ≤ x := UInt64.and_le_left

/-- Masking is rounding down by division. -/
theorem toNat_alignDown {p : UInt64} (hp : p.IsPowerOfTwo) (x : UInt64) :
    (x.alignDown p).toNat = x.toNat / p.toNat * p.toNat := by
  obtain ⟨k, hk64, hk⟩ := isPowerOfTwo_iff.mp hp
  rw [Nat.one_shiftLeft] at hk
  have hx := x.toNat_lt
  have hmask : (~~~(p - 1)).toNat = 2 ^ 64 - (2 ^ k - 1 + 1) := by
    rw [UInt64.toNat_not, toNat_sub_one hp.1, hk, UInt64.size]
    have := Nat.two_pow_pos k
    omega
  rw [alignDown, UInt64.toNat_and, hmask, hk]
  apply Nat.eq_of_testBit_eq
  intro i
  rw [Nat.testBit_and, Nat.testBit_two_pow_sub_succ (by
    have := Nat.pow_lt_pow_right (a := 2) (by decide) hk64
    omega), Nat.testBit_two_pow_sub_one, Nat.mul_comm, Nat.testBit_two_pow_mul,
    Nat.testBit_div_two_pow]
  rcases Nat.lt_or_ge i k with h | h
  · simp [h, Nat.not_le.mpr h]
  · rw [Nat.sub_add_cancel h]
    rcases Nat.lt_or_ge i 64 with h64 | h64
    · simp [h, h64, Nat.not_lt.mpr h]
    · rw [Nat.testBit_lt_two_pow (Nat.lt_of_lt_of_le hx (Nat.pow_le_pow_right (by decide) h64))]
      simp

/-- Rounding up never goes below the word. -/
theorem le_of_alignUp? {x p y : UInt64} (hp : p.IsPowerOfTwo) (h : x.alignUp? p = some y) :
    x ≤ y := by
  unfold alignUp? at h
  obtain ⟨s, hs, rfl⟩ := Option.map_eq_some_iff.mp h
  rw [checkedAdd_eq_some_iff, toNat_sub_one hp.1] at hs
  rw [UInt64.le_iff_toNat_le, toNat_alignDown hp]
  have := Nat.div_add_mod s.toNat p.toNat
  have := Nat.mod_lt s.toNat hp.toNat_pos
  rw [Nat.mul_comm]
  omega

end UInt64
