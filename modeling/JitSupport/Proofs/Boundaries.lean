import JitSupport.Proofs.Widening
import Mathlib.Order.Bounds.Basic

/-!
# The page boundaries next to an address

Rounding an address clears its low bits, and what comes out is the nearest page boundary on that
side.  Only the upper one can be missing.  What is checked is a sum that steps past it; since the
address space is a whole number of pages, this sum leaves the word exactly if the boundary does.  A
boundary that is missing counts as above every address, and then the two roundings determine each
other.

Both roundings take one from the page size.  What becomes of a difference that is no word is not
theirs to say: it may wrap round, or be an error.  So they are written once more here, over a
subtraction that is given, and come to the same over every subtraction that is right where the
difference is a word.  A page size that is no power of two is refused over any subtraction at all,
because it is looked at first.

## Main definitions

* `UInt64.IsSubtraction` — a subtraction that is right where the difference is a word.
* `Page.floorBy`, `Page.ceilBy` — the roundings over a given subtraction.
* `Page.RoundsExactly` — roundings that find the nearest boundaries, and in which no difference is
  anything but a word.

## Main results

* `UInt64.isGreatest_alignDown`, `UInt64.alignUp?_eq_some_iff_isLeast`,
  `UInt64.alignUp?_eq_none_iff_isLeast` — the nearest boundaries, and when there is none.
* `UInt64.exists_alignUp?_le_iff` — each rounding determines the other.
* `Page.floorBy_eq`, `Page.ceilBy_eq` — no difference leaves the words.
* `Page.roundsExactly_or_refused` — **the roundings are exact for every power of two, and refuse
  every other page size before any arithmetic.**
-/

namespace JitSupport.Page

/-- Rounding down gives the greatest page boundary that is not above a number. -/
theorem isGreatest_round {p : Nat} (hp : 0 < p) (m : Nat) :
    IsGreatest {n | p ∣ n ∧ n ≤ m} (m / p * p) := by
  have hround := isLeastCover_round hp m 0
  refine ⟨⟨hround.dvd_start, hround.start_le⟩, ?_⟩
  rintro n ⟨hdvd, hle⟩
  exact (hround.least n 0 hdvd (Nat.dvd_zero p) hle (Nat.zero_le 0)).1

/-- The boundary after one number is not above another exactly if the first number is not above
the boundary before the other. -/
theorem le_iff_of_isLeast_of_isGreatest {p m n above below : Nat}
    (habove : IsLeast {k | p ∣ k ∧ m ≤ k} above) (hbelow : IsGreatest {k | p ∣ k ∧ k ≤ n} below) :
    above ≤ n ↔ m ≤ below := by
  obtain ⟨⟨hdvd, hm⟩, hleast⟩ := habove
  obtain ⟨⟨hdvd', hn⟩, hgreatest⟩ := hbelow
  constructor
  · intro h
    exact Nat.le_trans hm (hgreatest ⟨hdvd, h⟩)
  · intro h
    exact Nat.le_trans (hleast ⟨hdvd', h⟩) hn

end JitSupport.Page

namespace UInt64

open JitSupport

variable {ε : Type} {sub : UInt64 → UInt64 → Except ε UInt64} {p x y : UInt64}

/-! ### The nearest multiples -/

/-- A word is rounded down to the greatest multiple that is not above it. -/
theorem isGreatest_alignDown (hp : p.IsPowerOfTwo) (x : UInt64) :
    IsGreatest {n | p.toNat ∣ n ∧ n ≤ x.toNat} (x.alignDown p).toNat := by
  rw [toNat_alignDown hp]
  exact Page.isGreatest_round hp.toNat_pos x.toNat

/-- A word is rounded up to the least multiple that is not below it. -/
theorem alignUp?_eq_some_iff_isLeast (hp : p.IsPowerOfTwo) :
    x.alignUp? p = some y ↔ IsLeast {n | p.toNat ∣ n ∧ x.toNat ≤ n} y.toNat := by
  have hround := Page.isLeast_round hp.toNat_pos x.toNat
  rw [alignUp?_eq_some_iff hp]
  constructor
  · rintro ⟨-, hy⟩
    rwa [hy]
  · intro hleast
    refine ⟨?_, hleast.unique hround⟩
    exact (Page.exists_isLeast_lt_iff hp.toNat_pos hp.dvd_size _).mp ⟨_, y.toNat_lt, hleast⟩

/-- A word is not rounded up exactly if that multiple is no word. -/
theorem alignUp?_eq_none_iff_isLeast (hp : p.IsPowerOfTwo) :
    x.alignUp? p = none ↔ ∃ n, size ≤ n ∧ IsLeast {n | p.toNat ∣ n ∧ x.toNat ≤ n} n := by
  have hround := Page.isLeast_round hp.toNat_pos x.toNat
  rw [alignUp?_eq_none_iff hp, ← Nat.not_lt,
    ← Page.exists_isLeast_lt_iff hp.toNat_pos hp.dvd_size]
  constructor
  · intro hnone
    exact ⟨_, Nat.le_of_not_lt fun hlt => hnone ⟨_, hlt, hround⟩, hround⟩
  · rintro ⟨n, hsize, hleast⟩ ⟨m, hlt, hleast'⟩
    rw [hleast.unique hleast'] at hsize
    exact Nat.not_le.mpr hlt hsize

/-- Rounding up stays at or below a word exactly if rounding that word down stays at or above what
was rounded up. -/
theorem exists_alignUp?_le_iff (hp : p.IsPowerOfTwo) :
    (∃ above, x.alignUp? p = some above ∧ above ≤ y) ↔ x ≤ y.alignDown p := by
  have hbelow := isGreatest_alignDown hp y
  cases hup : x.alignUp? p with
  | some above =>
    rw [alignUp?_eq_some_iff_isLeast hp] at hup
    simp [UInt64.le_iff_toNat_le, Page.le_iff_of_isLeast_of_isGreatest hup hbelow]
  | none =>
    -- the next multiple is above every word, so that the one before `y` does not reach `x`
    obtain ⟨n, hsize, hleast⟩ := (alignUp?_eq_none_iff_isLeast hp).mp hup
    have hbehind := Nat.lt_of_lt_of_le y.toNat_lt hsize
    rw [UInt64.le_iff_toNat_le, ← Page.le_iff_of_isLeast_of_isGreatest hleast hbelow]
    exact iff_of_false nofun (Nat.not_le.mpr hbehind)

/-! ### Any subtraction -/

/-- A subtraction that is right where the difference is a word.  Where it is not, the subtraction
may wrap round or fail. -/
def IsSubtraction (sub : UInt64 → UInt64 → Except ε UInt64) : Prop :=
  ∀ a b, b ≤ a → sub a b = .ok (a - b)

/-- The word with the bits below `p` cleared, by a mask that is made with `sub`. -/
def alignDownBy (sub : UInt64 → UInt64 → Except ε UInt64) (x p : UInt64) : Except ε UInt64 := do
  let low ← sub p 1
  return x &&& ~~~low

/-- The multiple of `p` at or above the word, or `none` where a sum does not fit, by masks that
are made with `sub`. -/
def alignUpBy? (sub : UInt64 → UInt64 → Except ε UInt64) (x p : UInt64) :
    Except ε (Option UInt64) := do
  let low ← sub p 1
  (x.checkedAdd low).mapM (·.alignDownBy sub p)

/-- From a page size there is one to take. -/
theorem IsSubtraction.sub_one (hsub : IsSubtraction sub) (hp : p.IsPowerOfTwo) :
    sub p 1 = .ok (p - 1) := by
  apply hsub
  rw [UInt64.le_iff_toNat_le, UInt64.toNat_one]
  exact hp.toNat_pos

theorem IsSubtraction.alignDownBy_eq (hsub : IsSubtraction sub) (hp : p.IsPowerOfTwo) :
    x.alignDownBy sub p = .ok (x.alignDown p) := by
  rw [alignDownBy, hsub.sub_one hp]
  rfl

theorem IsSubtraction.alignUpBy?_eq (hsub : IsSubtraction sub) (hp : p.IsPowerOfTwo) :
    x.alignUpBy? sub p = .ok (x.alignUp? p) := by
  rw [alignUpBy?, hsub.sub_one hp, alignUp?]
  change (x.checkedAdd (p - 1)).mapM _ = _
  cases x.checkedAdd (p - 1) with
  | none => rfl
  | some sum =>
    -- the mask is made once more for the sum
    rw [Option.mapM_some, hsub.alignDownBy_eq hp]
    rfl

end UInt64

namespace JitSupport.Page

variable {sub : UInt64 → UInt64 → Except Violation UInt64} {p x : UInt64}

/-- The start of the page that holds an address, over the subtraction `sub`. -/
def floorBy (sub : UInt64 → UInt64 → Except Violation UInt64) (address pageSize : UInt64) :
    Except Violation UInt64 :=
  if pageSize.IsPowerOfTwo then address.alignDownBy sub pageSize else .error .pageSize

/-- The first page boundary that is not below a number of bytes, over the subtraction `sub`. -/
def ceilBy (sub : UInt64 → UInt64 → Except Violation UInt64) (bytes pageSize : UInt64) :
    Except Violation (Option UInt64) :=
  if pageSize.IsPowerOfTwo then bytes.alignUpBy? sub pageSize else .error .pageSize

/-- Rounding to pages of size `p` finds the boundaries next to every address. -/
structure RoundsExactly (p : UInt64) : Prop where
  /-- Rounding down gives the greatest boundary that is not above the address. -/
  floor_isGreatest : ∀ x, ∃ below, floor x p = .ok below ∧
    IsGreatest {n | p.toNat ∣ n ∧ n ≤ x.toNat} below.toNat
  /-- Rounding up gives the least boundary that is not below it, if that is a word, -/
  ceil_eq_some_iff : ∀ x above, ceil x p = .ok (some above) ↔
    IsLeast {n | p.toNat ∣ n ∧ x.toNat ≤ n} above.toNat
  /-- and nothing if it is not. -/
  ceil_eq_none_iff : ∀ x, ceil x p = .ok none ↔
    ∃ n, UInt64.size ≤ n ∧ IsLeast {n | p.toNat ∣ n ∧ x.toNat ≤ n} n
  /-- Each rounding determines the other, a boundary that is missing being above every address. -/
  ceil_le_iff : ∀ x y, (∃ above, ceil x p = .ok (some above) ∧ above ≤ y) ↔
    ∃ below, floor y p = .ok below ∧ x ≤ below
  /-- No difference on the way down leaves the words, -/
  floorBy_eq : ∀ sub, UInt64.IsSubtraction sub → ∀ x, floorBy sub x p = floor x p
  /-- and none on the way up. -/
  ceilBy_eq : ∀ sub, UInt64.IsSubtraction sub → ∀ x, ceilBy sub x p = ceil x p

/-- Rounding down is the same over every subtraction. -/
theorem floorBy_eq (hsub : UInt64.IsSubtraction sub) (x p : UInt64) :
    floorBy sub x p = floor x p := by
  unfold floorBy floor
  split
  next hp => exact hsub.alignDownBy_eq hp
  next => rfl

/-- Rounding up is the same over every subtraction. -/
theorem ceilBy_eq (hsub : UInt64.IsSubtraction sub) (x p : UInt64) :
    ceilBy sub x p = ceil x p := by
  unfold ceilBy ceil
  split
  next hp => exact hsub.alignUpBy?_eq hp
  next => rfl

theorem roundsExactly (hp : p.IsPowerOfTwo) : RoundsExactly p where
  floor_isGreatest x := ⟨_, floor_of_isPowerOfTwo hp, UInt64.isGreatest_alignDown hp x⟩
  ceil_eq_some_iff x above := by
    rw [ceil_of_isPowerOfTwo hp, Except.ok.injEq, UInt64.alignUp?_eq_some_iff_isLeast hp]
  ceil_eq_none_iff x := by
    rw [ceil_of_isPowerOfTwo hp, Except.ok.injEq, UInt64.alignUp?_eq_none_iff_isLeast hp]
  ceil_le_iff x y := by
    simp only [ceil_of_isPowerOfTwo hp, floor_of_isPowerOfTwo hp, Except.ok.injEq,
      exists_eq_left', UInt64.exists_alignUp?_le_iff hp]
  floorBy_eq sub hsub x := floorBy_eq hsub x p
  ceilBy_eq sub hsub x := ceilBy_eq hsub x p

/-- **The roundings are exact for every power of two**, up to half of the address space.  Every
other page size is refused, zero among them, before anything is taken from it: what a subtraction
would do then makes no difference. -/
theorem roundsExactly_or_refused (p : UInt64) :
    (p.toNat.isPowerOfTwo → RoundsExactly p) ∧
      (¬ p.toNat.isPowerOfTwo → ∀ x,
        floor x p = .error .pageSize ∧ ceil x p = .error .pageSize ∧
          ∀ sub, floorBy sub x p = .error .pageSize ∧ ceilBy sub x p = .error .pageSize) := by
  rw [← UInt64.isPowerOfTwo_iff_toNat]
  refine ⟨roundsExactly, fun hp x => ?_⟩
  refine ⟨floor_of_not_isPowerOfTwo hp, ceil_of_not_isPowerOfTwo hp, fun sub => ?_⟩
  exact ⟨if_neg hp, if_neg hp⟩

/-- A subtraction that fails where the difference is no word. -/
def subOrFail (a b : UInt64) : Except Violation UInt64 :=
  if b ≤ a then .ok (a - b) else .error .negativeLength

/-- Half of the address space. -/
def half : UInt64 := 0x8000000000000000

/-- With half of the address space as a page, there is one boundary above zero: it is below the last
address, and behind it there is none.  Zero is refused as a page size, although one cannot be taken
from it. -/
theorem half_roundsExactly :
    IsGreatest {n | half.toNat ∣ n ∧ n ≤ UInt64.size - 1} half.toNat ∧
      IsLeast {n | half.toNat ∣ n ∧ half.toNat ≤ n} half.toNat ∧
      (∃ n, UInt64.size ≤ n ∧ IsLeast {n | half.toNat ∣ n ∧ half.toNat + 1 ≤ n} n) ∧
      floorBy subOrFail 0xFFFFFFFFFFFFFFFF half = .ok half ∧
      ceilBy subOrFail (half + 1) half = .ok none ∧
      subOrFail 0 1 = .error .negativeLength ∧
      floorBy subOrFail 5 0 = .error .pageSize ∧ ceilBy subOrFail 5 0 = .error .pageSize := by
  have hsub : UInt64.IsSubtraction subOrFail := fun _ _ h => if_pos h
  have hexact := (roundsExactly_or_refused half).1 ⟨63, rfl⟩
  have hzero : ¬ (0 : UInt64).toNat.isPowerOfTwo := by
    rw [← UInt64.isPowerOfTwo_iff_toNat]
    decide
  obtain ⟨-, -, hrefused⟩ := (roundsExactly_or_refused 0).2 hzero 5
  obtain ⟨below, hfloor, hgreatest⟩ := hexact.floor_isGreatest 0xFFFFFFFFFFFFFFFF
  cases hfloor
  refine ⟨hgreatest, (hexact.ceil_eq_some_iff half half).mp rfl,
    (hexact.ceil_eq_none_iff (half + 1)).mp rfl, ?_, ?_, rfl, hrefused subOrFail⟩
  · exact hexact.floorBy_eq subOrFail hsub _
  · exact hexact.ceilBy_eq subOrFail hsub _

end JitSupport.Page
