import JitSupport.Cache.Invalidation
import JitSupport.Proofs.Rounding

/-!
# What making code visible comes to

Making a range visible always succeeds, and all there is to it is in the trace.
Making the pages of some bytes visible can only fail before anything is done, when
the pages reach behind the address space.

## Main definitions

* `Backend.steps` — what a platform does for a range.
* `Trace.invalidation` — what making a range visible leaves in the trace.

## Main results

* `Cache.run_invalidate` — making a range visible.
* `Cache.touchedPages_of_fits` — the pages of some bytes, in numbers.
* `Cache.touchedPages_spec` — the pages of some bytes hold all of them.
* `Cache.touchedPages_ok_or_overflow` — the only way in which finding them fails.
-/

namespace JitSupport

/-- What a platform does for a range. -/
def Backend.steps (backend : Backend) (range : MemoryRange) : List CacheOp :=
  (backend.flush range.start range.stop).toOption.getD []

/-- No platform turns down a range, whose ends are always in order. -/
theorem Backend.flush_eq_steps (backend : Backend) (range : MemoryRange) :
    backend.flush range.start range.stop = .ok (backend.steps range) := by
  cases backend with
  | coherent => rfl
  | aarch64 type => rfl
  | apple => simp only [steps, flush, if_pos range.start_le_stop]; rfl
  | clearCache => rfl

/-- What making a range visible leaves in the trace. -/
def Trace.invalidation (backend : Backend) (range : MemoryRange) : Trace :=
  .event (.invalidated range backend.hasFlush) ::
    if range.isEmpty then [] else [.flush range.start range.stop (backend.steps range)]

namespace Cache

variable {σ : Type}

/-- Making a range visible succeeds and changes nothing but the trace. -/
theorem run_invalidate (backend : Backend) (range : MemoryRange) (s : σ) (k : Kernel) :
    invalidate backend range s k = ⟨.ok (), s, k, .invalidation backend range⟩ := by
  have hreport : Action.report (.invalidated range backend.hasFlush) s k =
      ⟨.ok (), s, k, [.event (.invalidated range backend.hasFlush)]⟩ := rfl
  rw [invalidate, Action.run_bind_of_ok hreport, Trace.invalidation]
  split
  next h => rfl
  next h =>
    rw [maintain, Backend.flush_eq_steps]
    rfl

/-! ### Pages of some bytes -/

/-- The bytes from an address on, when they fit in the address space. -/
theorem ofLength_of_fits {start len : UInt64} (h : start.toNat + len.toNat < UInt64.size) :
    ∃ r, MemoryRange.ofLength start len = .ok r ∧ r.start = start ∧
      r.stop.toNat = start.toNat + len.toNat := by
  cases hsum : start.checkedAdd len with
  | none =>
    rw [UInt64.checkedAdd_eq_none_iff] at hsum
    omega
  | some stop =>
    exact ⟨_, MemoryRange.ofLength_of_checkedAdd_eq_some hsum, rfl,
      UInt64.checkedAdd_eq_some_iff.mp hsum⟩

/-- The bytes from an address on have their number as their length. -/
theorem ends_of_ofLength {start len : UInt64} {r : MemoryRange}
    (h : MemoryRange.ofLength start len = .ok r) :
    r.start = start ∧ r.stop.toNat = start.toNat + len.toNat := by
  rw [MemoryRange.ofLength] at h
  split at h
  next stop hsum =>
    cases h
    exact ⟨rfl, UInt64.checkedAdd_eq_some_iff.mp hsum⟩
  next => cases h

theorem touchedPages_of_ofLength {start len : UInt64} {bytes : MemoryRange}
    (h : MemoryRange.ofLength start len = .ok bytes) :
    touchedPages start len = bytes.pageAligned Page.size := by
  rw [touchedPages, h]
  rfl

/-- The pages of some bytes that do not reach into the last page of the address space. -/
theorem touchedPages_of_fits {start len : UInt64} (hlen : 0 < len.toNat)
    (hfits : start.toNat + len.toNat + (Page.size.toNat - 1) < UInt64.size) :
    ∃ r, touchedPages start len = .ok r ∧
      r.start.toNat = start.toNat / Page.size.toNat * Page.size.toNat ∧
      r.stop.toNat = (start.toNat + len.toNat + (Page.size.toNat - 1)) / Page.size.toNat
        * Page.size.toNat := by
  have hsum : start.toNat + len.toNat < UInt64.size := by omega
  obtain ⟨bytes, hbytes, hstart, hstop⟩ := ofLength_of_fits hsum
  have hne : bytes.isEmpty = false := by
    rw [Bool.eq_false_iff, ne_eq, MemoryRange.isEmpty_iff, ← UInt64.toNat_inj, hstop, hstart]
    omega
  obtain ⟨r, hr, hrstart, hrstop⟩ :=
    MemoryRange.pageAligned_of_fits Page.isPowerOfTwo_size hne (by rw [hstop]; exact hfits)
  refine ⟨r, ?_, ?_, ?_⟩
  · rw [touchedPages_of_ofLength hbytes]
    exact hr
  · rw [hrstart, hstart]
  · rw [hrstop, hstop]

/-- Both sums that can leave the address space report the bytes that were asked for. -/
theorem touchedPages_ok_or_overflow (start len : UInt64) :
    (∃ r, touchedPages start len = .ok r) ∨
      touchedPages start len = .error (.error (.addressOverflow start len)) := by
  by_cases hsum : start.toNat + len.toNat < UInt64.size
  · obtain ⟨bytes, hbytes, hstart, hstop⟩ := ofLength_of_fits hsum
    rw [touchedPages_of_ofLength hbytes]
    cases hempty : bytes.isEmpty with
    | true => exact Or.inl ⟨bytes, MemoryRange.pageAligned_of_isEmpty hempty _⟩
    | false =>
      by_cases hfits : bytes.stop.toNat + (Page.size.toNat - 1) < UInt64.size
      · obtain ⟨r, hr, -⟩ :=
          MemoryRange.pageAligned_of_fits Page.isPowerOfTwo_size hempty hfits
        exact Or.inl ⟨r, hr⟩
      · have hlen : bytes.len = len := by
          rw [← UInt64.toNat_inj, MemoryRange.toNat_len, hstop, hstart]
          omega
        rw [MemoryRange.pageAligned_of_overflow Page.isPowerOfTwo_size hempty (by omega), hstart,
          hlen]
        exact Or.inr rfl
  · have hover := UInt64.checkedAdd_eq_none_iff.mpr (Nat.le_of_not_lt hsum)
    rw [touchedPages, MemoryRange.ofLength_of_checkedAdd_eq_none hover]
    exact Or.inr rfl

/-- Pages are only turned down if they reach into the last page of the address space. -/
theorem overflow_of_touchedPages {start len : UInt64} {failure : Failure}
    (h : touchedPages start len = .error failure) :
    UInt64.size ≤ start.toNat + len.toNat + (Page.size.toNat - 1) := by
  apply Nat.le_of_not_lt
  intro hfits
  obtain ⟨bytes, hbytes, -, hstop⟩ := @ofLength_of_fits start len (by omega)
  rw [touchedPages_of_ofLength hbytes] at h
  cases hempty : bytes.isEmpty with
  | true =>
    rw [MemoryRange.pageAligned_of_isEmpty hempty] at h
    cases h
  | false =>
    obtain ⟨r, hr, -⟩ :=
      MemoryRange.pageAligned_of_fits Page.isPowerOfTwo_size hempty (by rw [hstop]; exact hfits)
    rw [hr] at h
    cases h

/-- What has pages is a range of bytes, and is widened to them. -/
theorem exists_ofLength_of_touchedPages {start len : UInt64} {r : MemoryRange}
    (h : touchedPages start len = .ok r) :
    ∃ bytes : MemoryRange, bytes.pageAligned Page.size = .ok r ∧ bytes.start = start ∧
      bytes.stop.toNat = start.toNat + len.toNat := by
  cases hbytes : MemoryRange.ofLength start len with
  | error e =>
    rw [touchedPages, hbytes] at h
    cases h
  | ok bytes =>
    rw [touchedPages_of_ofLength hbytes] at h
    exact ⟨bytes, h, ends_of_ofLength hbytes⟩

/-- The pages of some bytes hold all of them, and there are none if there are no bytes. -/
theorem touchedPages_spec {start len : UInt64} {r : MemoryRange}
    (h : touchedPages start len = .ok r) :
    (∀ x : UInt64, start ≤ x → x.toNat < start.toNat + len.toNat → x ∈ r) ∧
      (r.isEmpty = false → 0 < len.toNat) := by
  obtain ⟨bytes, hpages, hstart, hstop⟩ := exists_ofLength_of_touchedPages h
  constructor
  · intro x hfirst hlast
    apply MemoryRange.mem_of_pageAligned hpages
    refine MemoryRange.mem_def.mpr ⟨hstart ▸ hfirst, ?_⟩
    rw [UInt64.lt_iff_toNat_lt, hstop]
    exact hlast
  · intro hne
    apply Nat.pos_of_ne_zero
    intro hlen
    have hempty : bytes.isEmpty = true := by
      rw [MemoryRange.isEmpty_iff, ← UInt64.toNat_inj, hstop, hstart]
      omega
    rw [MemoryRange.pageAligned_of_isEmpty hempty] at hpages
    cases hpages
    rw [hempty] at hne
    cases hne

/-- The pages of some bytes are made visible once they are found. -/
theorem run_invalidatePages_of_ok {start len : UInt64} {pages : MemoryRange}
    (h : touchedPages start len = .ok pages) (backend : Backend) (s : σ) (k : Kernel) :
    invalidatePages backend start len s k =
      ⟨.ok (), s, k, .event (.pagesInvalidated pages) :: Trace.invalidation backend pages⟩ := by
  have hreport : Action.report (.pagesInvalidated pages) s k =
      ⟨.ok (), s, k, [.event (.pagesInvalidated pages)]⟩ := rfl
  have hfound : (liftM (touchedPages start len) : Action σ MemoryRange) s k =
      ⟨.ok pages, s, k, []⟩ := by
    rw [Action.run_liftM_failure, h]
  rw [invalidatePages, Action.run_bind_of_ok hfound, Action.run_bind_of_ok hreport,
    run_invalidate]
  rfl

/-- Nothing is done when the pages of some bytes are not found. -/
theorem run_invalidatePages_of_error {start len : UInt64} {failure : Failure}
    (h : touchedPages start len = .error failure) (backend : Backend) (s : σ) (k : Kernel) :
    invalidatePages backend start len s k = ⟨.error failure, s, k, []⟩ := by
  have hfound : (liftM (touchedPages start len) : Action σ MemoryRange) s k =
      ⟨.error failure, s, k, []⟩ := by
    rw [Action.run_liftM_failure, h]
  rw [invalidatePages, Action.run_bind_of_error hfound]

end Cache

end JitSupport
