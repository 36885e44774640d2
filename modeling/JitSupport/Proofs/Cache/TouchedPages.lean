import JitSupport.Proofs.Cache.Request
import JitSupport.Proofs.Widening

/-!
# The pages of some bytes

A patch asks for the pages of its bytes to be made visible, by an address and a number of bytes.
Two sums are made on the way to these pages, and either may leave the address space: the end of the
bytes, and that end rounded to a page.  Both are checked before anything is done and both report
what was asked for, so that a caller sees one failure: the first page boundary behind the bytes is
not an address.  The last page of all is therefore out of reach, although its bytes are not.

## Main definitions

* `Cache.PagesMadeVisible` — what making the pages of some bytes visible comes to.

## Main results

* `Cache.exists_touchedPages_iff` — when the pages of some bytes are found.
* `Cache.mem_touchedPages_iff` — they are the pages that some of the bytes lie in.
* `Cache.pagesMadeVisible` — **exactly the pages of the bytes are made visible, or nothing is
  done.**
-/

namespace JitSupport.Cache

variable {σ : Type} {start len : UInt64} {pages : MemoryRange}

/-- What making the pages of `len` bytes from `start` on visible comes to. -/
structure PagesMadeVisible (backend : Backend) (start len : UInt64) (s : σ) (k : Kernel)
    (o : Outcome σ Unit) : Prop where
  /-- It succeeds exactly if there are no bytes, or the first page boundary that is not before
  their end is an address. -/
  ok_iff : o.result = .ok () ↔
    len = 0 ∨ ∃ n < UInt64.size, IsLeast {n | Page.size.toNat ∣ n ∧ start.toNat + len.toNat ≤ n} n
  /-- One range is then reported twice, and handed to the platform if there are bytes. -/
  reported : o.result = .ok () → ∃ pages,
    o.trace.events = [.pagesInvalidated pages, .invalidated pages backend.hasFlush] ∧
    o.trace.flushes = (if len = 0 then [] else [(pages.start, pages.stop, backend.steps pages)]) ∧
    (len = 0 → pages.start = start ∧ pages.stop = start) ∧
    (len ≠ 0 → ∀ y, y ∈ pages ↔ ∃ x, (start ≤ x ∧ x.toNat < start.toNat + len.toNat) ∧
      x.toNat / Page.size.toNat = y.toNat / Page.size.toNat)
  /-- Otherwise the bytes are reported that were asked for, and nothing was done. -/
  refused : o.result ≠ .ok () →
    o.result = .error (.error (.addressOverflow start len)) ∧ o.trace = []
  /-- Nothing else changes. -/
  unchanged : o.state = s ∧ o.kernel = k

/-! ### Finding the pages -/

/-- No bytes have no pages, wherever they are. -/
theorem touchedPages_zero (start : UInt64) :
    touchedPages start 0 = .ok ⟨start, start, UInt64.le_refl _⟩ := by
  have hbytes : MemoryRange.ofLength start 0 = .ok ⟨start, start, UInt64.le_refl _⟩ := by
    apply MemoryRange.ofLength_of_checkedAdd_eq_some
    rw [UInt64.checkedAdd_eq_some_iff, UInt64.toNat_zero, Nat.add_zero]
  rw [touchedPages_of_ofLength hbytes]
  exact MemoryRange.pageAligned_of_isEmpty (MemoryRange.isEmpty_iff.mpr rfl) _

/-- The bytes whose pages are found, as a range that is not empty. -/
theorem exists_bytes_of_touchedPages (hlen : len ≠ 0) (h : touchedPages start len = .ok pages) :
    ∃ bytes : MemoryRange, bytes.isEmpty = false ∧ bytes.pageAligned Page.size = .ok pages ∧
      bytes.start = start ∧ bytes.stop.toNat = start.toNat + len.toNat := by
  obtain ⟨bytes, hpages, hstart, hstop⟩ := exists_ofLength_of_touchedPages h
  refine ⟨bytes, ?_, hpages, hstart, hstop⟩
  rw [ne_eq, ← UInt64.toNat_inj, UInt64.toNat_zero] at hlen
  rw [Bool.eq_false_iff, ne_eq, MemoryRange.isEmpty_iff, ← UInt64.toNat_inj, hstart, hstop]
  omega

/-- The pages of some bytes are found exactly if there are none, or the sum that steps past their
end does not leave the address space. -/
theorem exists_touchedPages_iff :
    (∃ pages, touchedPages start len = .ok pages) ↔
      len = 0 ∨ start.toNat + len.toNat + (Page.size.toNat - 1) < UInt64.size := by
  constructor
  · rintro ⟨pages, h⟩
    by_cases hlen : len = 0
    · exact Or.inl hlen
    · obtain ⟨bytes, hne, hpages, -, hstop⟩ := exists_bytes_of_touchedPages hlen h
      obtain ⟨hp, -, hup⟩ := MemoryRange.ends_of_pageAligned hne hpages
      rw [← hstop]
      exact Or.inr ((UInt64.alignUp?_eq_some_iff hp).mp hup).1
  · rintro (rfl | hfits)
    · exact ⟨_, touchedPages_zero start⟩
    · cases h : touchedPages start len with
      | ok pages => exact ⟨pages, rfl⟩
      | error failure => exact absurd (overflow_of_touchedPages h) (Nat.not_le.mpr hfits)

/-- The pages of some bytes are the pages that some of the bytes lie in. -/
theorem mem_touchedPages_iff (hlen : len ≠ 0) (h : touchedPages start len = .ok pages)
    (y : UInt64) :
    y ∈ pages ↔ ∃ x, (start ≤ x ∧ x.toNat < start.toNat + len.toNat) ∧
      x.toNat / Page.size.toNat = y.toNat / Page.size.toNat := by
  obtain ⟨bytes, hne, hpages, hstart, hstop⟩ := exists_bytes_of_touchedPages hlen h
  rw [MemoryRange.mem_pageAligned_iff hne hpages]
  simp only [MemoryRange.mem_def, UInt64.lt_iff_toNat_lt, hstart, hstop]

/-- There are no pages exactly if there are no bytes. -/
theorem isEmpty_touchedPages_iff (h : touchedPages start len = .ok pages) :
    pages.isEmpty = true ↔ len = 0 := by
  constructor
  · intro hempty
    by_cases hlen : len = 0
    · exact hlen
    · -- the pages hold the bytes, of which there is one
      obtain ⟨bytes, hne, hpages, -⟩ := exists_bytes_of_touchedPages hlen h
      have hsome := MemoryRange.isEmpty_eq_false_of_subset hne fun _ hx =>
        MemoryRange.mem_of_pageAligned hpages hx
      rw [hempty] at hsome
      cases hsome
  · rintro rfl
    rw [touchedPages_zero] at h
    cases h
    exact MemoryRange.isEmpty_iff.mpr rfl

/-! ### Making them visible -/

/-- The two sums that are checked stay in the address space exactly if the first page boundary
behind the bytes does. -/
theorem exists_touchedPages_iff_isLeast :
    (∃ pages, touchedPages start len = .ok pages) ↔
      len = 0 ∨
        ∃ n < UInt64.size, IsLeast {n | Page.size.toNat ∣ n ∧ start.toNat + len.toNat ≤ n} n := by
  rw [exists_touchedPages_iff, Page.exists_isLeast_lt_iff Page.isPowerOfTwo_size.toNat_pos
    Page.isPowerOfTwo_size.dvd_size]

/-- What is done once the pages are found. -/
theorem pagesMadeVisible_of_ok (h : touchedPages start len = .ok pages) (backend : Backend)
    (s : σ) (k : Kernel) :
    PagesMadeVisible backend start len s k
      ⟨.ok (), s, k, .event (.pagesInvalidated pages) :: Trace.invalidation backend pages⟩ where
  ok_iff := iff_of_true rfl (exists_touchedPages_iff_isLeast.mp ⟨pages, h⟩)
  reported := by
    intro _
    refine ⟨pages, ?_, ?_, ?_, fun hlen => mem_touchedPages_iff hlen h⟩
    · unfold Trace.invalidation
      split <;> rfl
    · simp only [← isEmpty_touchedPages_iff h]
      exact Trace.flushes_invalidation backend pages
    · rintro rfl
      rw [touchedPages_zero] at h
      cases h
      exact ⟨rfl, rfl⟩
  refused hresult := absurd rfl hresult
  unchanged := ⟨rfl, rfl⟩

/-- **Exactly the pages of the bytes are made visible, or nothing is done.** -/
theorem pagesMadeVisible (backend : Backend) (start len : UInt64) (s : σ) (k : Kernel) :
    PagesMadeVisible backend start len s k (invalidatePages backend start len s k) := by
  rcases touchedPages_ok_or_overflow start len with ⟨pages, h⟩ | h
  · rw [run_invalidatePages_of_ok h]
    exact pagesMadeVisible_of_ok h backend s k
  · rw [run_invalidatePages_of_error h]
    have hnone : ¬ ∃ pages, touchedPages start len = .ok pages := by
      rintro ⟨pages, hpages⟩
      rw [h] at hpages
      cases hpages
    rw [exists_touchedPages_iff_isLeast] at hnone
    constructor
    case ok_iff => exact iff_of_false nofun hnone
    case reported => exact nofun
    case refused => exact fun _ => ⟨rfl, rfl⟩
    case unchanged => exact ⟨rfl, rfl⟩

/-- The last byte of the last page but one has its page made visible; with the byte behind it,
nothing is done. -/
theorem lastPages_madeVisible :
    let k : Kernel := ⟨bordered, [], [], []⟩
    let o := invalidatePages .apple 0xFFFFFFFFFFFFEFFF 1 () k
    let o' := invalidatePages .apple 0xFFFFFFFFFFFFEFFF 2 () k
    o.result = .ok () ∧ (∃ pages, o.trace.events =
        [.pagesInvalidated pages, .invalidated pages true] ∧ 0xFFFFFFFFFFFFE000 ∈ pages) ∧
      o'.result = .error (.error (.addressOverflow 0xFFFFFFFFFFFFEFFF 2)) ∧ o'.trace = [] := by
  intro k o o'
  have hvisible := pagesMadeVisible .apple 0xFFFFFFFFFFFFEFFF 1 () k
  have hrefused := pagesMadeVisible .apple 0xFFFFFFFFFFFFEFFF 2 () k
  have hdone : o.result = .ok () := rfl
  obtain ⟨pages, hevents, -, -, hpages⟩ := hvisible.reported hdone
  exact ⟨hdone, ⟨pages, hevents, (hpages (by decide) _).mpr
    ⟨0xFFFFFFFFFFFFEFFF, by decide, by decide⟩⟩, hrefused.refused nofun⟩

end JitSupport.Cache
