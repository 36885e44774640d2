import JitSupport.Proofs.CodeMemory.Reachable

/-!
# Published code is never stale

A byte that was copied is stale until the range it lies in is made visible to
instruction fetch.  The order of what happened is in the trace, so that a byte is fresh
if the trace has an invalidation of its address behind the last copy to it, and behind
the last change of its protection.

Two paths make bytes fresh.  Publishing invalidates all that was written, by the addresses
of the bytes; patching invalidates the pages of the patch, by addresses that are rounded
on their own.  Both roundings agree because mappings start with a page.

## Main definitions

* `Effect.Copies`, `Effect.Reprotects` — what makes a byte stale.
* `Trace.Fresh` — a byte that is not stale.
* `Mapping.PageAligned` — a mapping that starts with a page.

## Main results

* `CodeMemory.Reachable.lt_len_of_copies` — all copied bytes lie in the written code.
* `CodeMemory.WellFormed.touchedPages_spec` — the two ways of rounding agree.
* `CodeMemory.Reachable.fresh_of_published` — **published code is fresh.**
-/

namespace JitSupport

/-- The entry copies a byte to an offset. -/
def Effect.Copies (x : UInt64) : Effect → Prop
  | store offset bytes => offset.toNat ≤ x.toNat ∧ x.toNat < offset.toNat + bytes.length
  | _ => False

instance (x : UInt64) (e : Effect) : Decidable (Effect.Copies x e) := by
  cases e <;> unfold Effect.Copies <;> infer_instance

/-- The entry reports another protection for the byte at an offset. -/
def Effect.Reprotects (x : UInt64) : Effect → Prop
  | event (.protectionChanged first last _) => first ≤ x ∧ x < last
  | _ => False

@[simp] theorem Effect.not_copies_event (x : UInt64) (e : Event) :
    ¬ Effect.Copies x (.event e) := id

@[simp] theorem Effect.not_copies_call (x : UInt64) (c : SystemCall) (verdict : Verdict) :
    ¬ Effect.Copies x (.call c verdict) := id

@[simp] theorem Effect.not_copies_flush (x start stop : UInt64) (ops : List CacheOp) :
    ¬ Effect.Copies x (.flush start stop ops) := id

/-- A mapping starts with a page, unless it has none. -/
def Mapping.PageAligned (m : Mapping) : Prop := m.isEmpty ∨ m.region.start % Page.size = 0

namespace Trace

/-- A byte was copied to an offset. -/
def Copies (t : Trace) (x : UInt64) : Prop := ∃ e ∈ t, Effect.Copies x e

instance (t : Trace) (x : UInt64) : Decidable (t.Copies x) :=
  inferInstanceAs (Decidable (∃ e ∈ t, _))

/-- Nothing in the trace makes the byte at an offset stale. -/
def Quiet (t : Trace) (x : UInt64) : Prop :=
  ∀ e ∈ t, ¬ Effect.Copies x e ∧ ¬ Effect.Reprotects x e

/-- The byte at an offset was made visible after all that could have made it stale. -/
def Fresh (t : Trace) (base x : UInt64) : Prop :=
  ∃ before range flushes after, t = before ++ .event (.invalidated range flushes) :: after ∧
    base + x ∈ range ∧ Quiet after x

variable {t u : Trace} {base x : UInt64}

@[simp] theorem copies_append : Copies (t ++ u) x ↔ t.Copies x ∨ u.Copies x := by
  simp only [Copies, List.mem_append, or_and_right, exists_or]

@[simp] theorem copies_nil : ¬ Copies [] x := by
  simp [Copies]

@[simp] theorem copies_cons (e : Effect) :
    Copies (e :: t) x ↔ Effect.Copies x e ∨ t.Copies x := by
  simp [Copies]

@[simp] theorem quiet_append : Quiet (t ++ u) x ↔ t.Quiet x ∧ u.Quiet x := by
  exact List.forall_mem_append

@[simp] theorem quiet_nil : Quiet [] x := by
  simp [Quiet]

@[simp] theorem quiet_cons (e : Effect) :
    Quiet (e :: t) x ↔ (¬ Effect.Copies x e ∧ ¬ Effect.Reprotects x e) ∧ t.Quiet x := by
  simp [Quiet]

/-! ### Parts of a trace -/

variable (first last : UInt64) (protection : Protection) (reason : Errno) (backend : Backend)
  (range : MemoryRange)

@[simp] theorem copies_granted : ¬ Copies (granted first last protection) x := by
  simp [granted]

@[simp] theorem copies_denied : ¬ Copies (denied first last protection reason) x := by
  simp [denied]

@[simp] theorem copies_invalidation : ¬ Copies (invalidation backend range) x := by
  unfold invalidation
  split <;> simp

@[simp] theorem quiet_granted :
    Quiet (granted first last protection) x ↔ ¬ (first ≤ x ∧ x < last) := by
  simp [granted, Effect.Reprotects]

@[simp] theorem quiet_denied : Quiet (denied first last protection reason) x := by
  simp [denied, Effect.Reprotects]

@[simp] theorem quiet_invalidation : Quiet (invalidation backend range) x := by
  unfold invalidation
  split <;> simp [Effect.Reprotects]

/-! ### Fresh bytes -/

/-- A byte stays fresh while nothing makes it stale. -/
theorem Fresh.append (h : t.Fresh base x) (hu : u.Quiet x) : Fresh (t ++ u) base x := by
  obtain ⟨before, range, flushes, after, rfl, hmem, hafter⟩ := h
  exact ⟨before, range, flushes, after ++ u, by simp, hmem, quiet_append.mpr ⟨hafter, hu⟩⟩

/-- A byte that is fresh in the end is fresh, whatever came before. -/
theorem Fresh.prepend (hu : u.Fresh base x) (t : Trace) : Fresh (t ++ u) base x := by
  obtain ⟨before, range, flushes, after, rfl, hmem, hafter⟩ := hu
  exact ⟨t ++ before, range, flushes, after, by simp, hmem, hafter⟩

/-- Making a range visible makes its bytes fresh. -/
theorem fresh_invalidation (hmem : base + x ∈ range) :
    Fresh (invalidation backend range) base x := by
  refine ⟨[], range, backend.hasFlush, _, rfl, hmem, ?_⟩
  split <;> simp [Effect.Reprotects]

end Trace

namespace CodeMemory

variable {backend : Backend} {m : CodeMemory} {t : Trace} {k : Kernel} {x : UInt64}
  {offset : UInt64} {bytes : ByteString} {pages : MemoryRange}

@[simp] theorem copies_notice (m : CodeMemory) : ¬ m.notice.Copies x := by
  unfold notice
  split <;> simp

theorem Closing.not_copies {k' : Kernel} {closing : Trace} (h : Closing pages k k' closing) :
    ¬ closing.Copies x := by
  cases h <;> simp

theorem Closing.quiet {k' : Kernel} {closing : Trace} (h : Closing pages k k' closing)
    (hx : ¬ (pages.start ≤ x ∧ x < pages.stop)) : closing.Quiet x := by
  cases h with
  | atOnce => rwa [Trace.quiet_granted]
  | secondTry => exact Trace.quiet_append.mpr ⟨by simp, by rwa [Trace.quiet_granted]⟩

/-! ### Copied bytes lie in the written code -/

theorem lt_len_of_copies_store (hfit : offset.toNat + bytes.length ≤ m.capacity.toNat)
    (hold : t.Copies x → x.toNat < m.len.toNat)
    (hx : t.Copies x ∨ Effect.Copies x (.store offset bytes)) :
    x.toNat < (m.copied offset bytes).len.toNat := by
  rw [toNat_len_copied hfit]
  rcases hx with hx | ⟨-, hx⟩
  · have hlt := hold hx
    omega
  · omega

theorem Step.lt_len_of_copies {op : Operation} {o : Outcome CodeMemory Unit}
    (hstep : Step backend m k op o) (hold : t.Copies x → x.toNat < m.len.toNat)
    (hx : Trace.Copies (t ++ o.trace) x) : x.toNat < o.state.len.toNat := by
  cases hstep with
  | refused | publishDenied | patchedNothing | openDenied | publishedEmpty | published =>
    exact hold (by simpa using hx)
  | written hp hfit | lost hp hfit =>
    exact lt_len_of_copies_store hfit hold (by simpa using hx)
  | overflowed hp hfit _ _ _ hclosing | patched hp hfit _ _ _ hclosing =>
    have hclosed : ¬ Trace.Copies _ x := hclosing.not_copies
    refine lt_len_of_copies_store hfit hold ?_
    simpa [hclosed] using hx

/-- All copied bytes lie in the written code. -/
theorem Reachable.lt_len_of_copies (h : Reachable backend m t) (hx : t.Copies x) :
    x.toNat < m.len.toNat := by
  induction h with
  | reserve h =>
    obtain ⟨-, -, -, -, htrace⟩ := reserve_spec h
    rw [htrace] at hx
    split at hx <;> simp at hx
  | perform h op k ih => exact (step_perform h.wellFormed backend k op).lt_len_of_copies ih hx

/-! ### The two ways of rounding -/

/-- The pages that are made visible after a patch are the pages of the patch, when the
memory starts with a page. -/
theorem WellFormed.touchedPages_spec (hm : m.WellFormed) (halign : m.mapping.PageAligned)
    (hfit : offset.toNat + bytes.length ≤ m.capacity.toNat) (hlen : 0 < bytes.length)
    (hpages : m.IsCover offset bytes.length pages) :
    ∃ touched, Cache.touchedPages (m.mapping.region.start + offset)
        (UInt64.ofNat bytes.length) = .ok touched ∧
      touched.start.toNat = m.mapping.region.start.toNat + pages.start.toNat ∧
      touched.stop.toNat = m.mapping.region.start.toNat + pages.stop.toNat := by
  have hsize := toNat_ofNat_length hfit
  have hwhole := hm.wholePages
  have hregion : m.capacity.toNat = m.mapping.region.stop.toNat - m.mapping.region.start.toNat :=
    m.mapping.region.toNat_len
  have hstop := m.mapping.region.stop.toNat_lt
  have hstart := hpages.start_eq
  have hend := hpages.stop_eq
  have hbase : m.mapping.region.start.toNat % Page.size.toNat = 0 := by
    rcases halign with hempty | halign
    · -- nothing can be patched in memory without a page
      rw [isEmpty_mapping_iff, ← UInt64.toNat_inj, UInt64.toNat_zero] at hempty
      omega
    · exact UInt64.mod_eq_zero_iff.mp halign
  have hoffset := m.toNat_address (Nat.le_of_add_right_le hfit)
  rw [Page.toNat_size] at hwhole hbase hstart hend
  -- the memory ends with a page, so that rounding up stays in the address space
  obtain ⟨touched, htouched, hfirst, hlast⟩ :=
    @Cache.touchedPages_of_fits (m.mapping.region.start + offset)
      (UInt64.ofNat bytes.length) (by omega) (by
        rw [hoffset, hsize, Page.toNat_size, UInt64.size]
        omega)
  rw [hoffset, hsize, Page.toNat_size] at hlast
  rw [hoffset, Page.toNat_size] at hfirst
  exact ⟨touched, htouched, by omega, by omega⟩

/-- A patch of memory that starts with a page does not reach behind the address space. -/
theorem WellFormed.touchedPages_ne_error (hm : m.WellFormed) (halign : m.mapping.PageAligned)
    (hfit : offset.toNat + bytes.length ≤ m.capacity.toNat) (hlen : 0 < bytes.length)
    (hpages : m.IsCover offset bytes.length pages) (failure : Failure) :
    Cache.touchedPages (m.mapping.region.start + offset) (UInt64.ofNat bytes.length) ≠
      .error failure := by
  obtain ⟨touched, htouched, -⟩ := hm.touchedPages_spec halign hfit hlen hpages
  rw [htouched]
  exact nofun

/-- The pages that are made visible after a patch are its own, by their addresses. -/
theorem WellFormed.toNat_of_touchedPages (hm : m.WellFormed) (halign : m.mapping.PageAligned)
    (hfit : offset.toNat + bytes.length ≤ m.capacity.toNat) (hlen : 0 < bytes.length)
    (hpages : m.IsCover offset bytes.length pages) {touched : MemoryRange}
    (htouched : Cache.touchedPages (m.mapping.region.start + offset) (UInt64.ofNat bytes.length) =
      .ok touched) :
    touched.start.toNat = m.mapping.region.start.toNat + pages.start.toNat ∧
      touched.stop.toNat = m.mapping.region.start.toNat + pages.stop.toNat := by
  obtain ⟨touched', hfound, hbounds⟩ := hm.touchedPages_spec halign hfit hlen hpages
  obtain rfl : touched' = touched := Except.ok.inj (hfound.symm.trans htouched)
  exact hbounds

/-! ### Fresh code -/

/-- The addresses of the written bytes hold the address of each of them. -/
theorem WellFormed.mem_range (hm : m.WellFormed) {code : MemoryRange} (hcode : m.range = .ok code)
    (hx : x.toNat < m.len.toNat) : m.mapping.region.start + x ∈ code := by
  obtain ⟨hstart, hstop⟩ := hm.range_spec hcode
  have hlen := hm.len_le
  have hadd := m.toNat_address (Nat.le_trans (Nat.le_of_lt hx) hlen)
  rw [MemoryRange.mem_def, UInt64.le_iff_toNat_le, UInt64.lt_iff_toNat_lt, hadd, hstart, hstop]
  omega

/-- The pages that are made visible after a patch hold the address of each byte in the
pages of the patch. -/
theorem IsCover.mem_touched (hpages : m.IsCover offset bytes.length pages)
    {touched : MemoryRange}
    (hfirst : touched.start.toNat = m.mapping.region.start.toNat + pages.start.toNat)
    (hlast : touched.stop.toNat = m.mapping.region.start.toNat + pages.stop.toNat)
    (hx : pages.start ≤ x ∧ x < pages.stop) : m.mapping.region.start + x ∈ touched := by
  have hsize : pages.stop ≤ m.capacity := hpages.holdsPages.le_size
  rw [UInt64.le_iff_toNat_le, UInt64.lt_iff_toNat_lt] at hx
  rw [UInt64.le_iff_toNat_le] at hsize
  have hadd := m.toNat_address (Nat.le_trans (Nat.le_of_lt hx.2) hsize)
  rw [MemoryRange.mem_def, UInt64.le_iff_toNat_le, UInt64.lt_iff_toNat_lt, hadd]
  omega

theorem IsCover.mem_of_copies (hpages : m.IsCover offset bytes.length pages)
    (hx : Effect.Copies x (.store offset bytes)) : pages.start ≤ x ∧ x < pages.stop := by
  obtain ⟨hfirst, hlast⟩ := hx
  have hstart := hpages.start_eq
  have hstop := hpages.stop_eq
  rw [Page.toNat_size] at hstart hstop
  rw [UInt64.le_iff_toNat_le, UInt64.lt_iff_toNat_lt]
  omega

/-- An operation that ends with published memory ends with fresh code. -/
theorem Step.fresh {op : Operation} {o : Outcome CodeMemory Unit}
    (hstep : Step backend m k op o) (hm : m.WellFormed) (halign : m.mapping.PageAligned)
    (hlt : t.Copies x → x.toNat < m.len.toNat)
    (hold : m.published = true → t.Copies x → t.Fresh m.mapping.region.start x)
    (hp : o.state.published = true) (hx : Trace.Copies (t ++ o.trace) x) :
    Trace.Fresh (t ++ o.trace) m.mapping.region.start x := by
  cases hstep with
  | refused | patchedNothing => simpa using hold hp (by simpa using hx)
  | written hp' | publishDenied hp' =>
    -- the memory was not published and still is not
    have hp : m.published = true := hp
    rw [hp'] at hp
    cases hp
  | lost => cases hp
  | openDenied => exact (hold hp (by simpa using hx)).append (by simp)
  | publishedEmpty hp' hcap =>
    have hlen := hm.len_le
    have hbelow := hlt (by simpa using hx)
    rw [hcap, UInt64.toNat_zero] at hlen
    omega
  | published hp' hpages hk hcode =>
    -- all that was ever copied lies in what is made visible, and nothing comes after it
    have hbelow := hlt (by simpa using hx)
    have hfresh := Trace.fresh_invalidation backend _ (hm.mem_range hcode hbelow)
    refine Trace.Fresh.prepend (Trace.Fresh.append (hfresh.prepend _) ?_) t
    simp [Effect.Reprotects]
  | overflowed hp' hfit hlen hpages hk hclosing htouched =>
    exact absurd htouched (hm.touchedPages_ne_error halign hfit hlen hpages _)
  | @patched _ _ pages touched _ _ hp' hfit hlen hpages hk hclosing htouched =>
    by_cases hin : pages.start ≤ x ∧ x < pages.stop
    · -- all pages of the patch are made visible, by rounding their addresses
      obtain ⟨hfirst, hlast⟩ := hm.toNat_of_touchedPages halign hfit hlen hpages htouched
      have hmem := hpages.mem_touched hfirst hlast hin
      have hfresh := (Trace.fresh_invalidation backend touched hmem).prepend
        [.event (.pagesInvalidated touched)]
      refine Trace.Fresh.prepend (Trace.Fresh.prepend (hfresh.append ?_) _) t
      simp [Effect.Reprotects]
    · -- the patch does not come near the byte
      have hnot : ¬ Effect.Copies x (.store _ _) := fun h => hin (hpages.mem_of_copies h)
      have hcopied : ¬ Trace.Copies _ x := hclosing.not_copies
      have hquiet := hclosing.quiet hin
      refine Trace.Fresh.append (hold hp' ?_) ?_
      · simpa [hcopied, hnot] using hx
      · simp [hin, hnot, hquiet, Effect.Reprotects]

/-- **Published code is fresh**: every byte that was ever copied was made visible after
the last copy to it and after the last change of its protection. -/
theorem Reachable.fresh_of_published (h : Reachable backend m t)
    (halign : m.mapping.PageAligned) (hp : m.published = true) (hx : t.Copies x) :
    t.Fresh m.mapping.region.start x := by
  induction h with
  | reserve h =>
    obtain ⟨-, -, hnot, -⟩ := reserve_spec h
    rw [hnot] at hp
    cases hp
  | perform h op k ih =>
    have hstep := step_perform h.wellFormed backend k op
    rw [Mapping.PageAligned, Mapping.isEmpty, hstep.region_eq] at halign
    rw [hstep.region_eq]
    exact hstep.fresh h.wellFormed halign h.lt_len_of_copies (ih halign) hp hx

/-- A byte of the first page that was patched, left behind by the failure to close the
pages again, and published once more. -/
theorem twoPages_fresh :
    let o := run .apple [.write 8 (.ofList [1, 2]), .publish, .patch 4095 (.ofList [3, 4]), .publish]
      twoPages (answering [none, none, some .outOfMemory, some .outOfMemory])
    let t : Trace :=
      [.call (.map 8192 .readWrite) none, .event (.mapped 0x10000 8192)] ++ o.trace
    o.state.published = true ∧ t.Copies 4095 ∧ t.Fresh 0x10000 4095 :=
  have hreach := (reachable_twoPages .apple).run
    [.write 8 (.ofList [1, 2]), .publish, .patch 4095 (.ofList [3, 4]), .publish]
    (answering [none, none, some .outOfMemory, some .outOfMemory])
  ⟨by decide, by decide,
    hreach.fresh_of_published (Or.inr (by decide)) (by decide) (by decide)⟩

end CodeMemory

end JitSupport
