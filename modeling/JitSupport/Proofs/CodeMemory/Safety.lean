import JitSupport.Proofs.CodeMemory.Visibility

/-!
# Nothing goes out of bounds

Memory for code is asked for bytes of any length at any offset.  What does not fit is turned
down before a single word is added to another.  What fits does no harm: its end is the sum of
the numbers, its pages are pages of the memory, and the addresses of these pages do not reach
behind the address space.  So no precondition is ever broken, and the errors that a range in
disorder would cause never come up.

## Main definitions

* `Error.IsDefensive` — the errors that only a range in disorder can cause.
* `Trace.Within` — a trace in which nothing leaves a mapping.
* `CodeMemory.Sound` — memory whose parts are all there, and whose addresses do not wrap.

## Main results

* `CodeMemory.result_reserve_of_error` — the two ways in which a reservation fails.
* `CodeMemory.WellFormed.sound` — well-formed memory that starts with a page is sound.
* `CodeMemory.Step.within` — an operation does not leave the memory.
* `CodeMemory.Step.not_isDefensive` — an operation fails only for reasons that lie outside it.
* `CodeMemory.run_sound` — **no run goes out of bounds.**
-/

namespace JitSupport

/-- The errors of ranges that are in disorder or leave the address space. -/
def Error.IsDefensive : Error → Prop
  | invertedRange .. | addressOverflow .. => True
  | _ => False

/-- The entry does not leave a mapping: changes of protection and copies are for parts of it
in whole, and what is made visible are addresses of it.  Nothing is mapped or given back. -/
def Effect.Within (m : Mapping) : Effect → Prop
  | call (.protect offset length _) _ =>
    offset % Page.size = 0 ∧ 0 < length.toNat ∧ offset.toNat + length.toNat ≤ m.size.toNat
  | call .. => False
  | store offset bytes => offset.toNat + bytes.length ≤ m.size.toNat
  | flush start stop _ => m.region.start ≤ start ∧ start ≤ stop ∧ stop ≤ m.region.stop
  | event (.invalidated range _) =>
    m.region.start ≤ range.start ∧ range.stop ≤ m.region.stop
  | event _ => True

namespace Trace

/-- Nothing in the trace leaves a mapping. -/
def Within (t : Trace) (m : Mapping) : Prop := ∀ e ∈ t, e.Within m

variable {t u : Trace} {m : Mapping}

@[simp] theorem within_nil : Within [] m := by
  simp [Within]

@[simp] theorem within_cons (e : Effect) : Within (e :: t) m ↔ e.Within m ∧ t.Within m := by
  simp [Within]

@[simp] theorem within_append : Within (t ++ u) m ↔ t.Within m ∧ u.Within m :=
  List.forall_mem_append

/-! ### Parts of a trace -/

variable {first last : UInt64}

/-- A part that holds pages has as many bytes as its ends are apart. -/
theorem within_protect (h : m.HoldsPages first last) (protection : Protection)
    (fate : Verdict) :
    (Effect.call (.protect first (last - first) protection) fate).Within m := by
  have hlt := UInt64.lt_iff_toNat_lt.mp h.lt
  have hle := UInt64.le_iff_toNat_le.mp h.le_size
  have hlen := UInt64.toNat_sub_of_le _ _ (UInt64.le_of_lt h.lt)
  refine ⟨h.aligned, ?_, ?_⟩
  · omega
  · omega

theorem within_granted (h : m.HoldsPages first last) (protection : Protection) :
    (granted first last protection).Within m :=
  (within_cons _).mpr ⟨within_protect h protection none, by simp [Effect.Within]⟩

theorem within_denied (h : m.HoldsPages first last) (protection : Protection)
    (reason : Errno) : (denied first last protection reason).Within m :=
  (within_cons _).mpr ⟨within_protect h protection (some reason), within_nil⟩

theorem within_invalidation (backend : Backend) (range : MemoryRange)
    (hstart : m.region.start ≤ range.start) (hstop : range.stop ≤ m.region.stop) :
    (invalidation backend range).Within m := by
  unfold invalidation
  split
  · simp [Effect.Within, hstart, hstop]
  · simp [Effect.Within, hstart, hstop, range.start_le_stop]

end Trace

namespace CodeMemory

variable {backend : Backend} {m : CodeMemory} {k : Kernel} {offset : UInt64}
  {bytes : ByteString} {pages : MemoryRange} {op : Operation} {o : Outcome CodeMemory Unit}

/-! ### Beginning -/

/-- A reservation fails only because the size leaves the word when it is rounded up, or
because the operating system maps nothing that can be held. -/
theorem result_reserve_of_error {capacity : UInt64} {failure : Failure}
    (h : (reserve capacity () k).result = .error failure) :
    failure = .error (.addressOverflow 0 capacity) ∨
      ∃ reason, failure = .error (.virtualMemory reason) := by
  have hreserve := reservation_reserve capacity () k
  generalize reserve capacity () k = o at h hreserve
  cases hreserve with
  | tooLarge =>
    cases h
    exact Or.inl rfl
  | refused | null =>
    cases h
    exact Or.inr ⟨_, rfl⟩
  | nothing | mapped => cases h

/-! ### Sound memory -/

/-- Memory whose parts are all there, and whose addresses do not wrap round. -/
structure Sound (m : CodeMemory) : Prop where
  /-- The memory is a whole number of pages. -/
  wholePages : m.capacity.toNat % Page.size.toNat = 0
  /-- It was not written behind its end. -/
  len_le : m.len ≤ m.capacity
  /-- The written bytes can be read. -/
  text : ∃ text, m.text = .ok text ∧ text.length = m.len.toNat
  /-- Their addresses start where the memory starts, and lie in it. -/
  range : ∃ code, m.range = .ok code ∧ code.start = m.mapping.region.start ∧
    code.len = m.len ∧ code.stop ≤ m.mapping.region.stop
  /-- An offset up to the end has the address that is so far from the start. -/
  address : ∀ x ≤ m.capacity,
    (m.mapping.region.start + x).toNat = m.mapping.region.start.toNat + x.toNat
  /-- Bytes that fit end where the numbers say, and there are as many as the numbers say. -/
  bound : ∀ offset count stop, m.bound offset count = .ok stop →
    stop.toNat = offset.toNat + count ∧ stop ≤ m.capacity ∧ (UInt64.ofNat count).toNat = count
  /-- The pages of bytes that fit are found, by offset and by address alike. -/
  pages : ∀ offset (bytes : ByteString), 0 < bytes.length →
    offset.toNat + bytes.length ≤ m.capacity.toNat →
      ∃ pages touched, pagesBetween offset (offset + UInt64.ofNat bytes.length) = .ok pages ∧
        m.mapping.HoldsPages pages.start pages.stop ∧
        Cache.touchedPages (m.mapping.region.start + offset) (UInt64.ofNat bytes.length) =
          .ok touched ∧
        touched.start.toNat = m.mapping.region.start.toNat + pages.start.toNat ∧
        touched.stop.toNat = m.mapping.region.start.toNat + pages.stop.toNat

/-- The region of a memory ends where its capacity says. -/
theorem toNat_stop_region (m : CodeMemory) :
    m.mapping.region.stop.toNat = m.mapping.region.start.toNat + m.capacity.toNat := by
  have hlen : m.capacity.toNat = _ := m.mapping.region.toNat_len
  have hle := UInt64.le_iff_toNat_le.mp m.mapping.region.start_le_stop
  omega

/-- The addresses of the written bytes lie in the memory. -/
theorem WellFormed.range_within (hm : m.WellFormed) {code : MemoryRange}
    (hcode : m.range = .ok code) :
    code.start = m.mapping.region.start ∧ code.len = m.len ∧
      code.stop ≤ m.mapping.region.stop := by
  obtain ⟨hstart, hstop⟩ := hm.range_spec hcode
  have hlen := hm.len_le
  have hregion := m.toNat_stop_region
  refine ⟨hstart, ?_, ?_⟩
  · rw [← UInt64.toNat_inj, MemoryRange.toNat_len, hstart, hstop]
    omega
  · rw [UInt64.le_iff_toNat_le]
    omega

/-- Memory that keeps what every memory keeps is sound if it starts with a page. -/
theorem WellFormed.sound (hm : m.WellFormed) (halign : m.mapping.PageAligned) : m.Sound where
  wholePages := hm.wholePages
  len_le := UInt64.le_iff_toNat_le.mpr hm.len_le
  text := ⟨_, hm.text_eq, Cells.length_read ..⟩
  range := by
    obtain ⟨code, hcode, -⟩ := hm.range_eq
    exact ⟨code, hcode, hm.range_within hcode⟩
  address := fun x hx => m.toNat_address (UInt64.le_iff_toNat_le.mp hx)
  bound := by
    intro offset count stop hstop
    obtain ⟨hsum, hle⟩ := bound_eq_ok_iff.mp hstop
    have hlt := stop.toNat_lt
    refine ⟨hsum, hle, ?_⟩
    rw [UInt64.toNat_ofNat', Nat.mod_eq_of_lt (by omega)]
  pages := by
    intro offset bytes hlen hfit
    obtain ⟨pages, hfound, hpages⟩ := hm.pagesBetween_spec hfit hlen
    obtain ⟨touched, htouched, hfirst, hlast⟩ := hm.touchedPages_spec halign hfit hlen hpages
    exact ⟨pages, touched, hfound, hpages.holdsPages, htouched, hfirst, hlast⟩

/-! ### One operation -/

/-- Memory that has not moved still starts with a page. -/
theorem pageAligned_of_region_eq {mapping mapping' : Mapping}
    (hregion : mapping'.region = mapping.region) (halign : mapping.PageAligned) :
    mapping'.PageAligned := by
  rw [Mapping.PageAligned, Mapping.isEmpty, hregion]
  exact halign

/-- What is turned down at once is not turned down for a range in disorder. -/
theorem Operation.not_isDefensive_of_refusal? {e : Error} (h : op.refusal? m = some e) :
    ¬ e.IsDefensive := by
  cases op with
  | write offset bytes | patch offset bytes =>
    rw [refusal?] at h
    split at h
    · cases h
      exact id
    · split at h
      · cases h
      · cases h
        exact id
  | publish =>
    rw [refusal?] at h
    split at h
    · cases h
      exact id
    · cases h

/-- An operation that fails was turned down, by the memory or by the operating system; it
does not come upon a range in disorder. -/
theorem Step.not_isDefensive (hstep : Step backend m k op o) (hm : m.WellFormed)
    (halign : m.mapping.PageAligned) {failure : Failure} (hfail : o.result = .error failure) :
    ∃ e, failure = .error e ∧ ¬ e.IsDefensive := by
  cases hstep with
  | refused h =>
    cases hfail
    exact ⟨_, rfl, Operation.not_isDefensive_of_refusal? h⟩
  | publishDenied | openDenied | lost =>
    cases hfail
    exact ⟨_, rfl, id⟩
  | overflowed hp hfit hlen hpages hk hclosing htouched =>
    exact absurd htouched (hm.touchedPages_ne_error halign hfit hlen hpages _)
  | written | publishedEmpty | published | patchedNothing | patched => cases hfail

theorem Closing.within {k' : Kernel} {closing : Trace} (h : Closing pages k k' closing)
    {mapping : Mapping} (hpages : mapping.HoldsPages pages.start pages.stop) :
    closing.Within mapping := by
  cases h with
  | atOnce => exact Trace.within_granted hpages _
  | secondTry =>
    exact Trace.within_append.mpr ⟨Trace.within_denied hpages _ _, Trace.within_granted hpages _⟩

@[simp] theorem within_notice (m : CodeMemory) (mapping : Mapping) :
    m.notice.Within mapping := by
  unfold notice
  split <;> simp [Effect.Within]

/-- An operation does not leave the memory. -/
theorem Step.within (hstep : Step backend m k op o) (hm : m.WellFormed)
    (halign : m.mapping.PageAligned) : o.trace.Within m.mapping := by
  cases hstep with
  | refused | patchedNothing => exact Trace.within_nil
  | written hp hfit => exact (Trace.within_cons _).mpr ⟨hfit, Trace.within_nil⟩
  | publishedEmpty => simp [Effect.Within]
  | publishDenied hp hpages => simp [Trace.within_denied hpages]
  | published hp hpages hk hcode =>
    -- the written bytes start with the memory, and do not reach behind it
    obtain ⟨hstart, -, hstop⟩ := hm.range_within hcode
    have hvisible := Trace.within_invalidation backend _ (hstart ▸ UInt64.le_refl _) hstop
    simp [Trace.within_granted hpages, hvisible, Effect.Within]
  | openDenied hp hfit hlen hpages => exact Trace.within_denied hpages.holdsPages _ _
  | lost hp hfit hlen hpages =>
    have hcopy : _ ≤ m.mapping.size.toNat := hfit
    simp [Trace.within_granted hpages.holdsPages, Trace.within_denied hpages.holdsPages, hcopy,
      Effect.Within]
  | overflowed hp hfit hlen hpages hk hclosing htouched =>
    exact absurd htouched (hm.touchedPages_ne_error halign hfit hlen hpages _)
  | @patched offset bytes pages touched _ _ hp hfit hlen hpages hk hclosing htouched =>
    have hcopy : _ ≤ m.mapping.size.toNat := hfit
    -- the pages that are made visible are those of the patch, by their addresses
    obtain ⟨hfirst, hlast⟩ := hm.toNat_of_touchedPages halign hfit hlen hpages htouched
    have hregion := m.toNat_stop_region
    have hpagesLe : pages.stop.toNat ≤ m.capacity.toNat :=
      UInt64.le_iff_toNat_le.mp hpages.holdsPages.le_size
    have hvisible : (Trace.invalidation backend touched).Within m.mapping :=
      Trace.within_invalidation backend touched (UInt64.le_iff_toNat_le.mpr (by omega))
        (UInt64.le_iff_toNat_le.mpr (by omega))
    simp [Trace.within_granted hpages.holdsPages, hclosing.within hpages.holdsPages, hcopy,
      hvisible, Effect.Within]

/-! ### Runs -/

/-- No run ends early. -/
theorem result_run (hm : m.WellFormed) (backend : Backend) (ops : List Operation) (k : Kernel) :
    (run backend ops m k).result = .ok () := by
  induction ops generalizing m k with
  | nil => rfl
  | cons op ops ih =>
    have hstep := step_perform hm backend k op
    rw [run_cons hm]
    exact ih (hstep.wellFormed hm) (op.perform backend m k).kernel

/-- A run leaves the memory where it is. -/
theorem region_run (hm : m.WellFormed) (backend : Backend) (ops : List Operation) (k : Kernel) :
    (run backend ops m k).state.mapping.region = m.mapping.region := by
  induction ops generalizing m k with
  | nil => rfl
  | cons op ops ih =>
    have hstep := step_perform hm backend k op
    rw [run_cons hm, ← hstep.region_eq]
    exact ih (hstep.wellFormed hm) (op.perform backend m k).kernel

/-- **No run goes out of bounds.**  A reservation of any size fails only with an answer, and
if it gives memory that starts with a page, then whatever is done with it, and whatever the
operating system turns down, the memory stays sound.  An operation that comes next, if it
fails, was turned down by the memory or by the operating system, never by a precondition or
by a range in disorder, and nothing that it does leaves the memory. -/
theorem run_sound (backend : Backend) (capacity : UInt64) (k₀ : Kernel) :
    (∀ failure, (reserve capacity () k₀).result = .error failure →
      failure = .error (.addressOverflow 0 capacity) ∨
        ∃ reason, failure = .error (.virtualMemory reason)) ∧
    ∀ m, (reserve capacity () k₀).result = .ok m → m.mapping.PageAligned →
      ∀ ops k, (run backend ops m k).result = .ok () ∧ (run backend ops m k).state.Sound ∧
        ∀ op k',
          (∀ failure,
            (Operation.perform backend op (run backend ops m k).state k').result =
              .error failure → ∃ e, failure = .error e ∧ ¬ e.IsDefensive) ∧
          (op.perform backend (run backend ops m k).state k').trace.Within
            (run backend ops m k).state.mapping := by
  refine ⟨fun failure h => result_reserve_of_error h, ?_⟩
  intro m h halign ops k
  have hreach : Reachable backend m (reserve capacity () k₀).trace := .reserve h
  have hwell := (hreach.run ops k).wellFormed
  -- the memory never moves, so that it starts with a page throughout
  have hstays : (run backend ops m k).state.mapping.PageAligned :=
    pageAligned_of_region_eq (region_run hreach.wellFormed backend ops k) halign
  refine ⟨result_run hreach.wellFormed backend ops k, hwell.sound hstays, fun op k' => ?_⟩
  have hstep := step_perform hwell backend k' op
  exact ⟨fun failure hfail => hstep.not_isDefensive hwell hstays hfail, hstep.within hwell hstays⟩

/-- An operating system with room for the last page that can be mapped at all. -/
def roomForLastPage : Kernel := ⟨⟨0xFFFFFFFFFFFFE000, 0xFFFFFFFFFFFFF000, by decide⟩, [], [], []⟩

/-- That page, just reserved. -/
def lastPage : CodeMemory := ⟨⟨roomForLastPage.free, .zero⟩, 0, false⟩

/-- The last page of all, published and patched up to its last byte. -/
theorem lastPage_sound :
    let ops : List Operation := [.write 0 (.ofList [1]), .publish, .patch 4095 (.ofList [2])]
    let o := run .clearCache ops lastPage roomForLastPage
    (reserve 1 () roomForLastPage).result = .ok lastPage ∧ lastPage.mapping.PageAligned ∧
      o.state.len = 4096 ∧ o.state.Sound := by
  intro ops o
  have hreserve : (reserve 1 () roomForLastPage).result = .ok lastPage := rfl
  have halign : lastPage.mapping.PageAligned := Or.inr (by decide)
  obtain ⟨-, hsound, -⟩ :=
    (run_sound .clearCache 1 roomForLastPage).2 lastPage hreserve halign ops roomForLastPage
  exact ⟨hreserve, halign, by decide, hsound⟩

end CodeMemory

end JitSupport
