import JitSupport.Proofs.CodeMemory.Protection
import JitSupport.Proofs.CodeMemory.Safety

/-!
# What a failure leaves behind

An operation that fails leaves no trace in the memory: not a byte, not the end of the written
code, not the protection of a page.  The one exception is a patch whose pages were opened and
could not be closed again, at the second try either.  Its bytes are in the memory by then, and
stay there; the memory is no longer published, and exactly the pages that the bytes touch can
be written.

Which of the two it is depends on the answers of the operating system alone, for an operation
that is not turned down at once.

## Main definitions

* `CodeMemory.Operation.LosesPages` — a patch that opens its pages and cannot close them.
* `CodeMemory.LeftOpen` — what such a patch leaves behind.

## Main results

* `CodeMemory.Step.kept_of_failed` — any other operation that fails keeps everything.
* `CodeMemory.Step.of_losesPages` — the outcome of a patch that loses its pages.
* `CodeMemory.Reachable.failure_atomic` — **a failure changes everything that it should, and
  nothing else.**
-/

namespace JitSupport

namespace CodeMemory

variable {backend : Backend} {m : CodeMemory} {t : Trace} {k : Kernel} {offset : UInt64}
  {bytes : ByteString} {pages : MemoryRange} {op : Operation} {o : Outcome CodeMemory Unit}

/-- A patch that is not turned down at once, has bytes to copy, opens its pages, and is turned
down both times when it closes them. -/
def Operation.LosesPages (m : CodeMemory) (k : Kernel) : Operation → Prop
  | patch offset bytes =>
    (patch offset bytes).refusal? m = none ∧ 0 < bytes.length ∧ k.protect = none ∧
      k.afterProtect.protect ≠ none ∧ k.afterProtect.afterProtect.protect ≠ none
  | write .. | publish => False

/-- What a patch leaves behind that could not close its pages. -/
structure LeftOpen (m : CodeMemory) (t : Trace) (offset : UInt64) (bytes : ByteString)
    (o : Outcome CodeMemory Unit) : Prop where
  /-- The operating system opened the pages, and turned both tries to close them down. -/
  calls_eq : ∃ pages first second, m.IsCover offset bytes.length pages ∧ o.trace.calls =
    [(.protect pages.start (pages.stop - pages.start) .readWrite, none),
      (.protect pages.start (pages.stop - pages.start) .readExecute, some first),
      (.protect pages.start (pages.stop - pages.start) .readExecute, some second)]
  /-- The memory is where it was, and as large. -/
  region_eq : o.state.mapping.region = m.mapping.region
  /-- It is no longer published. -/
  published_eq : o.state.published = false
  /-- The written code reaches at least to the end of the bytes. -/
  len_eq : o.state.len.toNat = max m.len.toNat (offset.toNat + bytes.length)
  /-- The bytes are in the memory, and all others are what they were. -/
  get_eq : ∀ i, o.state.mapping.cells.get i =
    if offset.toNat ≤ i ∧ i < offset.toNat + bytes.length then
      bytes.toList.getD (i - offset.toNat) 0
    else m.mapping.cells.get i
  /-- The pages that the bytes touch were opened, and all others are as they were. -/
  protection?_eq : ∀ page, (t ++ o.trace).protection? page =
    if Page.Touches offset (UInt64.ofNat bytes.length) page then some .readWrite
    else t.protection? page
  /-- No other page can be written. -/
  readWrite_iff : ∀ page, m.HasPage page →
    ((t ++ o.trace).protection? page = some .readWrite ↔
      Page.Touches offset (UInt64.ofNat bytes.length) page)

/-! ### Failures that change nothing -/

/-- An operation that fails without losing pages keeps the memory, and gives no page another
protection. -/
theorem Step.kept_of_failed (hstep : Step backend m k op o) (hm : m.WellFormed)
    (halign : m.mapping.PageAligned) {failure : Failure} (hfail : o.result = .error failure)
    (hkeeps : ¬ op.LosesPages m k) :
    o.state = m ∧ ∀ page, o.trace.protection? page = none := by
  cases hstep with
  | refused => exact ⟨rfl, fun page => rfl⟩
  | publishDenied => exact ⟨rfl, fun page => by simp [Trace.protection?_append]⟩
  | openDenied => exact ⟨rfl, fun page => by simp⟩
  | lost hp hfit hlen hpages hk hfirst hsecond =>
    refine absurd ⟨Operation.refusal?_patch_eq_none_iff.mpr ⟨hp, hfit⟩, hlen, hk, ?_, ?_⟩ hkeeps
    · simp [hfirst]
    · simp [hsecond]
  | overflowed hp hfit hlen hpages hk hclosing htouched =>
    exact absurd htouched (hm.touchedPages_ne_error halign hfit hlen hpages _)
  | written | publishedEmpty | published | patchedNothing | patched => cases hfail

/-! ### Pages that are lost -/

/-- The pages of some bytes are the pages that the bytes touch. -/
theorem IsCover.touches_iff_touches (hpages : m.IsCover offset bytes.length pages)
    (hfit : offset.toNat + bytes.length ≤ m.capacity.toNat) (page : Nat) :
    Page.Touches pages.start (pages.stop - pages.start) page ↔
      Page.Touches offset (UInt64.ofNat bytes.length) page := by
  have hstart := hpages.start_eq
  have hstop := hpages.stop_eq
  rw [hpages.touches_iff, Page.Touches, toNat_ofNat_length hfit]
  rw [Page.toNat_size] at *
  omega

/-- Pages that are closed were closed at the first try or at the second. -/
theorem Closing.granted {k' : Kernel} {closing : Trace} (h : Closing pages k k' closing) :
    k.protect = none ∨ k.afterProtect.protect = none := by
  cases h with
  | atOnce h => exact Or.inl h
  | secondTry _ h => exact Or.inr h

/-- The outcome of a patch that loses its pages. -/
theorem Step.of_losesPages (hstep : Step backend m k (.patch offset bytes) o)
    (hloses : (Operation.patch offset bytes).LosesPages m k) :
    ∃ pages first second, m.IsCover offset bytes.length pages ∧
      k.afterProtect.afterProtect.protect = some second ∧
      o.result = .error (.error (.virtualMemory second)) ∧
      o.state = { m.copied offset bytes with published := false } ∧
      o.kernel = k.afterProtect.afterProtect.afterProtect ∧
      o.trace.calls =
        [(.protect pages.start (pages.stop - pages.start) .readWrite, none),
          (.protect pages.start (pages.stop - pages.start) .readExecute, some first),
          (.protect pages.start (pages.stop - pages.start) .readExecute, some second)] ∧
      ∀ page, o.trace.protection? page =
        if Page.Touches pages.start (pages.stop - pages.start) page then some .readWrite
        else none := by
  obtain ⟨haccepted, hlen, hopen, hfirst, hsecond⟩ := hloses
  cases hstep with
  | refused h =>
    rw [haccepted] at h
    cases h
  | patchedNothing hp hfit hnone => omega
  | openDenied hp hfit _ hpages hk =>
    rw [hopen] at hk
    cases hk
  | @lost _ _ pages first second hp hfit _ hpages hk hk' hk'' =>
    refine ⟨pages, first, second, hpages, hk'', rfl, rfl, rfl, by simp, fun page => ?_⟩
    simp only [Trace.protection?_append]
    split <;> simp [*, Effect.protection?]
  | overflowed _ _ _ _ _ hclosing | patched _ _ _ _ _ hclosing =>
    -- one of the two tries would have had to succeed
    rcases hclosing.granted with hgranted | hgranted
    · exact absurd hgranted hfirst
    · exact absurd hgranted hsecond

/-- A patch of reachable memory that loses its pages leaves them open. -/
theorem Reachable.leftOpen (h : Reachable backend m t)
    (hloses : (Operation.patch offset bytes).LosesPages m k) :
    m.LeftOpen t offset bytes (patch backend offset bytes m k) := by
  obtain ⟨hp, hfit⟩ := Operation.refusal?_patch_eq_none_iff.mp hloses.1
  obtain ⟨pages, first, second, hpages, -, -, hstate, -, hcalls, hrights⟩ :=
    (step_patch h.wellFormed backend k offset bytes).of_losesPages hloses
  have hprotection : ∀ page, (t ++ (patch backend offset bytes m k).trace).protection? page =
      if Page.Touches offset (UInt64.ofNat bytes.length) page then some .readWrite
      else t.protection? page := by
    intro page
    rw [Trace.protection?_append, hrights]
    simp only [hpages.touches_iff_touches hfit]
    split <;> rfl
  refine ⟨⟨pages, first, second, hpages, hcalls⟩, ?_, ?_, ?_, ?_, hprotection, ?_⟩
  · rw [hstate]
    rfl
  · rw [hstate]
  · rw [hstate]
    exact toNat_len_copied hfit
  · intro i
    rw [hstate]
    exact Cells.get_write m.mapping.cells offset.toNat bytes i
  · intro page hpage
    -- the memory was published, so that no page could be written before
    rw [hprotection, h.protection?_eq page hpage, rights_of_published hp]
    split
    next htouches => exact iff_of_true rfl htouches
    next htouches => exact iff_of_false (by decide) htouches

/-- **A failure changes everything that it should, and nothing else.**  An operation that fails
on reachable memory leaves the memory and the protection of every page as they were, unless
it is a patch that opened its pages and could not close them.  Then the bytes are in the
memory, the written code reaches to their end, the memory is no longer published, and exactly
the pages that the bytes touch can be written. -/
theorem Reachable.failure_atomic (h : Reachable backend m t) (halign : m.mapping.PageAligned)
    (op : Operation) (k : Kernel) {failure : Failure}
    (hfail : (op.perform backend m k).result = .error failure) :
    (¬ op.LosesPages m k → (op.perform backend m k).state = m ∧
      ∀ page, (t ++ (op.perform backend m k).trace).protection? page = t.protection? page) ∧
    ∀ offset bytes, op = .patch offset bytes → op.LosesPages m k →
      m.LeftOpen t offset bytes (op.perform backend m k) := by
  constructor
  · intro hkeeps
    have hstep := step_perform h.wellFormed backend k op
    obtain ⟨hstate, hrights⟩ := hstep.kept_of_failed h.wellFormed halign hfail hkeeps
    refine ⟨hstate, fun page => ?_⟩
    rw [Trace.protection?_append, hrights, Option.none_or]
  · rintro offset bytes rfl hloses
    exact h.leftOpen hloses

/-- A patch across the border of two pages that are closed again neither at the first try nor
at the second. -/
theorem twoPages_leftOpen :
    let o := run .coherent [.write 8 (.ofList [1, 2]), .publish] twoPages (answering [])
    let t : Trace :=
      [.call (.map 8192 .readWrite) none, .event (.mapped 0x10000 8192)] ++ o.trace
    let k := answering [none, some .tryAgain, some .outOfMemory]
    let op := Operation.patch 4095 (.ofList [3, 4])
    op.LosesPages o.state k ∧
      (op.perform .coherent o.state k).result = .error (.error (.virtualMemory .outOfMemory)) ∧
      o.state.LeftOpen t 4095 (.ofList [3, 4]) (op.perform .coherent o.state k) := by
  intro o t k op
  have hreach : Reachable .coherent o.state t :=
    (reachable_twoPages .coherent).run [.write 8 (.ofList [1, 2]), .publish] (answering [])
  have hloses : op.LosesPages o.state k :=
    ⟨by decide, by decide, by decide, by decide, by decide⟩
  -- the second try to close the pages gives the reason
  obtain ⟨-, first, second, -, hsecond, hfail, -⟩ :=
    (step_perform hreach.wellFormed .coherent k op).of_losesPages hloses
  obtain rfl : second = .outOfMemory := Option.some.inj hsecond.symm
  obtain ⟨-, hleft⟩ := hreach.failure_atomic (Or.inr (by decide)) op k hfail
  exact ⟨hloses, hfail, hleft 4095 (.ofList [3, 4]) rfl hloses⟩

end CodeMemory

end JitSupport
