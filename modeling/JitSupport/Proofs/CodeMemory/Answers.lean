import JitSupport.Proofs.CodeMemory.Protection
import JitSupport.Proofs.CodeMemory.Visibility

/-!
# What operations answer

An operation is first asked whether it comes at the right time, then whether its bytes fit, and
only then is the operating system asked.  The first of the three that turns it down gives the
answer.  Of a patch, which closes its pages in up to two tries, the first try is never heard of
again: it is the second that counts.

Whether bytes fit is decided by a sum that may leave the address space; here it is the sum of two
numbers.  What the operating system has to say is the fate of each call, in the order of the calls.

## Main definitions

* `Kernel.fate` — the fate of the calls to come, by number.
* `Trace.fates` — the fates of the calls that were made, by what they asked for.
* `CodeMemory.WriteAnswer`, `CodeMemory.PatchAnswer`, `CodeMemory.PublishAnswer` — the answers of
  the three operations.

## Main results

* `CodeMemory.Step.patchTried` — the answer of a patch that is tried.
* `CodeMemory.Reachable.answer_exact` — **what operations answer, exactly.**
-/

namespace JitSupport

/-- The fate of the change of protection that comes after `i` others. -/
def Kernel.fate (k : Kernel) (i : Nat) : Verdict := k.protectVerdicts[i]?.join

theorem Kernel.protect_eq_fate (k : Kernel) : k.protect = k.fate 0 := by
  unfold protect next fate
  rw [List.head?_eq_getElem?]

@[simp] theorem Kernel.fate_afterProtect (k : Kernel) (i : Nat) :
    k.afterProtect.fate i = k.fate (i + 1) := by
  simp [fate, afterProtect]

/-- The fates of the calls that asked for a protection, in order. -/
def Trace.fates (t : Trace) (protection : Protection) : List Verdict :=
  t.calls.filterMap fun
    | (.protect _ _ requested, fate) => if requested = protection then some fate else none
    | _ => none

namespace CodeMemory

/-- The answer of a write. -/
structure WriteAnswer (m : CodeMemory) (offset : UInt64) (bytes : ByteString)
    (o : Outcome CodeMemory Unit) : Prop where
  /-- Published memory is not written. -/
  alreadyPublished : m.published = true → o.result = .error (.error .alreadyPublished)
  /-- Else bytes that do not fit are turned down, -/
  outOfBounds_iff : m.published = false →
    (o.result = .error (.error (.outOfBounds offset bytes.length m.capacity)) ↔
      m.capacity.toNat < offset.toNat + bytes.length)
  /-- and all others are written. -/
  ok_iff : m.published = false →
    (o.result = .ok () ↔ offset.toNat + bytes.length ≤ m.capacity.toNat)
  /-- The operating system has no say in it. -/
  calls_eq : o.trace.calls = []

/-- The answer of a patch that has bytes to copy, and a place for them. -/
structure PatchTried (k : Kernel) (o : Outcome CodeMemory Unit) : Prop where
  /-- One call opens the pages. -/
  opening : o.trace.fates .readWrite = [k.fate 0]
  /-- If they are opened, one call closes them, or a second one if the first does not. -/
  closing : o.trace.fates .readExecute =
    if k.fate 0 = none then if k.fate 1 = none then [none] else [k.fate 1, k.fate 2] else []
  /-- The patch succeeds exactly if the pages are opened and one of the tries closes them. -/
  ok_iff : o.result = .ok () ↔
    o.trace.fates .readWrite = [none] ∧ none ∈ o.trace.fates .readExecute
  /-- If the pages are not opened, that is the reason. -/
  notOpened : ∀ reason, o.trace.fates .readWrite = [some reason] →
    o.result = .error (.error (.virtualMemory reason))
  /-- If neither try closes them, the second one gives the reason. -/
  notClosed : ∀ first second, o.trace.fates .readExecute = [some first, some second] →
    o.result = .error (.error (.virtualMemory second))

/-- The answer of a patch. -/
structure PatchAnswer (m : CodeMemory) (k : Kernel) (offset : UInt64) (bytes : ByteString)
    (o : Outcome CodeMemory Unit) : Prop where
  /-- Memory that is not published is not patched. -/
  notPublished : m.published = false → o.result = .error (.error .notPublished)
  /-- Else bytes that do not fit are turned down. -/
  outOfBounds_iff : m.published = true →
    (o.result = .error (.error (.outOfBounds offset bytes.length m.capacity)) ↔
      m.capacity.toNat < offset.toNat + bytes.length)
  /-- A patch without bytes succeeds without a call. -/
  nothing : m.published = true → offset.toNat + bytes.length ≤ m.capacity.toNat →
    bytes.length = 0 → o.result = .ok () ∧ o.trace.calls = []
  /-- All others are left to the operating system. -/
  tried : m.published = true → offset.toNat + bytes.length ≤ m.capacity.toNat →
    0 < bytes.length → PatchTried k o

/-- The answer of publishing memory that is not published. -/
structure PublishTried (backend : Backend) (m : CodeMemory) (k : Kernel)
    (o : Outcome CodeMemory Unit) : Prop where
  /-- Memory without a page takes no call, -/
  nothing : m.capacity = 0 → o.trace.calls = []
  /-- and for all other memory one call closes all pages. -/
  closing : m.capacity ≠ 0 → o.trace.calls = [(.protect 0 m.capacity .readExecute, k.fate 0)]
  /-- Publishing succeeds exactly if there is no page, or the pages are closed. -/
  ok_iff : o.result = .ok () ↔ m.capacity = 0 ∨ k.fate 0 = none
  /-- If they are not, that is the reason. -/
  notClosed : m.capacity ≠ 0 → ∀ reason, k.fate 0 = some reason →
    o.result = .error (.error (.virtualMemory reason))
  /-- Publishing once more is then the same as publishing in the first place. -/
  again : o.result ≠ .ok () → ∀ k', publish backend o.state k' = publish backend m k'

/-- The answer of publishing. -/
structure PublishAnswer (backend : Backend) (m : CodeMemory) (k : Kernel)
    (o : Outcome CodeMemory Unit) : Prop where
  /-- Memory is published once. -/
  alreadyPublished : m.published = true → o.result = .error (.error .alreadyPublished)
  /-- Else it is left to the operating system. -/
  tried : m.published = false → PublishTried backend m k o

variable {backend : Backend} {m : CodeMemory} {t : Trace} {k : Kernel} {offset : UInt64}
  {bytes : ByteString} {op : Operation} {o : Outcome CodeMemory Unit}

/-! ### Operations that are turned down -/

/-- What is not turned down at once is not turned down for its bounds. -/
theorem Step.result_ne_outOfBounds (hstep : Step backend m k op o) (hop : op.refusal? m = none)
    (offset : UInt64) (count : Nat) (capacity : UInt64) :
    o.result ≠ .error (.error (.outOfBounds offset count capacity)) := by
  cases hstep with
  | refused h =>
    rw [hop] at h
    cases h
  | written | publishedEmpty | published | patchedNothing | patched => exact nofun
  | publishDenied | openDenied | lost | overflowed => exact nofun

/-- An operation that comes at the right time is turned down for its bounds exactly if its bytes
do not fit. -/
theorem Step.outOfBounds_iff (hstep : Step backend m k op o) {count : Nat}
    (hop : op.refusal? m = if offset.toNat + count ≤ m.capacity.toNat then none
      else some (.outOfBounds offset count m.capacity)) :
    o.result = .error (.error (.outOfBounds offset count m.capacity)) ↔
      m.capacity.toNat < offset.toNat + count := by
  by_cases hfit : offset.toNat + count ≤ m.capacity.toNat
  · rw [if_pos hfit] at hop
    exact iff_of_false (hstep.result_ne_outOfBounds hop _ _ _) (Nat.not_lt.mpr hfit)
  · rw [if_neg hfit] at hop
    rw [hstep.eq_of_refusal? hop]
    exact iff_of_true rfl (Nat.lt_of_not_le hfit)

/-! ### Writing -/

theorem Step.writeAnswer (hstep : Step backend m k (.write offset bytes) o) :
    m.WriteAnswer offset bytes o where
  alreadyPublished hp := by
    have hop : (Operation.write offset bytes).refusal? m = some .alreadyPublished := if_pos hp
    rw [hstep.eq_of_refusal? hop]
  outOfBounds_iff hp := hstep.outOfBounds_iff (by simp only [Operation.refusal?, hp]; rfl)
  ok_iff hp := by
    cases hstep with
    | refused h =>
      have hlarge : ¬ offset.toNat + bytes.length ≤ m.capacity.toNat := by
        intro hfit
        rw [Operation.refusal?_write_eq_none_iff.mpr ⟨hp, hfit⟩] at h
        cases h
      refine iff_of_false ?_ hlarge
      intro hresult
      cases hresult
    | written _ hfit => exact iff_of_true rfl hfit
  calls_eq := by cases hstep <;> rfl

/-! ### Patching -/

theorem Closing.fates_readWrite {pages : MemoryRange} {k' : Kernel} {closing : Trace}
    (h : Closing pages k k' closing) : closing.fates .readWrite = [] := by
  cases h with
  | atOnce => rfl
  | secondTry => rfl

/-- Pages are closed by the last of one or two tries. -/
theorem Closing.fates_readExecute {pages : MemoryRange} {k' : Kernel} {closing : Trace}
    (h : Closing pages k k' closing) :
    closing.fates .readExecute = (if k.fate 0 = none then [none] else [k.fate 0, k.fate 1]) ∧
      none ∈ closing.fates .readExecute := by
  cases h with
  | atOnce hk =>
    rw [Kernel.protect_eq_fate] at hk
    simp [Trace.fates, hk]
  | secondTry hk hk' =>
    rw [Kernel.protect_eq_fate] at hk hk'
    rw [Kernel.fate_afterProtect] at hk'
    simp [Trace.fates, hk, hk']

/-- A patch that opens its pages and closes them succeeds. -/
theorem patchTried_of_closing {pages : MemoryRange} {k' : Kernel} {closing : Trace}
    (hk : k.protect = none) (hclosing : Closing pages k.afterProtect k' closing)
    (hresult : o.result = .ok ()) (hopen : o.trace.fates .readWrite = [none])
    (hclose : o.trace.fates .readExecute = closing.fates .readExecute) : PatchTried k o := by
  obtain ⟨hfates, hmem⟩ := hclosing.fates_readExecute
  rw [Kernel.protect_eq_fate] at hk
  rw [Kernel.fate_afterProtect, Kernel.fate_afterProtect] at hfates
  constructor
  case opening => rw [hopen, hk]
  case closing => rw [hclose, hfates, if_pos hk]
  case ok_iff => exact iff_of_true hresult ⟨hopen, hclose ▸ hmem⟩
  case notOpened =>
    intro reason h
    rw [hopen] at h
    cases h
  case notClosed =>
    intro first second h
    rw [← hclose, h] at hmem
    simp at hmem

/-- The answer of a patch that is tried. -/
theorem Step.patchTried (hstep : Step backend m k (.patch offset bytes) o) (hm : m.WellFormed)
    (halign : m.mapping.PageAligned) (hop : (Operation.patch offset bytes).refusal? m = none)
    (hlen : 0 < bytes.length) : PatchTried k o := by
  cases hstep with
  | refused h =>
    rw [hop] at h
    cases h
  | patchedNothing _ _ hnone => omega
  | openDenied _ _ _ _ hk =>
    rw [Kernel.protect_eq_fate] at hk
    constructor <;> simp [Trace.fates, hk, Protection.readWrite, Protection.readExecute]
  | lost _ _ _ _ hk hfirst hsecond =>
    simp only [Kernel.protect_eq_fate, Kernel.fate_afterProtect] at hk hfirst hsecond
    constructor <;>
      simp [Trace.fates, hk, hfirst, hsecond, Protection.readWrite, Protection.readExecute]
  | overflowed hp hfit _ hpages _ _ htouched =>
    exact absurd htouched (hm.touchedPages_ne_error halign hfit hlen hpages _)
  | patched _ _ _ _ hk hclosing =>
    refine patchTried_of_closing hk hclosing rfl ?_ ?_
    · simpa [Trace.fates] using hclosing.fates_readWrite
    · simp [Trace.fates, Protection.readWrite, Protection.readExecute]

theorem Step.patchAnswer (hstep : Step backend m k (.patch offset bytes) o) (hm : m.WellFormed)
    (halign : m.mapping.PageAligned) : m.PatchAnswer k offset bytes o where
  notPublished hp := by
    have hop : (Operation.patch offset bytes).refusal? m = some .notPublished := by
      simp [Operation.refusal?, hp]
    rw [hstep.eq_of_refusal? hop]
  outOfBounds_iff hp := hstep.outOfBounds_iff (by simp only [Operation.refusal?, hp]; rfl)
  nothing hp hfit hnone := by
    cases hstep with
    | refused h =>
      rw [Operation.refusal?_patch_eq_none_iff.mpr ⟨hp, hfit⟩] at h
      cases h
    | patchedNothing => exact ⟨rfl, rfl⟩
    | openDenied _ _ hlen | lost _ _ hlen | overflowed _ _ hlen | patched _ _ hlen => omega
  tried hp hfit := hstep.patchTried hm halign (Operation.refusal?_patch_eq_none_iff.mpr ⟨hp, hfit⟩)

/-! ### Publishing -/

/-- The answer of publishing memory that is not published. -/
theorem Step.publishTried (hstep : Step backend m k .publish o) (hp : m.published = false) :
    PublishTried backend m k o := by
  cases hstep with
  | refused h =>
    rw [Operation.refusal?_publish_eq_none_iff.mpr hp] at h
    cases h
  | publishedEmpty _ hcap =>
    constructor
    case nothing => simp
    case closing => exact fun hne => absurd hcap hne
    case ok_iff => exact iff_of_true rfl (Or.inl hcap)
    case notClosed => exact fun hne => absurd hcap hne
    case again => exact fun hresult => absurd rfl hresult
  | publishDenied _ hpages hk =>
    have hne : m.capacity ≠ 0 := not_isEmpty_mapping hpages ∘ isEmpty_mapping_iff.mpr
    rw [Kernel.protect_eq_fate] at hk
    constructor
    case nothing => exact fun hcap => absurd hcap hne
    case closing => simp [hk]
    case ok_iff => exact iff_of_false nofun (by simp [hne, hk])
    case notClosed =>
      intro _ reason hreason
      rw [hk, Option.some.injEq] at hreason
      rw [hreason]
    case again => exact fun _ k' => rfl
  | published _ hpages hk =>
    have hne : m.capacity ≠ 0 := not_isEmpty_mapping hpages ∘ isEmpty_mapping_iff.mpr
    rw [Kernel.protect_eq_fate] at hk
    constructor
    case nothing => exact fun hcap => absurd hcap hne
    case closing => simp [hk]
    case ok_iff => exact iff_of_true rfl (Or.inr hk)
    case notClosed =>
      intro _ reason hreason
      rw [hk] at hreason
      cases hreason
    case again => exact fun hresult => absurd rfl hresult

theorem Step.publishAnswer (hstep : Step backend m k .publish o) :
    PublishAnswer backend m k o where
  alreadyPublished hp := by
    have hop : Operation.publish.refusal? m = some .alreadyPublished := if_pos hp
    rw [hstep.eq_of_refusal? hop]
  tried := hstep.publishTried

/-- **What operations answer, exactly.**  Whatever memory has come to, an operation on it is turned
down because it comes at the wrong time, else because its bytes do not fit, and else for the reason
of the operating system; of a patch that closes its pages in vain, for the reason of the second
try. -/
theorem Reachable.answer_exact (h : Reachable backend m t) (halign : m.mapping.PageAligned)
    (offset : UInt64) (bytes : ByteString) (k : Kernel) :
    m.WriteAnswer offset bytes (write offset bytes m k) ∧
      m.PatchAnswer k offset bytes (patch backend offset bytes m k) ∧
      m.PublishAnswer backend k (publish backend m k) :=
  ⟨(step_write backend m k offset bytes).writeAnswer,
    (step_patch h.wellFormed backend k offset bytes).patchAnswer h.wellFormed halign,
    (step_publish h.wellFormed backend k).publishAnswer⟩

/-- Two published pages: a write comes too late, a patch at the end of the address space does not
fit, and one across the border of the pages closes them neither at the first try nor at the
second. -/
theorem twoPages_answer_exact :
    let m := (run .coherent [.publish] twoPages (answering [])).state
    let k := answering [none, some .tryAgain, some .outOfMemory]
    m.mapping.PageAligned ∧
      (write 0 (.ofList [1]) m k).result = .error (.error .alreadyPublished) ∧
      (patch .coherent 0xFFFFFFFFFFFFFFFF (.ofList [3, 4]) m k).result =
        .error (.error (.outOfBounds 0xFFFFFFFFFFFFFFFF 2 8192)) ∧
      (patch .coherent 4095 (.ofList [3, 4]) m k).result =
        .error (.error (.virtualMemory .outOfMemory)) ∧
      (publish .coherent m k).result = .error (.error .alreadyPublished) := by
  intro m k
  have hreach := (reachable_twoPages .coherent).run [.publish] (answering [])
  have halign : m.mapping.PageAligned := Or.inr (by decide)
  obtain ⟨hwrite, -, hpublish⟩ := hreach.answer_exact halign 0 (.ofList [1]) k
  obtain ⟨-, houtside, -⟩ := hreach.answer_exact halign 0xFFFFFFFFFFFFFFFF (.ofList [3, 4]) k
  obtain ⟨-, hborder, -⟩ := hreach.answer_exact halign 4095 (.ofList [3, 4]) k
  have htried := hborder.tried (by decide) (by decide) (by decide)
  have hclosing := htried.closing
  exact ⟨halign, hwrite.alreadyPublished (by decide),
    (houtside.outOfBounds_iff (by decide)).mpr (by decide),
    htried.notClosed .tryAgain .outOfMemory hclosing, hpublish.alreadyPublished (by decide)⟩

end CodeMemory

end JitSupport
