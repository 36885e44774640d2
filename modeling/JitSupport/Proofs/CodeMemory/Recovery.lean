import JitSupport.Proofs.CodeMemory.Edits
import JitSupport.Proofs.CodeMemory.Failure

/-!
# Recovery of lost memory

A patch that could not close its pages leaves memory that is no longer published, in which the
pages of the patch can be written and no others.  Publishing is how such memory is recovered.  It
closes all pages, not only those that were lost, and so it may be tried until it succeeds.  Until
then no attempt changes anything, be it to publish or to patch.

What comes out is the memory as it would have been if the operating system had closed the pages
when the patch first asked for it.

## Main definitions

* `CodeMemory.answers` — what the operations of a run answer.
* `CodeMemory.Retry` — an attempt that does not recover the memory.

## Main results

* `CodeMemory.Step.of_retry` — an attempt changes nothing.
* `CodeMemory.run_retries` — nor do any number of them.
* `CodeMemory.Reachable.recovered_of_losesPages` — **publishing recovers a lost patch.**
-/

namespace JitSupport

namespace CodeMemory

variable {backend : Backend} {m : CodeMemory} {t : Trace} {k : Kernel} {offset : UInt64}
  {bytes : ByteString} {o : Outcome CodeMemory Unit}

/-- What the operations of a run answer, in order. -/
def answers (backend : Backend) :
    List Operation → CodeMemory → Kernel → List (Except Failure Unit)
  | [], _, _ => []
  | op :: ops, m, k =>
    (op.perform backend m k).result ::
      answers backend ops (op.perform backend m k).state (op.perform backend m k).kernel

theorem answers_append (hm : m.WellFormed) (backend : Backend) (ops ops' : List Operation)
    (k : Kernel) :
    answers backend (ops ++ ops') m k =
      answers backend ops m k ++
        answers backend ops' (run backend ops m k).state (run backend ops m k).kernel := by
  induction ops generalizing m k with
  | nil => rfl
  | cons op ops ih =>
    have hstep := step_perform hm backend k op
    rw [List.cons_append, answers, answers, run_cons hm, ih (hstep.wellFormed hm),
      List.cons_append]

/-! ### Attempts -/

/-- An attempt that does not recover lost memory. -/
inductive Retry
  /-- To publish, which the operating system turns down. -/
  | publish (reason : Errno)
  /-- To patch, whatever and wherever. -/
  | patch (offset : UInt64) (bytes : ByteString)

namespace Retry

/-- The operation that is attempted. -/
def operation : Retry → Operation
  | publish _ => .publish
  | patch offset bytes => .patch offset bytes

/-- The verdicts that it meets: a patch of unpublished memory makes no call. -/
def verdicts : Retry → List Verdict
  | publish reason => [some reason]
  | patch .. => []

/-- The reason for which it is turned down. -/
def answer : Retry → Error
  | publish reason => .virtualMemory reason
  | patch .. => .notPublished

end Retry

/-- An attempt is turned down and changes nothing. -/
theorem Step.of_retry {r : Retry} (hstep : Step backend m k r.operation o)
    (hp : m.published = false) (hcap : m.capacity ≠ 0) {rest : List Verdict}
    (hk : k.protectVerdicts = r.verdicts ++ rest) :
    o.result = .error (.error r.answer) ∧ o.state = m ∧ o.kernel.protectVerdicts = rest := by
  cases r with
  | publish reason =>
    change Step backend m k .publish o at hstep
    have hverdict : k.protect = some reason := by
      rw [Kernel.protect, hk]
      rfl
    cases hstep with
    | refused h => simp [Operation.refusal?, hp] at h
    | publishedEmpty _ hzero => exact absurd hzero hcap
    | publishDenied _ _ hdenied =>
      obtain rfl : _ = reason := Option.some.inj (hdenied.symm.trans hverdict)
      refine ⟨rfl, rfl, ?_⟩
      rw [Kernel.afterProtect, hk]
      rfl
    | published _ _ hgranted =>
      rw [hverdict] at hgranted
      cases hgranted
  | patch offset bytes =>
    change Step backend m k (.patch offset bytes) o at hstep
    have hrefusal : (Operation.patch offset bytes).refusal? m = some .notPublished := by
      simp [Operation.refusal?, hp]
    rw [hstep.eq_of_refusal? hrefusal]
    exact ⟨rfl, rfl, hk⟩

/-- Any number of attempts are turned down one by one, and change nothing. -/
theorem run_retries (hm : m.WellFormed) (hp : m.published = false) (hcap : m.capacity ≠ 0)
    (backend : Backend) (retries : List Retry) {rest : List Verdict}
    (hk : k.protectVerdicts = retries.flatMap Retry.verdicts ++ rest) :
    (run backend (retries.map Retry.operation) m k).state = m ∧
      (run backend (retries.map Retry.operation) m k).kernel.protectVerdicts = rest ∧
      answers backend (retries.map Retry.operation) m k =
        retries.map fun r => .error (.error r.answer) := by
  induction retries generalizing k with
  | nil => exact ⟨rfl, hk, rfl⟩
  | cons r retries ih =>
    rw [List.flatMap_cons, List.append_assoc] at hk
    obtain ⟨hresult, hstate, hkernel⟩ := (step_perform hm backend k r.operation).of_retry hp hcap hk
    obtain ⟨hstate', hkernel', hanswers⟩ := ih hkernel
    rw [List.map_cons, run_cons hm, hstate, answers, hresult, hstate, hanswers]
    exact ⟨hstate', hkernel', rfl⟩

/-! ### Recovery -/

/-- Publishing succeeds if the operating system closes the pages. -/
theorem Step.of_publish (hstep : Step backend m k .publish o) (hp : m.published = false)
    (hk : k.protect = none) : o.result = .ok () ∧ o.state = { m with published := true } := by
  cases hstep with
  | refused h => simp [Operation.refusal?, hp] at h
  | publishDenied _ _ hdenied =>
    rw [hk] at hdenied
    cases hdenied
  | publishedEmpty | published => exact ⟨rfl, rfl⟩

/-- A patch whose pages are opened and twice not closed loses them. -/
theorem Operation.losesPages_of_verdicts (hp : m.published = true)
    (hfit : offset.toNat + bytes.length ≤ m.capacity.toNat) (hlen : 0 < bytes.length)
    {first second : Errno} {rest : List Verdict}
    (hk : k.protectVerdicts = none :: some first :: some second :: rest) :
    (Operation.patch offset bytes).LosesPages m k := by
  refine ⟨refusal?_patch_eq_none_iff.mpr ⟨hp, hfit⟩, hlen, ?_, ?_, ?_⟩ <;>
    simp [Kernel.protect, Kernel.afterProtect, hk]

/-- A patch that loses its pages, attempts that do not recover them, and one to publish that
does: the memory ends up published, with the bytes in it. -/
theorem recovery_of_losesPages (hm : m.WellFormed) (hp : m.published = true)
    (hfit : offset.toNat + bytes.length ≤ m.capacity.toNat) (hlen : 0 < bytes.length)
    {first second : Errno} (retries : List Retry) {rest : List Verdict}
    (hk : k.protectVerdicts =
      none :: some first :: some second :: (retries.flatMap Retry.verdicts ++ rest))
    (hrest : Kernel.next rest = none) (backend : Backend) :
    let ops := .patch offset bytes :: (retries.map Retry.operation ++ [.publish])
    (run backend ops m k).state = m.copied offset bytes ∧
      answers backend ops m k =
        .error (.error (.virtualMemory second)) ::
          (retries.map (fun r => .error (.error r.answer)) ++ [.ok ()]) := by
  intro ops
  have hloses := Operation.losesPages_of_verdicts hp hfit hlen hk
  have hpatch := step_perform hm backend k (.patch offset bytes)
  obtain ⟨-, -, reason, -, hreason, hresult, hstate, hkernel, -⟩ := hpatch.of_losesPages hloses
  obtain rfl : second = reason := by
    simpa [Kernel.protect, Kernel.afterProtect, hk] using hreason
  -- the memory that the patch leaves behind is unpublished, and the attempts keep it so
  have hwell := hpatch.wellFormed hm
  have hverdicts : ((Operation.patch offset bytes).perform backend m k).kernel.protectVerdicts =
      retries.flatMap Retry.verdicts ++ rest := by
    rw [hkernel]
    simp [Kernel.afterProtect, hk]
  have hcap : m.capacity ≠ 0 := by
    rw [ne_eq, ← UInt64.toNat_inj, UInt64.toNat_zero]
    omega
  obtain ⟨hkept, hleft, hanswers⟩ := run_retries hwell (by rw [hstate]) (by rwa [hstate]) backend
    retries hverdicts
  -- and publishing gives it back
  obtain ⟨hdone, hrecovered⟩ :=
    (step_perform hwell backend _ .publish).of_publish (by rw [hstate]) (by
      rw [Kernel.protect, hleft]
      exact hrest)
  constructor
  · rw [run_cons hm, run_append hwell, hkept, run_cons hwell]
    refine hrecovered.trans ?_
    rw [hstate, ← hp]
    rfl
  · rw [answers, hresult, answers_append hwell, hanswers, hkept]
    simp [answers, hdone]

/-- **Publishing recovers a lost patch.**  Bytes are patched into published memory, and their
pages are opened but twice not closed.  After any number of attempts to publish that the
operating system turns down, and to patch, that the memory turns down, publishing succeeds.  The
memory is then the same as after that patch alone, if the operating system turns nothing down:
published, with the bytes in it, and with all pages closed. -/
theorem Reachable.recovered_of_losesPages (h : Reachable backend m t) (hp : m.published = true)
    (hfit : offset.toNat + bytes.length ≤ m.capacity.toNat) (hlen : 0 < bytes.length)
    {first second : Errno} (retries : List Retry) {rest : List Verdict}
    (hk : k.protectVerdicts =
      none :: some first :: some second :: (retries.flatMap Retry.verdicts ++ rest))
    (hrest : Kernel.next rest = none) {k' : Kernel} (hk' : k'.GrantsAll) :
    let ops := .patch offset bytes :: (retries.map Retry.operation ++ [.publish])
    let o := CodeMemory.run backend ops m k
    let o' := CodeMemory.run backend [.patch offset bytes] m k'
    answers backend ops m k =
      .error (.error (.virtualMemory second)) ::
        (retries.map (fun r => .error (.error r.answer)) ++ [.ok ()]) ∧
    o.state = o'.state ∧ o.state = m.copied offset bytes ∧ o.state.published = true ∧
    ∀ page, m.HasPage page →
      (t ++ o.trace).protection? page = some .readExecute ∧
        (t ++ o'.trace).protection? page = some .readExecute := by
  intro ops o o'
  obtain ⟨hstate, hanswers⟩ := recovery_of_losesPages h.wellFormed hp hfit hlen retries hk hrest
    backend
  change o.state = m.copied offset bytes at hstate
  have hstate' : o'.state = m.copied offset bytes := by
    have haccepted := Operation.refusal?_patch_eq_none_iff.mpr ⟨hp, hfit⟩
    have happlied :=
      ((step_perform h.wellFormed backend k' (.patch offset bytes)).of_grantsAll hk' haccepted).1
    change (CodeMemory.run backend [.patch offset bytes] m k').state = _
    rw [run_cons h.wellFormed]
    exact happlied.trans (if_neg (by omega))
  -- both runs end with published memory, and that is closed everywhere
  have hclosed : ∀ ops k, (CodeMemory.run backend ops m k).state = m.copied offset bytes →
      ∀ page, m.HasPage page →
        (t ++ (CodeMemory.run backend ops m k).trace).protection? page = some .readExecute := by
    intro ops k hend page hpage
    have hrights := (h.run ops k).protection?_eq page
    rw [hend] at hrights
    exact (hrights hpage).trans (congrArg some (rights_of_published hp))
  refine ⟨hanswers, hstate.trans hstate'.symm, hstate, by rw [hstate]; exact hp, ?_⟩
  exact fun page hpage => ⟨hclosed _ k hstate page hpage, hclosed _ k' hstate' page hpage⟩

/-- A patch across the border of two pages that loses them, two attempts to publish with a patch
between them, and the one that succeeds. -/
theorem twoPages_recovered :
    let o₀ := run .coherent [.write 8 (.ofList [1, 2]), .publish] twoPages (answering [])
    let t : Trace :=
      [.call (.map 8192 .readWrite) none, .event (.mapped 0x10000 8192)] ++ o₀.trace
    let retries : List Retry :=
      [.publish .outOfMemory, .patch 0 (.ofList [5]), .publish .tryAgain]
    let k := answering
      [none, some .tryAgain, some .outOfMemory, some .outOfMemory, some .tryAgain]
    let o := run .coherent
      (.patch 4095 (.ofList [3, 4]) :: (retries.map Retry.operation ++ [.publish])) o₀.state k
    o.state = (run .coherent [.patch 4095 (.ofList [3, 4])] o₀.state (answering [])).state ∧
      o.state.published = true ∧ o.state.len = 4097 ∧
      (t ++ o.trace).protection? 1 = some .readExecute := by
  intro o₀ t retries k o
  have hreach : Reachable .coherent o₀.state t :=
    (reachable_twoPages .coherent).run [.write 8 (.ofList [1, 2]), .publish] (answering [])
  obtain ⟨-, hsame, hcopied, -, hclosed⟩ := hreach.recovered_of_losesPages (by decide)
    (by decide : (4095 : UInt64).toNat + (ByteString.ofList [3, 4]).length ≤ _) (by decide) retries
    (rfl : k.protectVerdicts = _) Kernel.next_nil grantsAll_answering_nil
  have hend : o.state = o₀.state.copied 4095 (.ofList [3, 4]) := hcopied
  refine ⟨hsame, ?_, ?_, (hclosed 1 (by decide)).1⟩
  · rw [hend]
    decide
  · rw [hend]
    decide

end CodeMemory

end JitSupport
