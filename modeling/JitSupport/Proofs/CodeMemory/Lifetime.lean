import JitSupport.Proofs.CodeMemory.Protection
import JitSupport.Proofs.CodeMemory.Safety

/-!
# The calls of a lifetime

Memory for code costs the operating system little.  It is mapped by one call and given back by
one call; publishing closes all pages with one call, and a patch opens and closes the pages
that it touches with at most three.  Whether a call is made at all depends on the fates of the
calls before it, and on nothing else: the operations that are turned down, and those that only
write, make none.

The calls that may be made, and their order, are written down as rules that know nothing of
the memory but its capacity and whether it is published, and of the operating system only where
it maps.  A lifetime follows them, whatever the operating system turns down.

## Main definitions

* `CodeMemory.PatchCalls`, `CodeMemory.OperationCalls` — the calls of one operation.
* `CodeMemory.RunCalls`, `CodeMemory.LifetimeCalls` — the calls of many, and of a lifetime.
* `CodeMemory.lifetime` — what can be seen of memory from its beginning to its end.

## Main results

* `CodeMemory.Step.operationCalls` — an operation follows the rules.
* `CodeMemory.runCalls_run` — so does a run.
* `CodeMemory.lifetimeCalls_lifetime` — **so does a whole lifetime.**
-/

namespace JitSupport

/-- A call to the operating system with its fate. -/
abbrev Call := SystemCall × Verdict

namespace CodeMemory

/-! ### The rules -/

/-- The operation is turned down: it comes at the wrong time, or its bytes do not fit. -/
def Operation.IsRejected (capacity : UInt64) (published : Bool) : Operation → Prop
  | write offset bytes => published = true ∨ capacity.toNat < offset.toNat + bytes.length
  | publish => published = true
  | patch offset bytes => published = false ∨ capacity.toNat < offset.toNat + bytes.length

/-- The calls of a patch that touches some pages, and whether the memory is published after
it. -/
inductive PatchCalls (pages : MemoryRange) : List Call → Bool → Prop
  /-- The pages are not opened, and that is all. -/
  | notOpened (reason : Errno) :
    PatchCalls pages [(.protect pages.start pages.len .readWrite, some reason)] true
  /-- The pages are opened and closed. -/
  | closed :
    PatchCalls pages
      [(.protect pages.start pages.len .readWrite, none),
        (.protect pages.start pages.len .readExecute, none)] true
  /-- The pages are opened, and closed at the second try. -/
  | closedAgain (reason : Errno) :
    PatchCalls pages
      [(.protect pages.start pages.len .readWrite, none),
        (.protect pages.start pages.len .readExecute, some reason),
        (.protect pages.start pages.len .readExecute, none)] true
  /-- The pages are opened, and after two tries to close them there is no third. -/
  | lost (first second : Errno) :
    PatchCalls pages
      [(.protect pages.start pages.len .readWrite, none),
        (.protect pages.start pages.len .readExecute, some first),
        (.protect pages.start pages.len .readExecute, some second)] false

/-- The calls of one operation on memory of a capacity, from memory that is published or not
to memory that is or is not. -/
inductive OperationCalls (capacity : UInt64) : Bool → Operation → List Call → Bool → Prop
  /-- What is turned down makes no call. -/
  | rejected {published : Bool} {op : Operation} (h : op.IsRejected capacity published) :
    OperationCalls capacity published op [] published
  /-- Writing makes no call. -/
  | write (published : Bool) (offset : UInt64) (bytes : ByteString) :
    OperationCalls capacity published (.write offset bytes) [] published
  /-- Publishing memory without a page makes no call. -/
  | publishNothing (h : capacity = 0) : OperationCalls capacity false .publish [] true
  /-- Publishing closes all pages with one call. -/
  | publish (h : capacity ≠ 0) (fate : Verdict) :
    OperationCalls capacity false .publish [(.protect 0 capacity .readExecute, fate)] fate.isNone
  /-- A patch without bytes makes no call. -/
  | patchNothing (offset : UInt64) {bytes : ByteString} (hlen : bytes.length = 0) :
    OperationCalls capacity true (.patch offset bytes) [] true
  /-- A patch makes the calls for the least pages that hold its bytes. -/
  | patch {offset : UInt64} {bytes : ByteString} {pages : MemoryRange} {calls : List Call}
    {published : Bool} (hfit : offset.toNat + bytes.length ≤ capacity.toNat)
    (hlen : 0 < bytes.length)
    (hpages : Page.IsLeastCover Page.size.toNat offset.toNat (offset.toNat + bytes.length)
      pages.start.toNat pages.stop.toNat)
    (hcalls : PatchCalls pages calls published) :
    OperationCalls capacity true (.patch offset bytes) calls published

/-- The calls of one operation after another. -/
inductive RunCalls (capacity : UInt64) : Bool → List Operation → List Call → Bool → Prop
  | nil (published : Bool) : RunCalls capacity published [] [] published
  | cons {before between after : Bool} {op : Operation} {ops : List Operation}
    {calls others : List Call} (hop : OperationCalls capacity before op calls between)
    (hops : RunCalls capacity between ops others after) :
    RunCalls capacity before (op :: ops) (calls ++ others) after

/-- The calls of a lifetime: a reservation, some operations if it succeeds, and the end.  A
reservation succeeds only with memory that does not start at the null address; `free` is the
address at which memory is mapped, if any is. -/
inductive LifetimeCalls (free capacity : UInt64) (ops : List Operation) : List Call → Prop
  /-- Nothing is mapped for a capacity that leaves the word when it is rounded up. -/
  | tooLarge (h : UInt64.size - Page.size.toNat < capacity.toNat) :
    LifetimeCalls free capacity ops []
  /-- Nothing is mapped for no bytes, and there is nothing to give back. -/
  | nothing (h : capacity = 0) : LifetimeCalls free capacity ops []
  /-- Nothing is mapped, and that is all. -/
  | refused {size : UInt64} (hne : capacity ≠ 0)
    (hsize : Page.IsLeastCover Page.size.toNat 0 capacity.toNat 0 size.toNat) (reason : Errno) :
    LifetimeCalls free capacity ops [(.map size .readWrite, some reason)]
  /-- The memory is mapped at the null address, and that is all. -/
  | null {size : UInt64} (hne : capacity ≠ 0)
    (hsize : Page.IsLeastCover Page.size.toNat 0 capacity.toNat 0 size.toNat) (hfree : free = 0) :
    LifetimeCalls free capacity ops [(.map size .readWrite, none)]
  /-- The memory is mapped as a whole, and in the end given back as a whole. -/
  | mapped {size : UInt64} {calls : List Call} {published : Bool} (hne : capacity ≠ 0)
    (hsize : Page.IsLeastCover Page.size.toNat 0 capacity.toNat 0 size.toNat) (hfree : free ≠ 0)
    (hcalls : RunCalls size false ops calls published) (fate : Verdict) :
    LifetimeCalls free capacity ops
      ((.map size .readWrite, none) :: calls ++ [(.unmap 0 size, fate)])

/-- All that can be seen of memory for code in its lifetime: it is reserved, and if that
succeeds, operations are done with it, and it is given back. -/
def lifetime (backend : Backend) (capacity : UInt64) (ops : List Operation) (k : Kernel) : Trace :=
  let beginning := reserve capacity () k
  match beginning.result with
  | .error _ => beginning.trace
  | .ok m =>
    let work := run backend ops m beginning.kernel
    let ending := work.state.release () work.kernel
    beginning.trace ++ work.trace ++ ending.trace

variable {backend : Backend} {m : CodeMemory} {k : Kernel} {offset : UInt64}
  {bytes : ByteString} {pages : MemoryRange} {op : Operation} {o : Outcome CodeMemory Unit}

/-! ### One operation -/

/-- What is turned down at once is turned down by the rules. -/
theorem Operation.isRejected_of_refusal? {e : Error} (h : op.refusal? m = some e) :
    op.IsRejected m.capacity m.published := by
  cases op with
  | write offset bytes =>
    rcases Nat.lt_or_ge m.capacity.toNat (offset.toNat + bytes.length) with hout | hfit
    · exact Or.inr hout
    · left
      by_cases hp : m.published = true
      · exact hp
      · rw [refusal?, if_neg hp, if_pos hfit] at h
        cases h
  | publish =>
    show m.published = true
    by_cases hp : m.published = true
    · exact hp
    · rw [refusal?, if_neg hp] at h
      cases h
  | patch offset bytes =>
    rcases Nat.lt_or_ge m.capacity.toNat (offset.toNat + bytes.length) with hout | hfit
    · exact Or.inr hout
    · left
      by_cases hp : (!m.published) = true
      · exact Bool.not_eq_true' _ ▸ hp
      · rw [refusal?, if_neg hp, if_pos hfit] at h
        cases h

theorem IsCover.isLeastCover (h : m.IsCover offset bytes.length pages) :
    Page.IsLeastCover Page.size.toNat offset.toNat (offset.toNat + bytes.length)
      pages.start.toNat pages.stop.toNat := by
  rw [h.start_eq, h.stop_eq]
  exact Page.isLeastCover_round (by decide) offset.toNat (offset.toNat + bytes.length)

/-- Pages that were opened are closed in one of two ways. -/
theorem Closing.patchCalls {k' : Kernel} {closing : Trace} (h : Closing pages k k' closing) :
    PatchCalls pages ((.protect pages.start pages.len .readWrite, none) :: closing.calls) true := by
  cases h with
  | atOnce => exact .closed
  | secondTry => exact .closedAgain _

/-- An operation follows the rules. -/
theorem Step.operationCalls (hstep : Step backend m k op o) :
    OperationCalls m.capacity m.published op o.trace.calls o.state.published := by
  cases hstep with
  | refused h => exact .rejected (Operation.isRejected_of_refusal? h)
  | written hp hfit => exact .write ..
  | publishedEmpty hp hcap =>
    rw [hp, Trace.calls_append, calls_notice]
    exact .publishNothing hcap
  | publishDenied hp hpages hk =>
    rw [hp, Trace.calls_append, calls_notice, Trace.calls_denied, UInt64.sub_zero]
    exact .publish (not_isEmpty_mapping hpages ∘ isEmpty_mapping_iff.mpr) (some _)
  | published hp hpages hk hcode =>
    simp only [Trace.calls_append, calls_notice, Trace.calls_granted, Trace.calls_invalidation,
      Trace.calls_event, Trace.calls_nil, List.nil_append, List.append_nil, UInt64.sub_zero, hp]
    exact .publish (not_isEmpty_mapping hpages ∘ isEmpty_mapping_iff.mpr) none
  | patchedNothing hp hfit hlen =>
    rw [hp]
    exact .patchNothing _ hlen
  | openDenied hp hfit hlen hpages hk =>
    rw [hp]
    exact .patch hfit hlen hpages.isLeastCover (.notOpened _)
  | lost hp hfit hlen hpages hk hfirst hsecond =>
    rw [hp]
    exact .patch hfit hlen hpages.isLeastCover (.lost _ _)
  | overflowed hp hfit hlen hpages hk hclosing =>
    simp only [Trace.calls_append, Trace.calls_granted, Trace.calls_store, Trace.calls_nil,
      List.append_nil, published_copied, hp]
    exact .patch hfit hlen hpages.isLeastCover hclosing.patchCalls
  | patched hp hfit hlen hpages hk hclosing =>
    simp only [Trace.calls_append, Trace.calls_granted, Trace.calls_store, Trace.calls_event,
      Trace.calls_invalidation, Trace.calls_nil, List.append_nil, published_copied, hp]
    exact .patch hfit hlen hpages.isLeastCover hclosing.patchCalls

/-! ### Runs and lifetimes -/

/-- A run follows the rules. -/
theorem runCalls_run (hm : m.WellFormed) (backend : Backend) (ops : List Operation) (k : Kernel) :
    RunCalls m.capacity m.published ops (run backend ops m k).trace.calls
      (run backend ops m k).state.published := by
  induction ops generalizing m k with
  | nil => exact .nil _
  | cons op ops ih =>
    have hstep := step_perform hm backend k op
    have hcapacity : (op.perform backend m k).state.capacity = m.capacity := by
      rw [capacity, Mapping.size, hstep.region_eq, capacity, Mapping.size]
    have hothers := ih (hstep.wellFormed hm) (op.perform backend m k).kernel
    rw [hcapacity] at hothers
    rw [run_cons hm, Trace.calls_append]
    exact .cons hstep.operationCalls hothers

/-- Memory without a page makes no call at all. -/
theorem RunCalls.eq_nil_of_capacity_eq_zero {published after : Bool} {ops : List Operation}
    {calls : List Call} (h : RunCalls 0 published ops calls after) : calls = [] := by
  induction h with
  | nil => rfl
  | cons hop _ ih =>
    rw [ih, List.append_nil]
    cases hop with
    | rejected | write | publishNothing | patchNothing => rfl
    | publish h => exact absurd rfl h
    | patch hfit hlen =>
      -- bytes do not fit where there are none
      rw [UInt64.toNat_zero] at hfit
      omega

/-- **A whole lifetime follows the rules**, whatever the operating system turns down. -/
theorem lifetimeCalls_lifetime (backend : Backend) (capacity : UInt64) (ops : List Operation)
    (k : Kernel) :
    LifetimeCalls k.free.start capacity ops (lifetime backend capacity ops k).calls := by
  have hreserve := reservation_reserve capacity () k
  have hreach : ∀ m, (reserve capacity () k).result = .ok m → m.WellFormed :=
    fun m h => (@Reachable.reserve backend _ _ _ h).wellFormed
  rw [lifetime]
  generalize reserve capacity () k = beginning at hreserve hreach
  cases hreserve with
  | tooLarge h => exact .tooLarge h
  | nothing h =>
    have hm := hreach _ rfl
    have hwork := runCalls_run hm backend ops k
    have hregion := region_run hm backend ops k
    -- what has no page makes no call, and there is nothing to give back
    simp only [Trace.calls_append, CodeMemory.release, Mapping.calls_release, Mapping.isEmpty,
      hregion, hwork.eq_nil_of_capacity_eq_zero]
    exact .nothing h
  | refused hne hsize => exact .refused hne (Page.isLeastCover_of_alignUp? hsize) _
  | null hne hsize hmap hstart =>
    rw [Mapping.start_of_map hmap] at hstart
    exact .null hne (Page.isLeastCover_of_alignUp? hsize) hstart
  | @mapped size region hne hsize hmap hstart =>
    have hm := hreach _ rfl
    have hlen : region.len = size := Mapping.len_of_map hmap
    have hwork := runCalls_run hm backend ops k.afterMap
    have hregion := region_run hm backend ops k.afterMap
    have hpos : ¬ region.isEmpty := by
      rw [MemoryRange.isEmpty_iff_len, hlen]
      exact UInt64.ne_zero_of_alignUp? Page.isPowerOfTwo_size hsize hne
    simp only [Trace.calls_append, CodeMemory.release, Mapping.calls_release, Mapping.isEmpty,
      Mapping.size, hregion, hpos, hlen]
    rw [CodeMemory.capacity, Mapping.size, hlen] at hwork
    rw [Mapping.start_of_map hmap] at hstart
    exact .mapped hne (Page.isLeastCover_of_alignUp? hsize) hstart hwork _

end CodeMemory

end JitSupport
