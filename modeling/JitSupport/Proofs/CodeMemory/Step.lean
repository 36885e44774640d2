import JitSupport.CodeMemory
import JitSupport.Proofs.Invalidation
import JitSupport.Proofs.Mapping

/-!
# What one operation comes to

Each operation on memory for code ends in one of a few ways.  Which one it is depends
on the memory, the operation, and the answers of the operating system.  The ways are
listed once, with all that can be told of each, and every later argument about runs is
an argument over that list.

## Main definitions

* `CodeMemory.WellFormed` — what every memory keeps.
* `CodeMemory.IsCover` — the pages that some bytes touch.
* `CodeMemory.Operation.refusal?` — why an operation is turned down at once.
* `CodeMemory.Closing` — how pages are closed in at most two tries.
* `CodeMemory.Step` — the ways in which an operation ends.

## Main results

* `CodeMemory.step_perform` — **an operation ends in one of the listed ways.**
* `CodeMemory.Step.wellFormed` — an operation keeps the memory well-formed.
* `CodeMemory.result_perform_ne_violation` — no operation breaks a precondition.
-/

namespace JitSupport

namespace CodeMemory

/-- What every memory keeps: it was not written behind its end, and it has no broken
page. -/
structure WellFormed (m : CodeMemory) : Prop where
  /-- Nothing was written behind the end. -/
  len_le : m.len.toNat ≤ m.capacity.toNat
  /-- The memory is a whole number of pages. -/
  wholePages : m.capacity.toNat % Page.size.toNat = 0

/-- The memory with bytes copied to an offset. -/
def copied (m : CodeMemory) (offset : UInt64) (bytes : ByteString) : CodeMemory :=
  { m with
    mapping := m.mapping.replaced offset bytes
    len := max m.len (offset + UInt64.ofNat bytes.length) }

/-- The pages that `count` bytes at an offset touch. -/
structure IsCover (m : CodeMemory) (offset : UInt64) (count : Nat) (pages : MemoryRange) :
    Prop where
  /-- The pages start with the page of the first byte. -/
  start_eq : pages.start.toNat = offset.toNat / Page.size.toNat * Page.size.toNat
  /-- The pages stop with the page of the last byte. -/
  stop_eq : pages.stop.toNat =
    (offset.toNat + count + (Page.size.toNat - 1)) / Page.size.toNat * Page.size.toNat
  /-- The pages are pages of the memory. -/
  holdsPages : m.mapping.HoldsPages pages.start pages.stop

/-- Why an operation is turned down before anything is done, if it is. -/
def Operation.refusal? (m : CodeMemory) : Operation → Option Error
  | write offset bytes =>
    if m.published then some .alreadyPublished
    else if offset.toNat + bytes.length ≤ m.capacity.toNat then none
    else some (.outOfBounds offset bytes.length m.capacity)
  | publish => if m.published then some .alreadyPublished else none
  | patch offset bytes =>
    if !m.published then some .notPublished
    else if offset.toNat + bytes.length ≤ m.capacity.toNat then none
    else some (.outOfBounds offset bytes.length m.capacity)

/-- What publishing reports before it does anything. -/
def notice (m : CodeMemory) : Trace := if m.isEmpty then [.event .nothingToPublish] else []

/-- The ways in which pages are closed: at once, or at the second try.  The operating
system and the trace are those after it. -/
inductive Closing (pages : MemoryRange) (k : Kernel) : Kernel → Trace → Prop
  | atOnce (h : k.protect = none) :
    Closing pages k k.afterProtect (Trace.granted pages.start pages.stop .readExecute)
  | secondTry {reason : Errno} (h : k.protect = some reason) (h' : k.afterProtect.protect = none) :
    Closing pages k k.afterProtect.afterProtect
      (Trace.denied pages.start pages.stop .readExecute reason ++
        Trace.granted pages.start pages.stop .readExecute)

/-- The ways in which an operation ends. -/
inductive Step (backend : Backend) (m : CodeMemory) (k : Kernel) :
    Operation → Outcome CodeMemory Unit → Prop
  /-- The operation is turned down at once. -/
  | refused {op : Operation} {e : Error} (h : op.refusal? m = some e) :
    Step backend m k op ⟨.error (.error e), m, k, []⟩
  /-- Bytes are written. -/
  | written {offset : UInt64} {bytes : ByteString} (hp : m.published = false)
    (hfit : offset.toNat + bytes.length ≤ m.capacity.toNat) :
    Step backend m k (.write offset bytes)
      ⟨.ok (), m.copied offset bytes, k, [.store offset bytes]⟩
  /-- Memory without a page is published. -/
  | publishedEmpty {code : MemoryRange} (hp : m.published = false) (hcap : m.capacity = 0)
    (hcode : m.range = .ok code) :
    Step backend m k .publish
      ⟨.ok (), { m with published := true }, k, m.notice ++ [.event (.published code)]⟩
  /-- The pages are not closed, and nothing is published. -/
  | publishDenied {reason : Errno} (hp : m.published = false)
    (hpages : m.mapping.HoldsPages 0 m.capacity) (hk : k.protect = some reason) :
    Step backend m k .publish
      ⟨.error (.error (.virtualMemory reason)), m, k.afterProtect,
        m.notice ++ Trace.denied 0 m.capacity .readExecute reason⟩
  /-- All pages are closed, and the code is made visible. -/
  | published {code : MemoryRange} (hp : m.published = false)
    (hpages : m.mapping.HoldsPages 0 m.capacity) (hk : k.protect = none)
    (hcode : m.range = .ok code) :
    Step backend m k .publish
      ⟨.ok (), { m with published := true }, k.afterProtect,
        m.notice ++ Trace.granted 0 m.capacity .readExecute ++ Trace.invalidation backend code ++
          [.event (.published code)]⟩
  /-- There is nothing to patch. -/
  | patchedNothing {offset : UInt64} {bytes : ByteString} (hp : m.published = true)
    (hfit : offset.toNat + bytes.length ≤ m.capacity.toNat) (hlen : bytes.length = 0) :
    Step backend m k (.patch offset bytes) ⟨.ok (), m, k, []⟩
  /-- The pages are not opened, and nothing is patched. -/
  | openDenied {offset : UInt64} {bytes : ByteString} {pages : MemoryRange} {reason : Errno}
    (hp : m.published = true) (hfit : offset.toNat + bytes.length ≤ m.capacity.toNat)
    (hlen : 0 < bytes.length) (hpages : m.IsCover offset bytes.length pages)
    (hk : k.protect = some reason) :
    Step backend m k (.patch offset bytes)
      ⟨.error (.error (.virtualMemory reason)), m, k.afterProtect,
        Trace.denied pages.start pages.stop .readWrite reason⟩
  /-- The pages are opened and patched, and neither try closes them again. -/
  | lost {offset : UInt64} {bytes : ByteString} {pages : MemoryRange} {first second : Errno}
    (hp : m.published = true) (hfit : offset.toNat + bytes.length ≤ m.capacity.toNat)
    (hlen : 0 < bytes.length) (hpages : m.IsCover offset bytes.length pages)
    (hk : k.protect = none) (hfirst : k.afterProtect.protect = some first)
    (hsecond : k.afterProtect.afterProtect.protect = some second) :
    Step backend m k (.patch offset bytes)
      ⟨.error (.error (.virtualMemory second)), { m.copied offset bytes with published := false },
        k.afterProtect.afterProtect.afterProtect,
        Trace.granted pages.start pages.stop .readWrite ++ [.store offset bytes] ++
          (Trace.denied pages.start pages.stop .readExecute first ++
            Trace.denied pages.start pages.stop .readExecute second ++
              [.event (.protectionLost (.virtualMemory second) pages)])⟩
  /-- The pages are opened, patched and closed, but reach behind the address space. -/
  | overflowed {offset : UInt64} {bytes : ByteString} {pages : MemoryRange} {k' : Kernel}
    {closing : Trace} (hp : m.published = true)
    (hfit : offset.toNat + bytes.length ≤ m.capacity.toNat) (hlen : 0 < bytes.length)
    (hpages : m.IsCover offset bytes.length pages) (hk : k.protect = none)
    (hclosing : Closing pages k.afterProtect k' closing)
    (htouched : Cache.touchedPages (m.mapping.region.start + offset) (UInt64.ofNat bytes.length) =
      .error (.error (.addressOverflow (m.mapping.region.start + offset)
        (UInt64.ofNat bytes.length)))) :
    Step backend m k (.patch offset bytes)
      ⟨.error (.error (.addressOverflow (m.mapping.region.start + offset)
          (UInt64.ofNat bytes.length))), m.copied offset bytes, k',
        Trace.granted pages.start pages.stop .readWrite ++ [.store offset bytes] ++ closing⟩
  /-- The pages are opened, patched and closed, and the code in them is made visible. -/
  | patched {offset : UInt64} {bytes : ByteString} {pages touched : MemoryRange} {k' : Kernel}
    {closing : Trace} (hp : m.published = true)
    (hfit : offset.toNat + bytes.length ≤ m.capacity.toNat) (hlen : 0 < bytes.length)
    (hpages : m.IsCover offset bytes.length pages) (hk : k.protect = none)
    (hclosing : Closing pages k.afterProtect k' closing)
    (htouched : Cache.touchedPages (m.mapping.region.start + offset) (UInt64.ofNat bytes.length) =
      .ok touched) :
    Step backend m k (.patch offset bytes)
      ⟨.ok (), m.copied offset bytes, k',
        Trace.granted pages.start pages.stop .readWrite ++ [.store offset bytes] ++ closing ++
          (.event (.pagesInvalidated touched) :: Trace.invalidation backend touched ++
            [.event (.patched offset bytes.length)])⟩

variable {σ : Type} {m : CodeMemory} {k : Kernel} {offset : UInt64} {bytes : ByteString}

/-! ### Operations that are not turned down at once -/

namespace Operation

theorem refusal?_write_eq_none_iff :
    (write offset bytes).refusal? m = none ↔
      m.published = false ∧ offset.toNat + bytes.length ≤ m.capacity.toNat := by
  cases hp : m.published <;> simp [refusal?, hp]

theorem refusal?_publish_eq_none_iff : publish.refusal? m = none ↔ m.published = false := by
  cases hp : m.published <;> simp [refusal?, hp]

theorem refusal?_patch_eq_none_iff :
    (patch offset bytes).refusal? m = none ↔
      m.published = true ∧ offset.toNat + bytes.length ≤ m.capacity.toNat := by
  cases hp : m.published <;> simp [refusal?, hp]

end Operation

/-! ### Bounds and pages -/

theorem toNat_stop (hfit : offset.toNat + bytes.length ≤ m.capacity.toNat) :
    (offset + UInt64.ofNat bytes.length).toNat = offset.toNat + bytes.length := by
  have hcap := m.capacity.toNat_lt
  rw [UInt64.toNat_add, UInt64.toNat_ofNat', Nat.mod_eq_of_lt (by omega : bytes.length < 2 ^ 64),
    Nat.mod_eq_of_lt (by omega)]

theorem toNat_ofNat_length (hfit : offset.toNat + bytes.length ≤ m.capacity.toNat) :
    (UInt64.ofNat bytes.length).toNat = bytes.length := by
  have hcap := m.capacity.toNat_lt
  rw [UInt64.toNat_ofNat', Nat.mod_eq_of_lt (by omega)]

theorem offset_le_stop (hfit : offset.toNat + bytes.length ≤ m.capacity.toNat) :
    offset ≤ offset + UInt64.ofNat bytes.length := by
  rw [UInt64.le_iff_toNat_le, toNat_stop hfit]
  omega

theorem stop_le_capacity (hfit : offset.toNat + bytes.length ≤ m.capacity.toNat) :
    offset + UInt64.ofNat bytes.length ≤ m.capacity := by
  rw [UInt64.le_iff_toNat_le, toNat_stop hfit]
  exact hfit

/-- Bytes that fit are copied. -/
theorem run_store_of_fits (hfit : offset.toNat + bytes.length ≤ m.capacity.toNat) (s : σ)
    (k : Kernel) :
    m.mapping.store offset (offset + UInt64.ofNat bytes.length) bytes s k =
      ⟨.ok (m.mapping.replaced offset bytes), s, k, [.store offset bytes]⟩ := by
  have hlen : bytes.length = (offset + UInt64.ofNat bytes.length - offset).toNat := by
    rw [UInt64.toNat_sub_of_le _ _ (offset_le_stop hfit), toNat_stop hfit, Nat.add_sub_cancel_left]
  exact Mapping.run_store (offset_le_stop hfit) (stop_le_capacity hfit) hlen s k

theorem toNat_max (a b : UInt64) : (max a b).toNat = max a.toNat b.toNat := by
  rw [show max a b = if a ≤ b then b else a from rfl]
  split
  next h =>
    rw [UInt64.le_iff_toNat_le] at h
    omega
  next h =>
    rw [UInt64.le_iff_toNat_le] at h
    omega

theorem toNat_len_copied (hfit : offset.toNat + bytes.length ≤ m.capacity.toNat) :
    (m.copied offset bytes).len.toNat = max m.len.toNat (offset.toNat + bytes.length) := by
  rw [copied, toNat_max, toNat_stop hfit]

@[simp] theorem capacity_copied (m : CodeMemory) (offset : UInt64) (bytes : ByteString) :
    (m.copied offset bytes).capacity = m.capacity := rfl

@[simp] theorem published_copied (m : CodeMemory) (offset : UInt64) (bytes : ByteString) :
    (m.copied offset bytes).published = m.published := rfl

theorem toNat_address (m : CodeMemory) {x : UInt64} (hx : x.toNat ≤ m.capacity.toNat) :
    (m.mapping.region.start + x).toNat = m.mapping.region.start.toNat + x.toNat :=
  MemoryRange.toNat_start_add (UInt64.le_iff_toNat_le.mpr hx)

theorem WellFormed.copied (hm : m.WellFormed)
    (hfit : offset.toNat + bytes.length ≤ m.capacity.toNat) :
    (m.copied offset bytes).WellFormed := by
  refine ⟨?_, hm.wholePages⟩
  have hlen := hm.len_le
  rw [toNat_len_copied hfit, capacity_copied]
  omega

theorem WellFormed.withPublished (hm : m.WellFormed) (published : Bool) :
    ({ m with published := published } : CodeMemory).WellFormed :=
  ⟨hm.len_le, hm.wholePages⟩

theorem run_bound_of_fits (hfit : offset.toNat + bytes.length ≤ m.capacity.toNat) (s : σ)
    (k : Kernel) :
    (liftM (m.bound offset bytes.length) : Action σ UInt64) s k =
      ⟨.ok (offset + UInt64.ofNat bytes.length), s, k, []⟩ := by
  rw [Action.run_liftM_error, bound_eq_ok_iff.mpr ⟨toNat_stop hfit, stop_le_capacity hfit⟩]
  rfl

theorem run_bound_of_not_fits (hfit : ¬ offset.toNat + bytes.length ≤ m.capacity.toNat) (s : σ)
    (k : Kernel) :
    (liftM (m.bound offset bytes.length) : Action σ UInt64) s k =
      ⟨.error (.error (.outOfBounds offset bytes.length m.capacity)), s, k, []⟩ := by
  rw [Action.run_liftM_error, bound_of_not_fits hfit]
  rfl

theorem WellFormed.range_eq (hm : m.WellFormed) :
    ∃ code, m.range = .ok code ∧ code.start = m.mapping.region.start ∧
      code.stop.toNat = m.mapping.region.start.toNat + m.len.toNat := by
  have hle : m.len ≤ m.mapping.region.len := UInt64.le_iff_toNat_le.mpr hm.len_le
  rw [range, MemoryRange.part_of_le (UInt64.zero_le) hle]
  exact ⟨_, rfl, UInt64.add_zero _, toNat_address m hm.len_le⟩

/-- The addresses of the written bytes, where they are known. -/
theorem WellFormed.range_spec (hm : m.WellFormed) {code : MemoryRange} (hcode : m.range = .ok code) :
    code.start = m.mapping.region.start ∧
      code.stop.toNat = m.mapping.region.start.toNat + m.len.toNat := by
  obtain ⟨code', hcode', hcode''⟩ := hm.range_eq
  obtain rfl : code' = code := Except.ok.inj (hcode'.symm.trans hcode)
  exact hcode''

theorem WellFormed.text_eq (hm : m.WellFormed) :
    m.text = .ok (m.mapping.cells.read 0 m.len.toNat) := by
  have hle : m.len ≤ m.mapping.size := UInt64.le_iff_toNat_le.mpr hm.len_le
  exact Mapping.slice_of_le UInt64.zero_le hle

theorem holdsPages_all (hcap : m.capacity ≠ 0) : m.mapping.HoldsPages 0 m.capacity where
  aligned := rfl
  lt := by
    rw [UInt64.lt_iff_toNat_lt, UInt64.toNat_zero]
    exact Nat.pos_of_ne_zero fun h => hcap (UInt64.toNat_inj.mp h)
  le_size := UInt64.le_refl _

/-- The pages of a patch that fits are found, and are pages of the memory. -/
theorem WellFormed.pagesBetween_spec (hm : m.WellFormed)
    (hfit : offset.toNat + bytes.length ≤ m.capacity.toNat) (hlen : 0 < bytes.length) :
    ∃ pages, pagesBetween offset (offset + UInt64.ofNat bytes.length) = .ok pages ∧
      m.IsCover offset bytes.length pages := by
  have hcap := m.capacity.toNat_lt
  have hwhole := hm.wholePages
  have hstop := toNat_stop hfit
  have hround := Page.roundUp_le hwhole hfit
  rw [Page.toNat_size] at hwhole hround
  -- the range of the bytes themselves
  have hne : (⟨offset, offset + UInt64.ofNat bytes.length, offset_le_stop hfit⟩ :
      MemoryRange).isEmpty = false := by
    rw [Bool.eq_false_iff, ne_eq, MemoryRange.isEmpty_iff, ← UInt64.toNat_inj, hstop]
    simp only
    omega
  obtain ⟨pages, hpages, hpstart, hpstop⟩ :=
    MemoryRange.pageAligned_of_fits Page.isPowerOfTwo_size hne (by
      rw [hstop, Page.toNat_size, UInt64.size]
      omega)
  simp only [hstop] at hpstart hpstop
  refine ⟨pages, ?_, hpstart, hpstop, ?_, ?_, ?_⟩
  · rw [pagesBetween, MemoryRange.ofBounds, dif_pos (offset_le_stop hfit)]
    exact hpages
  · rw [UInt64.mod_eq_zero_iff, hpstart, Nat.mul_mod_left]
  · rw [UInt64.lt_iff_toNat_lt, hpstart, hpstop, Page.toNat_size]
    omega
  · rw [UInt64.le_iff_toNat_le, hpstop, Page.toNat_size]
    exact hround

/-! ### Writing and publishing -/

theorem run_write (hp : m.published = false)
    (hfit : offset.toNat + bytes.length ≤ m.capacity.toNat) :
    write offset bytes m k = ⟨.ok (), m.copied offset bytes, k, [.store offset bytes]⟩ := by
  rw [write, Action.run_bind_of_ok (Action.run_get m k), if_neg (by simp [hp]),
    Action.run_bind_of_ok (run_bound_of_fits hfit m k),
    Action.run_bind_of_ok (run_store_of_fits hfit ..)]
  rfl

theorem run_write_of_not_fits (hp : m.published = false)
    (hfit : ¬ offset.toNat + bytes.length ≤ m.capacity.toNat) :
    write offset bytes m k =
      ⟨.error (.error (.outOfBounds offset bytes.length m.capacity)), m, k, []⟩ := by
  rw [write, Action.run_bind_of_ok (Action.run_get m k), if_neg (by simp [hp]),
    Action.run_bind_of_error (run_bound_of_not_fits hfit m k)]
  rfl

theorem isEmpty_mapping_iff : m.mapping.isEmpty ↔ m.capacity = 0 := MemoryRange.isEmpty_iff_len

theorem not_isEmpty_mapping {first last : UInt64} (h : m.mapping.HoldsPages first last) :
    ¬ m.mapping.isEmpty := by
  have hlt := UInt64.lt_iff_toNat_lt.mp h.lt
  have hle : last.toNat ≤ m.capacity.toNat := UInt64.le_iff_toNat_le.mp h.le_size
  rw [isEmpty_mapping_iff, ← UInt64.toNat_inj, UInt64.toNat_zero]
  omega

theorem run_closeAll_of_isEmpty (hcap : m.capacity = 0) (backend : Backend) (s : σ) (k : Kernel) :
    m.closeAll backend s k = ⟨.ok (), s, k, []⟩ := by
  rw [closeAll, if_pos (isEmpty_mapping_iff.mpr hcap)]
  rfl

theorem run_closeAll_of_denied (hpages : m.mapping.HoldsPages 0 m.capacity) {reason : Errno}
    (hk : k.protect = some reason) (backend : Backend) (s : σ) :
    m.closeAll backend s k =
      ⟨.error (.error (.virtualMemory reason)), s, k.afterProtect,
        Trace.denied 0 m.capacity .readExecute reason⟩ := by
  rw [closeAll, if_neg (not_isEmpty_mapping hpages), Mapping.makeExecutable,
    Action.run_bind_of_error (Mapping.run_protect_of_denied hpages _ s hk)]

theorem run_closeAll_of_granted (hpages : m.mapping.HoldsPages 0 m.capacity)
    (hk : k.protect = none) {code : MemoryRange} (hcode : m.range = .ok code) (backend : Backend)
    (s : σ) :
    m.closeAll backend s k =
      ⟨.ok (), s, k.afterProtect,
        Trace.granted 0 m.capacity .readExecute ++ Trace.invalidation backend code⟩ := by
  have hrange : (liftM m.range : Action σ MemoryRange) s k.afterProtect =
      ⟨.ok code, s, k.afterProtect, []⟩ := by
    rw [Action.run_liftM_violation, hcode]
    rfl
  rw [closeAll, if_neg (not_isEmpty_mapping hpages), Mapping.makeExecutable,
    Action.run_bind_of_ok (Mapping.run_protect_of_granted hpages _ s hk),
    Action.run_bind_of_ok hrange, Cache.run_invalidate]
  rfl

theorem run_notice (m : CodeMemory) (s : σ) (k : Kernel) :
    (if m.isEmpty then Action.report .nothingToPublish else pure () : Action σ Unit) s k =
      ⟨.ok (), s, k, m.notice⟩ := by
  unfold notice
  cases m.isEmpty <;> rfl

/-- Publishing gives its notice first, whether or not there is one to give. -/
theorem run_publish (hp : m.published = false) (backend : Backend) (k : Kernel) :
    publish backend m k =
      ((if m.isEmpty then Action.report .nothingToPublish else pure ()) >>= fun () => do
        m.closeAll backend
        set { m with published := true }
        Action.report (.published (← m.range)) : Action CodeMemory Unit) m k := by
  rw [publish, Action.run_bind_of_ok (Action.run_get m k), if_neg (by simp [hp])]
  cases m.isEmpty <;> rfl

theorem run_publish_of_ok (hp : m.published = false) {backend : Backend} {k' : Kernel} {t : Trace}
    (hclose : m.closeAll backend m k = ⟨.ok (), m, k', t⟩) {code : MemoryRange}
    (hcode : m.range = .ok code) :
    publish backend m k =
      ⟨.ok (), { m with published := true }, k', m.notice ++ (t ++ [.event (.published code)])⟩ := by
  have hset : (set { m with published := true } : Action CodeMemory PUnit) m k' =
      ⟨.ok ⟨⟩, { m with published := true }, k', []⟩ := Action.run_set ..
  have hrange : (liftM m.range : Action CodeMemory MemoryRange) { m with published := true } k' =
      ⟨.ok code, { m with published := true }, k', []⟩ := by
    rw [Action.run_liftM_violation, hcode]
    rfl
  rw [run_publish hp, Action.run_bind_of_ok (run_notice m m k), Action.run_bind_of_ok hclose,
    Action.run_bind_of_ok hset, Action.run_bind_of_ok hrange]
  rfl

theorem run_publish_of_error (hp : m.published = false) {backend : Backend} {k' : Kernel}
    {t : Trace} {failure : Failure}
    (hclose : m.closeAll backend m k = ⟨.error failure, m, k', t⟩) :
    publish backend m k = ⟨.error failure, m, k', m.notice ++ t⟩ := by
  rw [run_publish hp, Action.run_bind_of_ok (run_notice m m k),
    Action.run_bind_of_error hclose]

/-! ### Patching -/

theorem run_overwrite_of_granted {pages : MemoryRange}
    (hfit : offset.toNat + bytes.length ≤ m.capacity.toNat)
    (hpages : m.mapping.HoldsPages pages.start pages.stop) (hk : k.protect = none) :
    overwrite pages offset (offset + UInt64.ofNat bytes.length) bytes m k =
      ⟨.ok (), m.copied offset bytes, k.afterProtect,
        Trace.granted pages.start pages.stop .readWrite ++ [.store offset bytes]⟩ := by
  rw [overwrite, Action.run_bind_of_ok (Action.run_get m k), Mapping.makeWritable,
    Action.run_bind_of_ok (Mapping.run_protect_of_granted hpages _ m hk),
    Action.run_bind_of_ok (run_store_of_fits hfit ..)]
  rfl

theorem run_overwrite_of_denied {pages : MemoryRange} {reason : Errno}
    (hpages : m.mapping.HoldsPages pages.start pages.stop) (hk : k.protect = some reason)
    (stop : UInt64) :
    overwrite pages offset stop bytes m k =
      ⟨.error (.error (.virtualMemory reason)), m, k.afterProtect,
        Trace.denied pages.start pages.stop .readWrite reason⟩ := by
  rw [overwrite, Action.run_bind_of_ok (Action.run_get m k), Mapping.makeWritable,
    Action.run_bind_of_error (Mapping.run_protect_of_denied hpages _ m hk)]
  rfl

theorem run_close_of_closing {pages : MemoryRange} {k' : Kernel} {t : Trace}
    (hpages : m.mapping.HoldsPages pages.start pages.stop) (h : Closing pages k k' t) :
    close pages m k = ⟨.ok (), m, k', t⟩ := by
  have htwice : Action.twice (m.mapping.makeExecutable pages.start pages.stop) m k =
      ⟨.ok (), m, k', t⟩ := by
    cases h with
    | atOnce hk =>
      exact Action.run_twice_of_ok (Mapping.run_protect_of_granted hpages .readExecute m hk)
    | secondTry hk hk' =>
      rw [Mapping.makeExecutable,
        Action.run_twice_of_error (Mapping.run_protect_of_denied hpages .readExecute m hk),
        Mapping.run_protect_of_granted hpages .readExecute m hk']
  rw [close, Action.run_bind_of_ok (Action.run_get m k),
    Action.run_bind_of_ok (Action.run_attempt_of_ok htwice)]
  simp

theorem run_close_of_lost {pages : MemoryRange} {first second : Errno}
    (hpages : m.mapping.HoldsPages pages.start pages.stop) (hfirst : k.protect = some first)
    (hsecond : k.afterProtect.protect = some second) :
    close pages m k =
      ⟨.error (.error (.virtualMemory second)), { m with published := false },
        k.afterProtect.afterProtect,
        Trace.denied pages.start pages.stop .readExecute first ++
          Trace.denied pages.start pages.stop .readExecute second ++
            [.event (.protectionLost (.virtualMemory second) pages)]⟩ := by
  have htwice : Action.twice (m.mapping.makeExecutable pages.start pages.stop) m k =
      ⟨.error (.error (.virtualMemory second)), m, k.afterProtect.afterProtect,
        Trace.denied pages.start pages.stop .readExecute first ++
          Trace.denied pages.start pages.stop .readExecute second⟩ := by
    rw [Mapping.makeExecutable,
      Action.run_twice_of_error (Mapping.run_protect_of_denied hpages .readExecute m hfirst),
      Mapping.run_protect_of_denied hpages .readExecute m hsecond]
  rw [close, Action.run_bind_of_ok (Action.run_get m k),
    Action.run_bind_of_ok (Action.run_attempt_of_error htwice)]
  rfl

theorem run_patch_of_not_fits (hp : m.published = true)
    (hfit : ¬ offset.toNat + bytes.length ≤ m.capacity.toNat) (backend : Backend) :
    patch backend offset bytes m k =
      ⟨.error (.error (.outOfBounds offset bytes.length m.capacity)), m, k, []⟩ := by
  rw [patch, Action.run_bind_of_ok (Action.run_get m k), if_neg (by simp [hp]),
    Action.run_bind_of_error (run_bound_of_not_fits hfit m k)]
  rfl

theorem run_patch_of_fits (hp : m.published = true)
    (hfit : offset.toNat + bytes.length ≤ m.capacity.toNat) (backend : Backend) :
    patch backend offset bytes m k =
      (if bytes.isEmpty then pure ()
      else do
        let pages ← pagesBetween offset (offset + UInt64.ofNat bytes.length)
        overwrite pages offset (offset + UInt64.ofNat bytes.length) bytes
        close pages
        Cache.invalidatePages backend (m.mapping.region.start + offset)
          (UInt64.ofNat bytes.length)
        Action.report (.patched offset bytes.length) : Action CodeMemory Unit) m k := by
  rw [patch, Action.run_bind_of_ok (Action.run_get m k), if_neg (by simp [hp]),
    Action.run_bind_of_ok (run_bound_of_fits hfit m k)]
  rfl

/-- A patch with bytes to copy opens its pages, copies, closes, and makes the code visible. -/
theorem run_patch (hp : m.published = true)
    (hfit : offset.toNat + bytes.length ≤ m.capacity.toNat) (hlen : 0 < bytes.length)
    {pages : MemoryRange}
    (hpages : pagesBetween offset (offset + UInt64.ofNat bytes.length) = .ok pages)
    (backend : Backend) :
    patch backend offset bytes m k =
      (do
        overwrite pages offset (offset + UInt64.ofNat bytes.length) bytes
        close pages
        Cache.invalidatePages backend (m.mapping.region.start + offset)
          (UInt64.ofNat bytes.length)
        Action.report (.patched offset bytes.length) : Action CodeMemory Unit) m k := by
  have hne : ¬ bytes.isEmpty = true := by
    rw [ByteString.isEmpty, beq_iff_eq]
    omega
  have hfound : (liftM (pagesBetween offset (offset + UInt64.ofNat bytes.length)) :
      Action CodeMemory MemoryRange) m k = ⟨.ok pages, m, k, []⟩ := by
    rw [Action.run_liftM_failure, hpages]
  rw [run_patch_of_fits hp hfit, if_neg hne, Action.run_bind_of_ok hfound]
  rfl

/-! ### All operations -/

theorem step_write (backend : Backend) (m : CodeMemory) (k : Kernel) (offset : UInt64)
    (bytes : ByteString) : Step backend m k (.write offset bytes) (write offset bytes m k) := by
  cases hp : m.published with
  | true =>
    have hrun : write offset bytes m k = ⟨.error (.error .alreadyPublished), m, k, []⟩ := by
      rw [write, Action.run_bind_of_ok (Action.run_get m k), if_pos hp]
      rfl
    rw [hrun]
    exact .refused (by simp [Operation.refusal?, hp])
  | false =>
    by_cases hfit : offset.toNat + bytes.length ≤ m.capacity.toNat
    · rw [run_write hp hfit]
      exact .written hp hfit
    · rw [run_write_of_not_fits hp hfit]
      exact .refused (by simp [Operation.refusal?, hp, hfit])

theorem step_publish (hm : m.WellFormed) (backend : Backend) (k : Kernel) :
    Step backend m k .publish (publish backend m k) := by
  cases hp : m.published with
  | true =>
    have hrun : publish backend m k = ⟨.error (.error .alreadyPublished), m, k, []⟩ := by
      rw [publish, Action.run_bind_of_ok (Action.run_get m k), if_pos hp]
      rfl
    rw [hrun]
    exact .refused (by simp [Operation.refusal?, hp])
  | false =>
    obtain ⟨code, hcode, -⟩ := hm.range_eq
    by_cases hcap : m.capacity = 0
    · rw [run_publish_of_ok hp (run_closeAll_of_isEmpty hcap backend m k) hcode]
      exact .publishedEmpty hp hcap hcode
    · have hpages := holdsPages_all hcap
      cases hk : k.protect with
      | none =>
        rw [run_publish_of_ok hp (run_closeAll_of_granted hpages hk hcode backend m) hcode,
          ← List.append_assoc, ← List.append_assoc]
        exact .published hp hpages hk hcode
      | some reason =>
        rw [run_publish_of_error hp (run_closeAll_of_denied hpages hk backend m)]
        exact .publishDenied hp hpages hk

/-- Closed pages are made visible, or reach behind the address space. -/
theorem step_patch_of_closing (hp : m.published = true)
    (hfit : offset.toNat + bytes.length ≤ m.capacity.toNat) (hlen : 0 < bytes.length)
    {pages : MemoryRange}
    (hfound : pagesBetween offset (offset + UInt64.ofNat bytes.length) = .ok pages)
    (hpages : m.IsCover offset bytes.length pages) (hk : k.protect = none) {k' : Kernel}
    {closing : Trace} (hclosing : Closing pages k.afterProtect k' closing) (backend : Backend) :
    Step backend m k (.patch offset bytes) (patch backend offset bytes m k) := by
  have hover := run_overwrite_of_granted hfit hpages.holdsPages hk
  have hclose := run_close_of_closing (m := m.copied offset bytes)
    (hpages.holdsPages.replaced offset bytes) hclosing
  rw [run_patch hp hfit hlen hfound, Action.run_bind_of_ok hover, Action.run_bind_of_ok hclose]
  rcases Cache.touchedPages_ok_or_overflow (m.mapping.region.start + offset)
    (UInt64.ofNat bytes.length) with ⟨touched, htouched⟩ | htouched
  · rw [Action.run_bind_of_ok (Cache.run_invalidatePages_of_ok htouched ..)]
    have hstep : Step backend m k (.patch offset bytes) _ :=
      .patched hp hfit hlen hpages hk hclosing htouched
    simpa only [Action.run_report, List.append_assoc] using hstep
  · rw [Action.run_bind_of_error (Cache.run_invalidatePages_of_error htouched ..)]
    have hstep : Step backend m k (.patch offset bytes) _ :=
      .overflowed hp hfit hlen hpages hk hclosing htouched
    simpa only [List.append_nil, List.append_assoc] using hstep

theorem step_patch (hm : m.WellFormed) (backend : Backend) (k : Kernel) (offset : UInt64)
    (bytes : ByteString) :
    Step backend m k (.patch offset bytes) (patch backend offset bytes m k) := by
  cases hp : m.published with
  | false =>
    have hrun : patch backend offset bytes m k = ⟨.error (.error .notPublished), m, k, []⟩ := by
      rw [patch, Action.run_bind_of_ok (Action.run_get m k), if_pos (by simp [hp])]
      rfl
    rw [hrun]
    exact .refused (by simp [Operation.refusal?, hp])
  | true =>
    by_cases hfit : offset.toNat + bytes.length ≤ m.capacity.toNat
    · rcases Nat.eq_zero_or_pos bytes.length with hlen | hlen
      · rw [run_patch_of_fits hp hfit, if_pos (by simp [ByteString.isEmpty, hlen])]
        exact .patchedNothing hp hfit hlen
      · obtain ⟨pages, hfound, hpages⟩ := hm.pagesBetween_spec hfit hlen
        -- the operating system is asked to open the pages, and up to twice to close them
        cases hk : k.protect with
        | some reason =>
          rw [run_patch hp hfit hlen hfound,
            Action.run_bind_of_error (run_overwrite_of_denied hpages.holdsPages hk _)]
          exact .openDenied hp hfit hlen hpages hk
        | none =>
          cases hfirst : k.afterProtect.protect with
          | none => exact step_patch_of_closing hp hfit hlen hfound hpages hk (.atOnce hfirst) _
          | some first =>
            cases hsecond : k.afterProtect.afterProtect.protect with
            | none =>
              exact step_patch_of_closing hp hfit hlen hfound hpages hk
                (.secondTry hfirst hsecond) _
            | some second =>
              have hlost := run_close_of_lost (m := m.copied offset bytes)
                (hpages.holdsPages.replaced offset bytes) hfirst hsecond
              rw [run_patch hp hfit hlen hfound,
                Action.run_bind_of_ok (run_overwrite_of_granted hfit hpages.holdsPages hk),
                Action.run_bind_of_error hlost]
              exact .lost hp hfit hlen hpages hk hfirst hsecond
    · rw [run_patch_of_not_fits hp hfit]
      exact .refused (by simp [Operation.refusal?, hp, hfit])

/-- **An operation ends in one of the listed ways.** -/
theorem step_perform (hm : m.WellFormed) (backend : Backend) (k : Kernel) (op : Operation) :
    Step backend m k op (op.perform backend m k) := by
  cases op with
  | write offset bytes => exact step_write backend m k offset bytes
  | publish => exact step_publish hm backend k
  | patch offset bytes => exact step_patch hm backend k offset bytes

/-- An operation keeps the memory well-formed. -/
theorem Step.wellFormed {backend : Backend} {op : Operation} {o : Outcome CodeMemory Unit}
    (h : Step backend m k op o) (hm : m.WellFormed) : o.state.WellFormed := by
  cases h with
  | refused | publishDenied | patchedNothing | openDenied => exact hm
  | publishedEmpty | published => exact hm.withPublished true
  | written hp hfit => exact hm.copied hfit
  | overflowed hp hfit => exact hm.copied hfit
  | patched hp hfit => exact hm.copied hfit
  | lost hp hfit => exact (hm.copied hfit).withPublished false

/-- An operation leaves the memory where it is. -/
theorem Step.region_eq {backend : Backend} {op : Operation} {o : Outcome CodeMemory Unit}
    (h : Step backend m k op o) : o.state.mapping.region = m.mapping.region := by
  cases h <;> rfl

/-- An operation that is turned down at once does nothing. -/
theorem Step.eq_of_refusal? {backend : Backend} {op : Operation} {o : Outcome CodeMemory Unit}
    (hstep : Step backend m k op o) {e : Error} (hop : op.refusal? m = some e) :
    o = ⟨.error (.error e), m, k, []⟩ := by
  cases hstep with
  | refused h =>
    rw [hop] at h
    cases h
    rfl
  | written hp hfit | patchedNothing hp hfit | openDenied hp hfit | lost hp hfit
    | overflowed hp hfit | patched hp hfit => simp [Operation.refusal?, hp, hfit] at hop
  | publishedEmpty hp | publishDenied hp | published hp =>
    simp [Operation.refusal?, hp] at hop

/-- No operation breaks a precondition. -/
theorem result_perform_ne_violation (hm : m.WellFormed) (backend : Backend) (k : Kernel)
    (op : Operation) (v : Violation) :
    (op.perform backend m k).result ≠ .error (.violation v) := by
  have hstep := step_perform hm backend k op
  generalize op.perform backend m k = o at hstep
  intro h
  cases hstep <;> cases h

end CodeMemory

end JitSupport
