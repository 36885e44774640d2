import JitSupport.Cache.Invalidation
import JitSupport.Mapping

/-!
# Memory for code

Code is written into memory that can be read and written, and then published:
the memory becomes executable, stops being writable, and the code in it is made
visible to instruction fetch.  Published code can still be patched.  A patch opens
the pages it touches, copies its bytes, and closes the pages again.  Should closing
them fail twice, the memory is no longer published; publishing it once more closes
all pages.

## Main definitions

* `CodeMemory` — a mapping, how far it was written, and whether it is published.
* `CodeMemory.reserve`, `CodeMemory.release` — its beginning and its end.
* `CodeMemory.write`, `CodeMemory.publish`, `CodeMemory.patch` — what is done with it.
* `CodeMemory.Operation` — the same as data, and `CodeMemory.run` for many of them.
-/

namespace JitSupport

open Text

/-- Memory that code is written into and executed from. -/
structure CodeMemory where
  /-- The memory. -/
  mapping : Mapping
  /-- How far the memory was written. -/
  len : UInt64
  /-- Whether the code may be executed. -/
  published : Bool
  deriving Repr

namespace CodeMemory

variable {σ : Type}

/-- The number of bytes that fit. -/
def capacity (m : CodeMemory) : UInt64 := m.mapping.size

/-- Whether nothing was written yet. -/
def isEmpty (m : CodeMemory) : Bool := m.len == 0

/-- The bytes written so far. -/
def text (m : CodeMemory) : Except Violation ByteString := m.mapping.slice 0 m.len

/-- The addresses of the bytes written so far. -/
def range (m : CodeMemory) : Except Violation MemoryRange := m.mapping.region.part 0 m.len

/-- The end of `count` bytes at an offset, when they fit: neither the count nor the end may
leave the word. -/
def bound (m : CodeMemory) (offset : UInt64) (count : Nat) : Except Error UInt64 :=
  match ((UInt64.ofNat? count).bind offset.checkedAdd).filter (· ≤ m.capacity) with
  | some stop => .ok stop
  | none => .error (.outOfBounds offset count m.capacity)

section Bound

variable {m : CodeMemory} {offset stop : UInt64} {count : Nat}

/-- The end of some bytes is where the numbers say, if that is not behind the capacity. -/
theorem filter_stop_eq_some_iff :
    ((UInt64.ofNat? count).bind offset.checkedAdd).filter (· ≤ m.capacity) = some stop ↔
      stop.toNat = offset.toNat + count ∧ stop ≤ m.capacity := by
  rw [Option.filter_eq_some_iff, decide_eq_true_iff, UInt64.bind_checkedAdd_eq_some_iff]

theorem bound_eq_ok_iff :
    m.bound offset count = .ok stop ↔
      stop.toNat = offset.toNat + count ∧ stop ≤ m.capacity := by
  rw [← filter_stop_eq_some_iff, bound]
  split
  next h => rw [h, Except.ok.injEq, Option.some.injEq]
  next h => rw [h]; exact ⟨nofun, nofun⟩

theorem bound_of_not_fits (h : ¬ offset.toNat + count ≤ m.capacity.toNat) :
    m.bound offset count = .error (.outOfBounds offset count m.capacity) := by
  rw [bound]
  split
  next hstop =>
    obtain ⟨hsum, hle⟩ := filter_stop_eq_some_iff.mp hstop
    rw [UInt64.le_iff_toNat_le, hsum] at hle
    exact absurd hle h
  next => rfl

end Bound

/-! ### Beginning and end -/

/-- Memory for at least `capacity` bytes, in whole pages. -/
def reserve (capacity : UInt64) : Action σ CodeMemory := do
  match ← Page.ceil capacity Page.size with
  | none => Action.refuse (.addressOverflow 0 capacity)
  | some size => return ⟨← Mapping.create size, 0, false⟩

/-- Gives the memory back. -/
def release (m : CodeMemory) : Action σ Unit := m.mapping.release

/-! ### Writing and publishing -/

/-- Copies bytes to an offset of memory that is not published. -/
def write (offset : UInt64) (bytes : ByteString) : Action CodeMemory Unit := do
  let m ← get
  if m.published then Action.refuse .alreadyPublished
  else
    let stop ← m.bound offset bytes.length
    let mapping ← m.mapping.store offset stop bytes
    set { m with mapping, len := max m.len stop }

/-- Closes all pages, and makes the code visible. -/
def closeAll (backend : Backend) (m : CodeMemory) : Action σ Unit :=
  if m.mapping.isEmpty then pure ()
  else do
    m.mapping.makeExecutable 0 m.capacity
    Cache.invalidate backend (← m.range)

/-- Makes the memory executable and the code in it visible. -/
def publish (backend : Backend) : Action CodeMemory Unit := do
  let m ← get
  if m.published then Action.refuse .alreadyPublished
  else
    if m.isEmpty then Action.report .nothingToPublish else pure ()
    m.closeAll backend
    set { m with published := true }
    Action.report (.published (← m.range))

/-! ### Patching -/

/-- The pages that the bytes from `offset` up to `stop` touch. -/
def pagesBetween (offset stop : UInt64) : Except Failure MemoryRange := do
  let bytes ← MemoryRange.ofBounds offset stop
  bytes.pageAligned Page.size

/-- Opens pages and copies bytes into them. -/
def overwrite (pages : MemoryRange) (offset stop : UInt64) (bytes : ByteString) :
    Action CodeMemory Unit := do
  let m ← get
  m.mapping.makeWritable pages.start pages.stop
  let mapping ← m.mapping.store offset stop bytes
  set { m with mapping, len := max m.len stop }

/-- Closes pages, with a second try. If both fail, the memory is no longer published. -/
def close (pages : MemoryRange) : Action CodeMemory Unit := do
  let m ← get
  match ← Action.attempt (Action.twice (m.mapping.makeExecutable pages.start pages.stop)) with
  | .ok () => pure ()
  | .error e =>
    Action.report (.protectionLost e pages)
    set { m with published := false }
    Action.refuse e

/-- Copies bytes to an offset of published memory. -/
def patch (backend : Backend) (offset : UInt64) (bytes : ByteString) : Action CodeMemory Unit := do
  let m ← get
  if !m.published then Action.refuse .notPublished
  else
    let stop ← m.bound offset bytes.length
    if bytes.isEmpty then pure ()
    else
      let pages ← pagesBetween offset stop
      overwrite pages offset stop bytes
      close pages
      Cache.invalidatePages backend (m.mapping.region.start + offset) (UInt64.ofNat bytes.length)
      Action.report (.patched offset bytes.length)

/-! ### Operations as data -/

/-- Something to do with memory for code. -/
inductive Operation
  /-- Copy bytes to an offset before publishing. -/
  | write (offset : UInt64) (bytes : ByteString)
  /-- Make the code executable. -/
  | publish
  /-- Copy bytes to an offset after publishing. -/
  | patch (offset : UInt64) (bytes : ByteString)
  deriving DecidableEq, Repr

/-- Does one thing. -/
def Operation.perform (backend : Backend) : Operation → Action CodeMemory Unit
  | write offset bytes => CodeMemory.write offset bytes
  | publish => CodeMemory.publish backend
  | patch offset bytes => CodeMemory.patch backend offset bytes

/-- Does one thing after another, whether or not they are turned down. -/
def run (backend : Backend) : List Operation → Action CodeMemory Unit
  | [] => pure ()
  | op :: ops => do
    let _ ← Action.attempt (op.perform backend)
    run backend ops

/-! ### Text -/

/-- The parts of the memory. -/
def doc (style : AddressStyle) (m : CodeMemory) : Doc :=
  .record "CodeMemory"
    [("mmap", m.mapping.doc style), ("len", .text (Decimal.encode m.len)),
      ("published", .text (toString m.published))]

end CodeMemory

end JitSupport
