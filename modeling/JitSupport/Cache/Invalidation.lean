import JitSupport.System.Action

/-!
# Making code visible

Code that was just written is made visible to instruction fetch for a range, for a
pair of addresses, or for all pages that a number of bytes touch.  Each way reports
the range and then leaves the work to the platform, except that an empty range needs
no work.  The order of a pair of addresses is a precondition that is looked at, as in a
build with assertions for debugging.

## Main definitions

* `Cache.invalidate` — for a range.
* `Cache.invalidateBetween` — for two addresses, which must be in order.
* `Cache.invalidatePages` — for the pages that some bytes touch.
* `Cache.flush` — for two addresses from elsewhere, where the wrong order is only reported.
-/

namespace JitSupport.Cache

variable {σ : Type}

/-- Hands a range to the platform. -/
def maintain (backend : Backend) (range : MemoryRange) : Action σ Unit := do
  let ops ← backend.flush range.start range.stop
  Action.emit (.flush range.start range.stop ops)

/-- Makes the code in a range visible. -/
def invalidate (backend : Backend) (range : MemoryRange) : Action σ Unit := do
  Action.report (.invalidated range backend.hasFlush)
  if range.isEmpty then pure () else maintain backend range

/-- Makes the code from `start` up to `stop` visible. -/
def invalidateBetween (backend : Backend) (start stop : UInt64) : Action σ Unit :=
  if h : start ≤ stop then invalidate backend ⟨start, stop, h⟩
  else Action.stop (.invertedAddresses start stop)

/-- The pages that `len` bytes from `start` on touch. -/
def touchedPages (start len : UInt64) : Except Failure MemoryRange := do
  let bytes ← MemoryRange.ofLength start len
  bytes.pageAligned Page.size

/-- Makes the code in all pages visible that `len` bytes from `start` on touch. -/
def invalidatePages (backend : Backend) (start len : UInt64) : Action σ Unit := do
  let pages ← touchedPages start len
  Action.report (.pagesInvalidated pages)
  invalidate backend pages

/-- Makes the code from `start` up to `stop` visible; reports the wrong order and does
nothing about it. -/
def flush (backend : Backend) (start stop : UInt64) : Action σ Unit :=
  if stop < start then Action.report (.flushInverted start stop)
  else invalidateBetween backend start stop

end JitSupport.Cache
