import JitSupport.Cache.Line
import JitSupport.Failure

/-!
# Cache maintenance

Freshly written code may still be stale in the instruction cache.  How it is
made visible depends on the platform.  Some caches are kept coherent by the
hardware and need nothing; some platforms offer a call that takes a range; and on
others the lines are cleaned and invalidated one by one, with barriers between.

Maintenance by lines goes through two phases: data lines are cleaned so that memory
holds what was written, then instruction lines are invalidated so that they are
fetched anew.  The cache type register gives the line sizes, and says which of the
phases the hardware makes unnecessary.

## Main definitions

* `CacheOp` — one step of maintenance.
* `CacheType` — the cache type register and its fields.
* `Backend` — the platforms, and `Backend.flush`, what each of them does for a range.
-/

namespace JitSupport

/-- One step of cache maintenance. -/
inductive CacheOp
  /-- Read the cache type register. -/
  | readCacheType
  /-- Write the data line at an address back to memory. -/
  | cleanData (line : UInt64)
  /-- Discard the instruction line at an address. -/
  | invalidateInstructions (line : UInt64)
  /-- Wait until the maintenance before it is complete. -/
  | dataBarrier
  /-- Discard the instructions that were already fetched. -/
  | instructionBarrier
  /-- Hand a range to the platform, as a start and a length. -/
  | discardRange (start len : UInt64)
  /-- Hand a range to the platform, as two ends. -/
  | clearRange (start stop : UInt64)
  deriving DecidableEq, Repr

/-! ### The cache type register -/

/-- The cache type register. -/
structure CacheType where
  /-- The bits of the register. -/
  bits : UInt64
  deriving DecidableEq, Repr

namespace CacheType

/-- The size of data lines, in bits 16 to 19. -/
def dataLine (type : CacheType) : LineSize := .ofField (type.bits >>> 16)

/-- The size of instruction lines, in bits 0 to 3. -/
def instructionLine (type : CacheType) : LineSize := .ofField type.bits

/-- Whether data lines need no cleaning, bit 28. -/
def dataCoherent (type : CacheType) : Bool := (type.bits >>> 28) &&& 1 == 1

/-- Whether instruction lines need no invalidation, bit 29. -/
def instructionCoherent (type : CacheType) : Bool := (type.bits >>> 29) &&& 1 == 1

/-- Cleaning of the data lines of a range. -/
def cleaning (type : CacheType) (start stop : UInt64) : List CacheOp :=
  if type.dataCoherent then [] else (type.dataLine.lines start stop).map .cleanData

/-- Invalidation of the instruction lines of a range, and the wait for it. -/
def invalidation (type : CacheType) (start stop : UInt64) : List CacheOp :=
  if type.instructionCoherent then []
  else (type.instructionLine.lines start stop).map .invalidateInstructions ++ [.dataBarrier]

end CacheType

/-! ### Platforms -/

/-- The ways in which a platform lets code be made visible. -/
inductive Backend
  /-- The hardware keeps the instruction cache coherent. -/
  | coherent
  /-- Lines are maintained one by one. -/
  | aarch64 (type : CacheType)
  /-- A call takes a start and a length. -/
  | apple
  /-- A call takes the two ends. -/
  | clearCache
  deriving DecidableEq, Repr

namespace Backend

/-- The platform of the host. -/
def host : Backend := coherent

/-- Whether the platform does anything at all. -/
def hasFlush : Backend → Bool
  | coherent => false
  | aarch64 _ | apple | clearCache => true

/-- What the platform does for the addresses from `start` up to `stop`. -/
def flush (backend : Backend) (start stop : UInt64) : Except Violation (List CacheOp) :=
  match backend with
  | coherent => .ok []
  | aarch64 type =>
    .ok (.readCacheType :: type.cleaning start stop ++
      .dataBarrier :: type.invalidation start stop ++ [.instructionBarrier])
  | apple =>
    if start ≤ stop then .ok [.discardRange start (stop - start)] else .error .negativeLength
  | clearCache => .ok [.clearRange start stop]

theorem flush_aarch64 (type : CacheType) (start stop : UInt64) :
    flush (.aarch64 type) start stop =
      .ok (.readCacheType :: type.cleaning start stop ++
        .dataBarrier :: type.invalidation start stop ++ [.instructionBarrier]) := rfl

end Backend

end JitSupport
