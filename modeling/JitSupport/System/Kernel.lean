import JitSupport.MemoryRange
import JitSupport.Protection

/-!
# The operating system

Three calls reach the operating system: one maps memory, one changes the
protection of a part of a mapping, and one gives memory back.  Each may be turned
down for a reason of its own.  All that the rest of the library has to know about
the operating system is which calls it turns down, and where it puts a mapping.

## Main definitions

* `SystemCall` — the calls.
* `Kernel` — what the operating system is going to answer.
* `Kernel.map`, `Kernel.protect`, `Kernel.unmap` — one answer of each kind.
-/

namespace JitSupport

/-- A call to the operating system.  Offsets count from the start of the mapping. -/
inductive SystemCall
  /-- Map fresh memory, filled with zeros and shared with nobody. -/
  | map (length : UInt64) (protection : Protection)
  /-- Change the protection of every page from `offset` on that `length` bytes touch. -/
  | protect (offset length : UInt64) (protection : Protection)
  /-- Give memory back. -/
  | unmap (offset length : UInt64)
  deriving DecidableEq, Repr

/-- The fate of a call: the reason for which it is turned down, or `none` when it is
carried out. -/
abbrev Verdict := Option Errno

/-- What the operating system is going to answer.  Verdicts are used up one by one, by the
calls of their kind; when none is left, calls are carried out. -/
structure Kernel where
  /-- The free addresses; a mapping takes the first of them. -/
  free : MemoryRange
  /-- The fate of the next calls that map memory. -/
  mapVerdicts : List Verdict := []
  /-- The fate of the next calls that change protections. -/
  protectVerdicts : List Verdict := []
  /-- The fate of the next calls that give memory back. -/
  unmapVerdicts : List Verdict := []
  deriving Repr

namespace Kernel

/-- The next verdict of a queue. -/
def next (verdicts : List Verdict) : Verdict := verdicts.head?.join

@[simp] theorem next_nil : next [] = none := rfl

@[simp] theorem next_cons (v : Verdict) (verdicts : List Verdict) : next (v :: verdicts) = v := rfl

/-- The answer to a call that maps memory.  There has to be room for it. -/
def map (k : Kernel) (length : UInt64) : Except Errno MemoryRange :=
  match next k.mapVerdicts with
  | some reason => .error reason
  | none =>
    match k.free.take? length with
    | some region => .ok region
    | none => .error .outOfMemory

/-- The answer to a call that changes a protection. -/
def protect (k : Kernel) : Verdict := next k.protectVerdicts

/-- The answer to a call that gives memory back. -/
def unmap (k : Kernel) : Verdict := next k.unmapVerdicts

/-- The operating system after a call that maps memory. -/
def afterMap (k : Kernel) : Kernel := { k with mapVerdicts := k.mapVerdicts.tail }

/-- The operating system after a call that changes a protection. -/
def afterProtect (k : Kernel) : Kernel := { k with protectVerdicts := k.protectVerdicts.tail }

/-- The operating system after a call that gives memory back. -/
def afterUnmap (k : Kernel) : Kernel := { k with unmapVerdicts := k.unmapVerdicts.tail }

end Kernel

end JitSupport
