import JitSupport.Cells
import JitSupport.System.Action

/-!
# Mappings

A mapping is memory from the operating system, in whole pages.  A part of it is
named by two offsets; a part that is out of order or reaches behind the mapping is
never touched, and bytes are only copied to a part of their own length.  The empty
mapping takes no memory, and nothing is ever asked of the operating system for it.

Copying bytes is told by the trace and not checked against the protection of the
pages: that the hardware stops a copy to a page that must not be written is left out
here.  Which pages are open when bytes are copied is a statement about the trace.

## Main definitions

* `Mapping` — a region of addresses with its contents.
* `Mapping.create`, `Mapping.release` — its beginning and its end.
* `Mapping.slice`, `Mapping.store` — reading and writing a part.
* `Mapping.protect` — changing the protection of the pages of a part.
-/

namespace JitSupport

open Text

/-- Memory from the operating system. -/
structure Mapping where
  /-- Where the memory is. -/
  region : MemoryRange
  /-- What it holds. -/
  cells : Cells
  deriving Repr

namespace Mapping

variable {σ : Type}

/-- The number of bytes. -/
def size (m : Mapping) : UInt64 := m.region.len

/-- Whether there are no bytes. -/
def isEmpty (m : Mapping) : Bool := m.region.isEmpty

/-- The mapping without memory; its address points to nothing. -/
def empty : Mapping := ⟨⟨1, 1, by decide⟩, .zero⟩

/-! ### Beginning and end -/

/-- Maps memory for reading and writing.  The size has to be a whole number of pages.  Memory
at the null address cannot be held: it stays where it is, and is reported as no memory. -/
def create (size : UInt64) : Action σ Mapping :=
  if size % Page.size ≠ 0 then Action.stop (.mappingUnaligned (size % Page.size))
  else if size = 0 then pure empty
  else do
    let region ← Action.map size
    if region.start = 0 then Action.refuse (.virtualMemory .outOfMemory)
    else do
      Action.report (.mapped region.start size)
      return ⟨region, .zero⟩

/-- Gives the memory back.  A failure is reported, and there is nothing else to be done. -/
def release (m : Mapping) : Action σ Unit :=
  if m.isEmpty then pure ()
  else do
    match ← Action.unmap 0 m.size with
    | none => pure ()
    | some reason => Action.report (.unmapFailed reason)

/-! ### Contents -/

/-- The bytes of a part. -/
def slice (m : Mapping) (first last : UInt64) : Except Violation ByteString := do
  let _ ← m.region.part first last
  return m.cells.read first.toNat (last.toNat - first.toNat)

/-- The mapping with the bytes of a part replaced by as many others. -/
def store (m : Mapping) (first last : UInt64) (bytes : ByteString) : Action σ Mapping := do
  let _ ← m.region.part first last
  if bytes.length ≠ (last - first).toNat then
    Action.stop (.lengthMismatch bytes.length (last - first))
  else do
    Action.emit (.store first bytes)
    return { m with cells := m.cells.write first.toNat bytes }

/-! ### Protection -/

/-- Changes the protection of the pages of a part, which has to start with a page. -/
def protect (m : Mapping) (first last : UInt64) (protection : Protection) : Action σ Unit := do
  let _ ← m.region.part first last
  if first % Page.size ≠ 0 then Action.stop (.protectionUnaligned (first % Page.size))
  else if first = last then pure ()
  else do
    Action.protect first (last - first) protection
    Action.report (.protectionChanged first last protection)

/-- Lets the pages of a part be executed, and no longer be written. -/
def makeExecutable (m : Mapping) (first last : UInt64) : Action σ Unit :=
  m.protect first last .readExecute

/-- Lets the pages of a part be written, and no longer be executed. -/
def makeWritable (m : Mapping) (first last : UInt64) : Action σ Unit :=
  m.protect first last .readWrite

/-! ### Text -/

/-- The parts of the mapping. -/
def doc (style : AddressStyle) (m : Mapping) : Doc :=
  .record "Mmap"
    [("memory", .record "Pointer"
      [("addr", .text (style.address m.region.start)),
        ("metadata", .text (Decimal.encode m.size))])]

end Mapping

end JitSupport
