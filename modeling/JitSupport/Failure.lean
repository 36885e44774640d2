import JitSupport.Text.Decimal
import JitSupport.Text.Doc
import JitSupport.Text.Hex

/-!
# Failures

An operation fails in one of two ways.  An `Error` is an answer: the request
could not be met, and the caller may go on.  A `Violation` is a broken
precondition: the caller asked for something that must never be asked for.

Every precondition is looked at here, also one that a build without assertions for
debugging leaves unlooked at: the page size, the order of two addresses, the size of
a mapping, and differences of words that would go below zero.

## Main definitions

* `Errno` — the reasons for which the operating system turns a call down.
* `Error` — requests that could not be met.
* `Violation` — preconditions that did not hold.
* `Failure` — either of the two.
-/

namespace JitSupport

open Text

/-! ### Reasons of the operating system -/

/-- A reason for which the operating system turns a call down. -/
structure Errno where
  /-- The number of the reason. -/
  code : UInt64
  /-- Zero is the number of a call that was carried out. -/
  code_pos : 0 < code
  deriving DecidableEq, Repr

namespace Errno

def notPermitted : Errno := ⟨1, by decide⟩

def tryAgain : Errno := ⟨11, by decide⟩

def outOfMemory : Errno := ⟨12, by decide⟩

def accessDenied : Errno := ⟨13, by decide⟩

def invalidArgument : Errno := ⟨22, by decide⟩

/-- What went wrong, in words.  Of a reason that has no name here only the number is told. -/
def description (e : Errno) : String :=
  if e = notPermitted then "Operation not permitted"
  else if e = tryAgain then "Resource temporarily unavailable"
  else if e = outOfMemory then "Cannot allocate memory"
  else if e = accessDenied then "Permission denied"
  else if e = invalidArgument then "Invalid argument"
  else s!"Unknown error {Decimal.encode e.code}"

/-- The family of the reason. -/
def family (e : Errno) : String :=
  if e = notPermitted ∨ e = accessDenied then "PermissionDenied"
  else if e = tryAgain then "WouldBlock"
  else if e = outOfMemory then "OutOfMemory"
  else if e = invalidArgument then "InvalidInput"
  else "Uncategorized"

/-- The description with the number. -/
def message (e : Errno) : String :=
  s!"{e.description} (os error {Decimal.encode e.code})"

/-- The parts of the reason. -/
def doc (e : Errno) : Doc :=
  .record "Os"
    [("code", .text (Decimal.encode e.code)), ("kind", .text e.family),
      ("message", .text s!"\"{e.description}\"")]

end Errno

/-! ### Requests that could not be met -/

/-- A request that could not be met. -/
inductive Error
  /-- A range was to end before it starts. -/
  | invertedRange (start stop : UInt64)
  /-- `len` bytes from `base` on do not fit in the address space. -/
  | addressOverflow (base len : UInt64)
  /-- `len` bytes at `offset` do not fit in the capacity. -/
  | outOfBounds (offset : UInt64) (len : Nat) (capacity : UInt64)
  /-- The code was published before. -/
  | alreadyPublished
  /-- The code is still to be published. -/
  | notPublished
  /-- The operating system turned a call on virtual memory down. -/
  | virtualMemory (reason : Errno)
  deriving DecidableEq, Repr

namespace Error

/-- The name of the kind of error. -/
def name : Error → String
  | invertedRange .. => "InvertedRange"
  | addressOverflow .. => "AddressOverflow"
  | outOfBounds .. => "OutOfBounds"
  | alreadyPublished => "AlreadyPublished"
  | notPublished => "NotPublished"
  | virtualMemory .. => "Mmap"

/-- What went wrong, in words. -/
def message : Error → String
  | invertedRange start stop =>
    s!"inverted memory range {Decimal.encode start}..{Decimal.encode stop}"
  | addressOverflow base len =>
    s!"address overflow computing {Decimal.encode base} + {Decimal.encode len}"
  | outOfBounds offset len capacity =>
    s!"write of {len} bytes at offset {Decimal.encode offset}" ++
      s!" exceeds capacity {Decimal.encode capacity}"
  | alreadyPublished => "code memory is already published"
  | notPublished => "code memory is not published yet"
  | virtualMemory reason => s!"virtual memory operation failed: {reason.message}"

/-- The parts of the error. -/
def doc (e : Error) : Doc :=
  match e with
  | invertedRange start stop =>
    .record e.name [("begin", .text (Decimal.encode start)), ("end", .text (Decimal.encode stop))]
  | addressOverflow base len =>
    .record e.name [("base", .text (Decimal.encode base)), ("len", .text (Decimal.encode len))]
  | outOfBounds offset len capacity =>
    .record e.name
      [("offset", .text (Decimal.encode offset)), ("len", .text (toString len)),
        ("capacity", .text (Decimal.encode capacity))]
  | alreadyPublished => .text e.name
  | notPublished => .text e.name
  | virtualMemory reason => .wrapped e.name reason.doc

end Error

/-! ### Preconditions that did not hold -/

/-- A precondition that did not hold. -/
inductive Violation
  /-- A page size was no power of two. -/
  | pageSize
  /-- Two addresses were given in the wrong order. -/
  | invertedAddresses (start stop : UInt64)
  /-- The length of a range that ends before it starts was asked for. -/
  | negativeLength
  /-- A part of a mapping was to end before it starts. -/
  | partInverted
  /-- A part of a mapping was to end behind the mapping. -/
  | partOutside
  /-- Bytes were to be copied to a part of another length. -/
  | lengthMismatch (given : Nat) (room : UInt64)
  /-- The protection was to change from the middle of a page on. -/
  | protectionUnaligned (rest : UInt64)
  /-- A mapping was to have a broken page at its end. -/
  | mappingUnaligned (rest : UInt64)
  /-- A table was to have room for more entries than fit in the address space. -/
  | tableCapacity
  deriving DecidableEq, Repr

/-- What was found in place of the precondition, in words. -/
def Violation.message : Violation → String
  | pageSize => "assertion failed: page_size.is_power_of_two()"
  | invertedAddresses start stop => s!"inverted range {hex start}..{hex stop}"
  | negativeLength => "attempt to subtract with overflow"
  | partInverted => "assertion failed: range.start <= range.end"
  | partOutside => "assertion failed: range.end <= self.len()"
  | lengthMismatch given room =>
    s!"copy_from_slice: source slice length ({given})" ++
      s!" does not match destination slice length ({Decimal.encode room})"
  | protectionUnaligned rest =>
    "assertion `left == right` failed: changing of protections isn't page-aligned\n  left: " ++
      Decimal.encode rest ++ "\n right: 0"
  | mappingUnaligned rest =>
    "assertion `left == right` failed\n  left: " ++ Decimal.encode rest ++ "\n right: 0"
  | tableCapacity => "Hash table capacity overflow"

/-! ### Both together -/

/-- Why an operation did not give a result. -/
inductive Failure
  /-- The request could not be met. -/
  | error (e : Error)
  /-- A precondition did not hold. -/
  | violation (v : Violation)
  deriving DecidableEq, Repr

instance : MonadLift (Except Error) (Except Failure) := ⟨Except.mapError .error⟩

instance : MonadLift (Except Violation) (Except Failure) := ⟨Except.mapError .violation⟩

/-! ### One after the other -/

/-- One step after another succeeds if both do. -/
theorem bind_eq_ok_iff {ε α β : Type} {first : Except ε α} {next : α → Except ε β} {b : β} :
    first >>= next = .ok b ↔ ∃ a, first = .ok a ∧ next a = .ok b := by
  cases first with
  | error e => exact ⟨nofun, fun ⟨_, h, _⟩ => nomatch h⟩
  | ok a => exact ⟨fun h => ⟨a, rfl, h⟩, fun ⟨_, rfl, h⟩ => h⟩

end JitSupport
