/-!
# Page protections

What may be done with the bytes of a page: read them, write them, fetch them as
instructions.  Memory for code is either written or executed, never both at once.

## Main definitions

* `Protection` — the rights on a page.
* `Protection.readWrite`, `Protection.readExecute` — the two protections of code memory.
-/

namespace JitSupport

/-- The rights on a page. -/
structure Protection where
  /-- Bytes may be read. -/
  read : Bool
  /-- Bytes may be written. -/
  write : Bool
  /-- Bytes may be fetched as instructions. -/
  execute : Bool
  deriving DecidableEq, Repr

namespace Protection

/-- The protection of memory that is being written. -/
def readWrite : Protection := ⟨true, true, false⟩

/-- The protection of memory that is being executed. -/
def readExecute : Protection := ⟨true, false, true⟩

/-- The rights as a number: one bit each, from reading up. -/
def code (p : Protection) : Nat := p.read.toNat + 2 * p.write.toNat + 4 * p.execute.toNat

/-- The names of the rights. -/
def rights (p : Protection) : List String :=
  [("READ", p.read), ("WRITE", p.write), ("EXEC", p.execute)].filterMap fun (right, granted) =>
    if granted then some right else none

/-- The rights in words. -/
def text (p : Protection) : String := "MprotectFlags(" ++ " | ".intercalate p.rights ++ ")"

end Protection

end JitSupport
