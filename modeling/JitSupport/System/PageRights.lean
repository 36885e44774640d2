import JitSupport.System.Action

/-!
# The rights on a page

The operating system keeps a protection for every page.  None of it has to be kept
here as well: a page has the protection that the last call reaching it gave it, and
the calls are in the trace.  Pages are numbered from the start of the mapping.

## Main definitions

* `SystemCall.protection?` — the protection that a call gives a page.
* `Trace.protection?` — the protection of a page after all that happened.

## Main results

* `Trace.protection?_append` — later calls count before earlier ones.
-/

namespace JitSupport

/-- Whether some of `length` bytes from `offset` on lie in a page. -/
def Page.Touches (offset length : UInt64) (page : Nat) : Prop :=
  offset.toNat < (page + 1) * size.toNat ∧ page * size.toNat < offset.toNat + length.toNat

instance (offset length : UInt64) (page : Nat) : Decidable (Page.Touches offset length page) :=
  inferInstanceAs (Decidable (_ ∧ _))

/-- The protection that a call gives a page, if it reaches the page at all. -/
def SystemCall.protection? (c : SystemCall) (page : Nat) : Option Protection :=
  match c with
  | .map length protection => if Page.Touches 0 length page then some protection else none
  | .protect offset length protection =>
    if Page.Touches offset length page then some protection else none
  | .unmap .. => none

/-- The protection that an entry of a trace gives a page.  A call that is turned down
changes nothing. -/
def Effect.protection? (e : Effect) (page : Nat) : Option Protection :=
  match e with
  | .call c none => c.protection? page
  | _ => none

namespace Trace

/-- The protection of a page: the last one it was given. -/
def protection? (t : Trace) (page : Nat) : Option Protection :=
  match t with
  | [] => none
  | e :: rest => (protection? rest page).or (e.protection? page)

@[simp] theorem protection?_nil (page : Nat) : protection? [] page = none := rfl

@[simp] theorem protection?_cons (e : Effect) (t : Trace) (page : Nat) :
    protection? (e :: t) page = (protection? t page).or (e.protection? page) := rfl

/-- Later calls count before earlier ones. -/
theorem protection?_append (t u : Trace) (page : Nat) :
    protection? (t ++ u) page = (protection? u page).or (protection? t page) := by
  induction t with
  | nil => simp
  | cons e t ih => simp [ih, Option.or_assoc]

end Trace

end JitSupport
