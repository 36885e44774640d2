import JitSupport.Table.Basic

/-!
# Edits of a table

A change of one key, taken as data.  Each edit answers what the key was associated
with before, so a list of edits answers a list of handles.

## Main definitions

* `ModuleTable.Edit` — an insertion or a removal.
* `ModuleTable.edit`, `ModuleTable.edits` — a table after one edit, and after several.
-/

namespace JitSupport.ModuleTable

/-- A change of one key. -/
inductive Edit
  /-- Associate the key with a handle. -/
  | insert (key : UInt64) (handle : ModuleHandle)
  /-- Associate the key with nothing. -/
  | remove (key : UInt64)
  deriving DecidableEq, Repr

/-- The key that changes. -/
def Edit.key : Edit → UInt64
  | insert key _ => key
  | remove key => key

/-- The handle that a table has for the key afterwards. -/
def Edit.handle? : Edit → Option ModuleHandle
  | insert _ handle => some handle
  | remove _ => none

/-- The handle that the key had before, and the table after the edit. -/
def edit (t : ModuleTable) : Edit → Option ModuleHandle × ModuleTable
  | .insert key handle => t.insert key handle
  | .remove key => t.remove key

/-- The answers of edits one after another, and the table after all of them. -/
def edits (t : ModuleTable) : List Edit → List (Option ModuleHandle) × ModuleTable
  | [] => ([], t)
  | e :: es =>
    let first := t.edit e
    let others := first.2.edits es
    (first.1 :: others.1, others.2)

@[simp] theorem edits_nil (t : ModuleTable) : t.edits [] = ([], t) := rfl

@[simp] theorem edits_cons (t : ModuleTable) (e : Edit) (es : List Edit) :
    t.edits (e :: es) = ((t.edit e).1 :: ((t.edit e).2.edits es).1, ((t.edit e).2.edits es).2) :=
  rfl

theorem edits_append (t : ModuleTable) (es others : List Edit) :
    (t.edits (es ++ others)).2 = ((t.edits es).2.edits others).2 := by
  induction es generalizing t with
  | nil => rfl
  | cons e es ih => exact ih _

@[simp] theorem edit_fst (t : ModuleTable) (e : Edit) : (t.edit e).1 = t.get? e.key := by
  cases e <;> rfl

theorem get?_edit (t : ModuleTable) (e : Edit) (k : UInt64) :
    (t.edit e).2.get? k = if k = e.key then e.handle? else t.get? k := by
  cases e with
  | insert key handle => exact get?_insert t key handle k
  | remove key => exact get?_remove t key k

end JitSupport.ModuleTable
