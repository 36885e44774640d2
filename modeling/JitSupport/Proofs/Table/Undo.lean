import JitSupport.Table.Edit
import JitSupport.Table.Raw

/-!
# Taking changes back

A change of a table is answered with what the key had before, which is all that it takes to take
the change back: a handle is inserted again, and where there was nothing the key is removed.  So
the answers to changes, whichever they were, are a complete log.  Gone through from the last one
to the first one, it leads back to the table of the beginning, past keys that were changed again
and again, removals of keys that were not there, and handles that took the place of themselves.

Callers from outside are answered with plain addresses.  Nothing is lost there, because the null
address never stands for a handle.

## Main definitions

* `ModuleTable.Edit.restoring` — the edit that gives a key back what it had.
* `ModuleTable.Edit.undoing` — the edits that take others back, made from their answers.
* `ModuleTable.Raw.edits` — edits from outside, one after another.

## Main results

* `ModuleTable.edit_restoring` — an edit is taken back by what it was answered.
* `ModuleTable.edits_undoing` — so are edits one after another.
* `ModuleTable.Raw.edits_some` — edits from outside are edits from inside.
* `ModuleTable.undoing_restores` — **the answers to changes are a complete undo log, inside and
  outside.**
-/

namespace JitSupport.ModuleTable

/-! ### From inside -/

/-- The edit that gives a key back what it had: a handle, or nothing. -/
def Edit.restoring (key : UInt64) : Option ModuleHandle → Edit
  | some handle => .insert key handle
  | none => .remove key

/-- The edits that take others back, the last one first.  Of each edit they only take its key and
its answer. -/
def Edit.undoing (es : List Edit) (answers : List (Option ModuleHandle)) : List Edit :=
  (es.zipWith (fun e answer => restoring e.key answer) answers).reverse

@[simp] theorem Edit.key_restoring (key : UInt64) (answer : Option ModuleHandle) :
    (restoring key answer).key = key := by
  cases answer <;> rfl

@[simp] theorem Edit.handle?_restoring (key : UInt64) (answer : Option ModuleHandle) :
    (restoring key answer).handle? = answer := by
  cases answer <;> rfl

@[simp] theorem Edit.undoing_cons (e : Edit) (es : List Edit) (answer : Option ModuleHandle)
    (answers : List (Option ModuleHandle)) :
    undoing (e :: es) (answer :: answers) = undoing es answers ++ [restoring e.key answer] := by
  rw [undoing, List.zipWith_cons_cons, List.reverse_cons, undoing]

/-- An edit is taken back by what it was answered. -/
theorem edit_restoring (t : ModuleTable) (e : Edit) :
    ((t.edit e).2.edit (.restoring e.key (t.edit e).1)).2 = t := by
  apply ext_get?
  intro key
  rw [get?_edit, Edit.key_restoring, Edit.handle?_restoring, edit_fst, get?_edit]
  by_cases hkey : key = e.key
  · rw [if_pos hkey, hkey]
  · rw [if_neg hkey, if_neg hkey]

/-- Edits are taken back by what they were answered, the last one first. -/
theorem edits_undoing (t : ModuleTable) (es : List Edit) :
    ((t.edits es).2.edits (Edit.undoing es (t.edits es).1)).2 = t := by
  induction es generalizing t with
  | nil => rfl
  | cons e es ih =>
    rw [edits_cons, Edit.undoing_cons, edits_append, ih]
    exact edit_restoring t e

/-! ### From outside -/

namespace Raw

/-- What an edit does that is made from outside, through a pointer that may be null. -/
def edit (table : Option ModuleTable) : Edit → UInt64 × Option ModuleTable
  | .insert key handle => insert table key handle.address
  | .remove key => remove table key

/-- The answers to edits from outside, one after another, and what the pointer leads to after all
of them. -/
def edits (table : Option ModuleTable) : List Edit → List UInt64 × Option ModuleTable
  | [] => ([], table)
  | e :: es =>
    let first := edit table e
    let others := edits first.2 es
    (first.1 :: others.1, others.2)

/-- An edit from outside is an edit from inside. -/
theorem edit_some (t : ModuleTable) (e : Edit) :
    edit (some t) e = (ModuleHandle.toAddress (t.edit e).1, some (t.edit e).2) := by
  cases e with
  | insert key handle => exact insert_address t key handle
  | remove key => exact remove_some t key

/-- Edits from outside are edits from inside, with addresses for answers. -/
theorem edits_some (t : ModuleTable) (es : List Edit) :
    edits (some t) es = ((t.edits es).1.map ModuleHandle.toAddress, some (t.edits es).2) := by
  induction es generalizing t with
  | nil => rfl
  | cons e es ih =>
    rw [edits, edit_some, ih]
    rfl

end Raw

/-! ### Both -/

/-- **The answers to changes are a complete undo log.**  Whatever was changed in a table, going
through the answers from the last one to the first one leads back to it.  The same is true from
outside, where the null address is read as nothing. -/
theorem undoing_restores (t : ModuleTable) (es : List Edit) :
    ((t.edits es).2.edits (Edit.undoing es (t.edits es).1)).2 = t ∧
      let (answers, table) := Raw.edits (some t) es
      (Raw.edits table (Edit.undoing es (answers.map ModuleHandle.ofAddress?))).2 = some t := by
  have hinside := edits_undoing t es
  refine ⟨hinside, ?_⟩
  rw [Raw.edits_some]
  have hanswers : ((t.edits es).1.map ModuleHandle.toAddress).map ModuleHandle.ofAddress? =
      (t.edits es).1 := by
    rw [List.map_map]
    exact List.map_id'' ModuleHandle.ofAddress?_toAddress _
  show (Raw.edits (some (t.edits es).2) _).2 = some t
  rw [hanswers, Raw.edits_some, hinside]

end JitSupport.ModuleTable
