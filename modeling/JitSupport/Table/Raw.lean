import JitSupport.Table.Basic

/-!
# Tables as seen from outside

Callers that cannot hold a table as a value refer to it by a pointer, and to
handles by plain addresses.  There, zero says many things: no table, no handle, and
no answer.  Nothing can be stored under zero, so that an answer of zero never stands
for a handle.

## Main definitions

* `ModuleTable.Raw.insert`, `ModuleTable.Raw.remove` — changes through a pointer that may be null.
* `ModuleTable.Raw.get` — lookup through a pointer that may be null.

## Main results

* `ModuleTable.Raw.insert_zero`, `ModuleTable.Raw.insert_address`, `ModuleTable.Raw.remove_some` —
  a change from outside is a change from inside, or none.
-/

namespace JitSupport.ModuleTable.Raw

/-- The address that a key had before, and the table with the handle at an address for the
key.  Without a table or without a handle nothing changes. -/
def insert (table : Option ModuleTable) (key address : UInt64) : UInt64 × Option ModuleTable :=
  match table, ModuleHandle.ofAddress? address with
  | some t, some handle =>
    let (replaced, t) := t.insert key handle
    (ModuleHandle.toAddress replaced, some t)
  | _, _ => (0, table)

/-- The address that a key had before, and the table without the key. -/
def remove (table : Option ModuleTable) (key : UInt64) : UInt64 × Option ModuleTable :=
  match table with
  | some t =>
    let (removed, t) := t.remove key
    (ModuleHandle.toAddress removed, some t)
  | none => (0, none)

/-- The address that a key has, with a report. -/
def get (table : Option ModuleTable) (key : UInt64) : Logged UInt64 :=
  match table with
  | some t => ModuleHandle.toAddress <$> t.resolve key
  | none => do
    Logged.report (.tableMissing key)
    return 0

/-! ### Laws -/

/-- The null address changes nothing and is answered with itself. -/
@[simp] theorem insert_zero (table : Option ModuleTable) (key : UInt64) :
    insert table key 0 = (0, table) := by
  cases table <;> rfl

/-- From outside a handle is inserted as from inside. -/
@[simp] theorem insert_address (t : ModuleTable) (key : UInt64) (handle : ModuleHandle) :
    insert (some t) key handle.address =
      (ModuleHandle.toAddress (t.get? key), some (t.insert key handle).2) := by
  simp [insert]

/-- From outside a key is removed as from inside. -/
@[simp] theorem remove_some (t : ModuleTable) (key : UInt64) :
    remove (some t) key = (ModuleHandle.toAddress (t.get? key), some (t.remove key).2) :=
  rfl

end JitSupport.ModuleTable.Raw
