import JitSupport.Event
import JitSupport.Table.Handle
import Std.Data.ExtTreeMap

/-!
# Module tables

A table associates keys with module handles, one handle with a key.  Keys are
words, usually the load addresses of the modules, and are not looked into.  A table
is what its lookups say: how it was filled leaves no mark on it.

The table stands for a hash table, of which it is taken for granted that it is a finite
map: a lookup finds what was put under an equal key last, and the entries are the keys
that are there, each once.  Hashes, buckets and growth are left out.  A hash table lists
its entries in no order that can be relied on; here they come in the order of the keys,
and nothing is to be read into that.

## Main definitions

* `ModuleTable` — a table.
* `ModuleTable.get?`, `ModuleTable.resolve` — lookup, without and with a report.
* `ModuleTable.insert`, `ModuleTable.remove`, `ModuleTable.extend` — the ways to change it.

## Main results

* `ModuleTable.ext_get?` — tables with the same lookups are the same.
* `ModuleTable.get?_insert`, `ModuleTable.get?_remove` — what a change does to the lookups.
* `ModuleTable.mem_toList_iff`, `ModuleTable.nodup_keys_toList`, `ModuleTable.isEmpty_iff_get?` —
  the entries are what the lookups say.
-/

namespace JitSupport

open Text

/-- Module handles by key. -/
structure ModuleTable where
  /-- The handles, in the order of their keys. -/
  entries : Std.ExtTreeMap UInt64 ModuleHandle
  deriving DecidableEq

namespace ModuleTable

/-- The table without entries. -/
def empty : ModuleTable := ⟨∅⟩

instance : Inhabited ModuleTable := ⟨empty⟩

/-! ### Lookups -/

/-- The handle of a key. -/
def get? (t : ModuleTable) (key : UInt64) : Option ModuleHandle := t.entries[key]?

/-- Whether a key has a handle. -/
def contains (t : ModuleTable) (key : UInt64) : Bool := t.entries.contains key

/-- The number of keys. -/
def size (t : ModuleTable) : Nat := t.entries.size

/-- Whether there are no keys. -/
def isEmpty (t : ModuleTable) : Bool := t.entries.isEmpty

/-- The keys with their handles, in the order of the keys. -/
def toList (t : ModuleTable) : List (UInt64 × ModuleHandle) := t.entries.toList

/-- The handle of a key, with a report of the lookup. -/
def resolve (t : ModuleTable) (key : UInt64) : Logged (Option ModuleHandle) := do
  let handle := t.get? key
  Logged.report (.resolved key handle.isSome)
  return handle

/-! ### Changes -/

/-- The table with a handle for a key, and the handle that it takes the place of. -/
def insert (t : ModuleTable) (key : UInt64) (handle : ModuleHandle) :
    Option ModuleHandle × ModuleTable :=
  (t.get? key, ⟨t.entries.insert key handle⟩)

/-- The table without a key, and the handle that the key had. -/
def remove (t : ModuleTable) (key : UInt64) : Option ModuleHandle × ModuleTable :=
  (t.get? key, ⟨t.entries.erase key⟩)

/-- The table with all entries of a list; of two entries for one key the later one counts. -/
def extend (t : ModuleTable) (entries : List (UInt64 × ModuleHandle)) : ModuleTable :=
  entries.foldl (fun t e => (t.insert e.1 e.2).2) t

/-- The table with the entries of a list. -/
def ofList (entries : List (UInt64 × ModuleHandle)) : ModuleTable := empty.extend entries

/-- The most entries for which room can be set aside.  One slot in eight stays free, the
number of slots is a power of two, and a slot takes sixteen bytes, which must be fewer than
half the address space. -/
def maxCapacity : UInt64 := (7 : UInt64) <<< 55

/-- The table without entries, but with room for some. -/
def withCapacity (capacity : UInt64) : Except Violation ModuleTable :=
  if capacity ≤ maxCapacity then .ok empty else .error .tableCapacity

/-! ### Laws -/

/-- Tables with the same lookups are the same. -/
theorem ext_get? {t u : ModuleTable} (h : ∀ key, t.get? key = u.get? key) : t = u := by
  cases t
  cases u
  exact congrArg mk (Std.ExtTreeMap.ext_getElem? h)

@[simp] theorem get?_empty (key : UInt64) : empty.get? key = none :=
  Std.ExtTreeMap.getElem?_empty

@[simp] theorem insert_fst (t : ModuleTable) (key : UInt64) (handle : ModuleHandle) :
    (t.insert key handle).1 = t.get? key := rfl

@[simp] theorem remove_fst (t : ModuleTable) (key : UInt64) : (t.remove key).1 = t.get? key := rfl

theorem get?_insert (t : ModuleTable) (key : UInt64) (handle : ModuleHandle) (k : UInt64) :
    (t.insert key handle).2.get? k = if k = key then some handle else t.get? k := by
  simp [insert, get?, Std.ExtTreeMap.getElem?_insert, @eq_comm _ k key]

theorem get?_remove (t : ModuleTable) (key k : UInt64) :
    (t.remove key).2.get? k = if k = key then none else t.get? k := by
  simp [remove, get?, Std.ExtTreeMap.getElem?_erase, @eq_comm _ k key]

@[simp] theorem extend_nil (t : ModuleTable) : t.extend [] = t := rfl

@[simp] theorem extend_cons (t : ModuleTable) (e : UInt64 × ModuleHandle)
    (entries : List (UInt64 × ModuleHandle)) :
    t.extend (e :: entries) = (t.insert e.1 e.2).2.extend entries := rfl

theorem mem_toList_iff {t : ModuleTable} {key : UInt64} {handle : ModuleHandle} :
    (key, handle) ∈ t.toList ↔ t.get? key = some handle :=
  Std.ExtTreeMap.mem_toList_iff_getElem?_eq_some

theorem contains_eq_isSome (t : ModuleTable) (key : UInt64) :
    t.contains key = (t.get? key).isSome :=
  Std.ExtTreeMap.contains_eq_isSome_getElem?

theorem contains_iff_exists (t : ModuleTable) (key : UInt64) :
    t.contains key = true ↔ ∃ handle, t.get? key = some handle := by
  rw [contains_eq_isSome, Option.isSome_iff_exists]

/-- No key has two entries. -/
theorem nodup_keys_toList (t : ModuleTable) : (t.toList.map Prod.fst).Nodup := by
  rw [toList, Std.ExtTreeMap.map_fst_toList_eq_keys]
  exact Std.ExtTreeMap.nodup_keys

theorem mem_keys_toList {t : ModuleTable} {key : UInt64} :
    key ∈ t.toList.map Prod.fst ↔ ∃ handle, t.get? key = some handle := by
  rw [List.mem_map]
  constructor
  · rintro ⟨⟨_, handle⟩, hmem, rfl⟩
    exact ⟨handle, mem_toList_iff.mp hmem⟩
  · rintro ⟨handle, h⟩
    exact ⟨(key, handle), mem_toList_iff.mpr h, rfl⟩

/-- A table is empty if no key has a handle. -/
theorem isEmpty_iff_get? (t : ModuleTable) : t.isEmpty = true ↔ ∀ key, t.get? key = none := by
  constructor
  · intro h key
    rw [isEmpty, Std.ExtTreeMap.isEmpty_iff] at h
    rw [get?, h]
    exact get?_empty key
  · intro h
    have hempty : t = empty := by
      apply ext_get?
      intro key
      rw [h, get?_empty]
    rw [hempty]
    rfl

@[simp] theorem value_resolve (t : ModuleTable) (key : UInt64) :
    (t.resolve key).value = t.get? key := rfl

@[simp] theorem events_resolve (t : ModuleTable) (key : UInt64) :
    (t.resolve key).events = [.resolved key (t.get? key).isSome] := rfl

/-! ### Text -/

/-- The parts of the table. -/
def doc (t : ModuleTable) : Doc :=
  .record "AssociationTable"
    [("entries", .table (t.toList.map fun e => (Decimal.encode e.1, e.2.doc)))]

end ModuleTable

end JitSupport
