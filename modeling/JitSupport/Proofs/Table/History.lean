import JitSupport.Table.Edit
import JitSupport.Table.Raw
import Mathlib.Data.Set.Card

/-!
# The history of a table

A table is filled and emptied in many ways: one entry at a time or many at once, by its owner
or by callers from outside, whose handles may be null.  To the table it is all one.  What is
done to it comes down to a list of edits, and of the edits of a key only the last one counts.
All that can be seen of the table, its lookups, its entries and their number, is told by these
last edits.

## Main definitions

* `ModuleTable.Edit.latest?` — the last of some edits to change a key.
* `ModuleTable.Use`, `ModuleTable.use` — what can be done with a table.
* `ModuleTable.History` — a table with the edits that its history comes down to.
* `ModuleTable.Reflects` — a table that is the finite map that some edits tell.

## Main results

* `ModuleTable.get?_edits` — a lookup after many edits.
* `ModuleTable.use_eq_edits` — a use comes down to its edits.
* `ModuleTable.History.reflects` — **after every history a table is the finite map that its
  history tells.**
-/

namespace JitSupport.ModuleTable

/-! ### The last edit of a key -/

/-- The last of some edits to change a key. -/
def Edit.latest? (past : List Edit) (key : UInt64) : Option Edit :=
  past.reverse.find? (·.key = key)

theorem Edit.latest?_cons (e : Edit) (past : List Edit) (key : UInt64) :
    latest? (e :: past) key = (latest? past key).or (if key = e.key then some e else none) := by
  rw [latest?, List.reverse_cons, List.find?_append, latest?]
  by_cases h : key = e.key
  · simp [h]
  · simp [h, Ne.symm h]

theorem Edit.key_of_latest? {past : List Edit} {key : UInt64} {e : Edit}
    (h : latest? past key = some e) : e.key = key := by
  have hkey := List.find?_some h
  exact of_decide_eq_true hkey

/-- A lookup after many edits answers with the last one of the key. -/
theorem get?_edits (t : ModuleTable) (es : List Edit) (key : UInt64) :
    (t.edits es).2.get? key = (Edit.latest? es key).elim (t.get? key) Edit.handle? := by
  induction es generalizing t with
  | nil => rfl
  | cons e es ih =>
    rw [edits_cons, ih, get?_edit, Edit.latest?_cons]
    cases Edit.latest? es key with
    | some last => rfl
    | none => by_cases h : key = e.key <;> simp [h]

/-! ### Uses -/

/-- The edits that entries in bulk come down to. -/
def Edit.ofEntries (entries : List (UInt64 × ModuleHandle)) : List Edit :=
  entries.map fun e => .insert e.1 e.2

/-- The edits that an address for a key comes down to: none if it is null. -/
def Edit.ofAddress (key address : UInt64) : List Edit :=
  ((ModuleHandle.ofAddress? address).map (Edit.insert key)).toList

/-- What can be done with a table. -/
inductive Use
  /-- A change of one key. -/
  | edit (e : Edit)
  /-- Entries in bulk. -/
  | extend (entries : List (UInt64 × ModuleHandle))
  /-- From outside, an address for a key. -/
  | rawInsert (key address : UInt64)
  /-- From outside, the removal of a key. -/
  | rawRemove (key : UInt64)
  /-- A look at the table: at a key, at all entries, or at their number. -/
  | look
  deriving DecidableEq

/-- The table after a use. -/
def use (t : ModuleTable) : Use → ModuleTable
  | .edit e => (t.edit e).2
  | .extend entries => t.extend entries
  | .rawInsert key address => (Raw.insert (some t) key address).2.getD t
  | .rawRemove key => (Raw.remove (some t) key).2.getD t
  | .look => t

/-- The edits that a use comes down to. -/
def Use.edits : Use → List Edit
  | edit e => [e]
  | extend entries => Edit.ofEntries entries
  | rawInsert key address => Edit.ofAddress key address
  | rawRemove key => [.remove key]
  | look => []

theorem extend_eq_edits (t : ModuleTable) (entries : List (UInt64 × ModuleHandle)) :
    t.extend entries = (t.edits (Edit.ofEntries entries)).2 := by
  induction entries generalizing t with
  | nil => rfl
  | cons e entries ih => exact ih _

/-- A use comes down to its edits. -/
theorem use_eq_edits (t : ModuleTable) (u : Use) : t.use u = (t.edits u.edits).2 := by
  cases u with
  | edit e => rfl
  | extend entries => exact extend_eq_edits t entries
  | rawInsert key address =>
    by_cases h : address = 0
    · subst h
      rfl
    · let handle : ModuleHandle := ⟨address, h⟩
      have hedits : Edit.ofAddress key handle.address = [.insert key handle] := by
        rw [Edit.ofAddress, ModuleHandle.ofAddress?_address]
        rfl
      show (Raw.insert (some t) key handle.address).2.getD t =
        (t.edits (Edit.ofAddress key handle.address)).2
      rw [Raw.insert_address, hedits]
      rfl
  | rawRemove key => rfl
  | look => rfl

/-! ### Histories -/

/-- A table with the edits that its history comes down to, in order. -/
inductive History : ModuleTable → List Edit → Prop
  /-- A table begins without entries, -/
  | empty : History .empty []
  /-- or without entries but with room for some, -/
  | withCapacity {capacity : UInt64} {t : ModuleTable} (h : withCapacity capacity = .ok t) :
    History t []
  /-- or with the entries of a list. -/
  | ofList (entries : List (UInt64 × ModuleHandle)) :
    History (ofList entries) (Edit.ofEntries entries)
  /-- Then one use follows another. -/
  | use {t : ModuleTable} {past : List Edit} (h : History t past) (u : Use) :
    History (t.use u) (past ++ u.edits)

/-- A history comes down to its edits. -/
theorem History.eq_edits {t : ModuleTable} {past : List Edit} (h : History t past) :
    t = (ModuleTable.empty.edits past).2 := by
  induction h with
  | empty => rfl
  | withCapacity h =>
    rw [ModuleTable.withCapacity] at h
    split at h
    · cases h
      rfl
    · cases h
  | ofList entries => exact extend_eq_edits .empty entries
  | use _ u ih => rw [use_eq_edits, ih, edits_append]

/-! ### What a history tells -/

/-- A table that is the finite map that some edits tell. -/
structure Reflects (t : ModuleTable) (past : List Edit) : Prop where
  /-- A key resolves to a handle exactly if its last edit has associated it with the handle. -/
  resolve_iff : ∀ key handle,
    (t.resolve key).value = some handle ↔ Edit.latest? past key = some (.insert key handle)
  /-- An insertion answers what the key resolves to before. -/
  insert_answer : ∀ key handle, (t.insert key handle).1 = (t.resolve key).value
  /-- A removal answers what the key resolves to before. -/
  remove_answer : ∀ key, (t.remove key).1 = (t.resolve key).value
  /-- From outside, too, an insertion answers what the key resolves to before, -/
  rawInsert_answer : ∀ key (handle : ModuleHandle),
    (Raw.insert (some t) key handle.address).1 = ModuleHandle.toAddress (t.resolve key).value
  /-- unless the handle is null, so that nothing is inserted. -/
  rawInsert_null : ∀ key, Raw.insert (some t) key 0 = (0, some t)
  /-- From outside, too, a removal answers what the key resolves to before. -/
  rawRemove_answer : ∀ key,
    (Raw.remove (some t) key).1 = ModuleHandle.toAddress (t.resolve key).value
  /-- From outside a key resolves to the same as from inside. -/
  rawGet_value : ∀ key,
    (Raw.get (some t) key).value = ModuleHandle.toAddress (t.resolve key).value
  /-- The table contains the keys that resolve to a handle. -/
  contains_iff : ∀ key, t.contains key = true ↔ ∃ handle, (t.resolve key).value = some handle
  /-- The entries are the keys that resolve to a handle, with their handles, -/
  mem_entries_iff : ∀ key handle, (key, handle) ∈ t.toList ↔ (t.resolve key).value = some handle
  /-- and no key has two of them. -/
  nodup_keys : (t.toList.map Prod.fst).Nodup
  /-- The size is the number of the keys that resolve to a handle. -/
  size_eq : t.size = Set.ncard {key | ∃ handle, (t.resolve key).value = some handle}
  /-- The table is empty exactly if no key resolves to a handle. -/
  isEmpty_iff : t.isEmpty = true ↔ ∀ key, (t.resolve key).value = none

/-- A key has a handle after some edits exactly if the last edit of the key has the handle. -/
theorem Edit.elim_latest?_eq_some_iff {past : List Edit} {key : UInt64} {handle : ModuleHandle} :
    (latest? past key).elim none handle? = some handle ↔
      latest? past key = some (.insert key handle) := by
  constructor
  · intro h
    cases hlast : latest? past key with
    | none =>
      rw [hlast] at h
      cases h
    | some e =>
      rw [hlast] at h
      have hkey : e.key = key := key_of_latest? hlast
      cases e with
      | insert _ _ =>
        cases hkey
        cases h
        rfl
      | remove _ => cases h
  · intro h
    rw [h]
    rfl

/-- The size counts the keys that have a handle. -/
theorem size_eq_ncard (t : ModuleTable) :
    t.size = Set.ncard {key | ∃ handle, t.get? key = some handle} := by
  have hkeys : {key | ∃ handle, t.get? key = some handle} =
      ((t.toList.map Prod.fst).toFinset : Set UInt64) := by
    ext key
    rw [List.coe_toFinset]
    exact mem_keys_toList.symm
  calc t.size
    _ = t.toList.length := Std.ExtTreeMap.length_toList.symm
    _ = (t.toList.map Prod.fst).length := List.length_map Prod.fst |>.symm
    _ = (t.toList.map Prod.fst).toFinset.card :=
      (List.toFinset_card_of_nodup t.nodup_keys_toList).symm
    _ = Set.ncard {key | ∃ handle, t.get? key = some handle} := by
      rw [hkeys, Set.ncard_coe_finset]

/-- **After every history a table is the finite map that its history tells.** -/
theorem History.reflects {t : ModuleTable} {past : List Edit} (h : History t past) :
    t.Reflects past where
  resolve_iff key handle := by
    rw [value_resolve, h.eq_edits, get?_edits, get?_empty]
    exact Edit.elim_latest?_eq_some_iff
  insert_answer _ _ := rfl
  remove_answer _ := rfl
  rawInsert_answer key handle := by rw [Raw.insert_address, value_resolve]
  rawInsert_null := Raw.insert_zero (some t)
  rawRemove_answer _ := rfl
  rawGet_value _ := rfl
  contains_iff := contains_iff_exists t
  mem_entries_iff _ _ := mem_toList_iff
  nodup_keys := nodup_keys_toList t
  size_eq := size_eq_ncard t
  isEmpty_iff := isEmpty_iff_get? t

/-- A table made from three entries for two keys.  From outside, the null handle is then inserted
for one key and the other key is removed, which its owner associates again. -/
def refilled (first second : ModuleHandle) : ModuleTable :=
  ofList [(1, first), (2, first), (1, second)] |>.use (.rawInsert 1 0) |>.use (.rawRemove 2)
    |>.use .look |>.use (.edit (.insert 2 second))

/-- The edits that the history of `refilled` comes down to. -/
def refilledPast (first second : ModuleHandle) : List Edit :=
  [.insert 1 first, .insert 2 first, .insert 1 second, .remove 2, .insert 2 second]

theorem history_refilled (first second : ModuleHandle) :
    History (refilled first second) (refilledPast first second) :=
  History.ofList [(1, first), (2, first), (1, second)] |>.use (.rawInsert 1 0)
    |>.use (.rawRemove 2) |>.use .look |>.use (.edit (.insert 2 second))

theorem refilled_reflects :
    History (refilled ⟨8, by decide⟩ ⟨16, by decide⟩)
        (refilledPast ⟨8, by decide⟩ ⟨16, by decide⟩) ∧
      (refilled ⟨8, by decide⟩ ⟨16, by decide⟩).Reflects
        (refilledPast ⟨8, by decide⟩ ⟨16, by decide⟩) :=
  ⟨history_refilled _ _, (history_refilled _ _).reflects⟩

end JitSupport.ModuleTable
