import JitSupport.Proofs.Table.Clients
import JitSupport.Proofs.Table.History
import Mathlib.Data.List.Perm.Subperm

/-!
# Equal tables

Two tables are equal if they look alike to whoever looks keys up.  It does not matter how they
were filled: with how much room, in what order, by how many steps, or past which keys that were
removed again.  Comparing the tables entry by entry comes to the same, because entries that are
as many on both sides, and on one side all among those of the other, are the same ones.

The order of changes matters only for changes of one key.  That is so because the keys are like
clients that keep apart: the changes of a key are the program of the key, histories that order
them alike are ways to take turns, and each key is answered as if it were alone.

## Main definitions

* `ModuleTable.SameByKey` — edits that come in the same order for every key.
* `ModuleTable.keyedAnswers` — answers, each under its key.
* `ModuleTable.ToldByLookups` — a table that is told by its lookups, not by how it was filled.

## Main results

* `ModuleTable.eq_iff_entries` — comparing tables entry by entry.
* `ModuleTable.ofList_of_perm` — the entries of a table, in any order, make the table.
* `ModuleTable.edits_of_sameByKey` — histories that come in the same order for every key.
* `ModuleTable.toldByLookups` — **equality of tables is extensional, and blind to the order of
  changes of different keys.**
-/

namespace JitSupport.ModuleTable

variable {t u : ModuleTable} {key : UInt64} {handle : ModuleHandle}
  {entries : List (UInt64 × ModuleHandle)} {es es' : List Edit}

/-! ### Comparing tables -/

/-- Tables are equal if their lookups agree. -/
theorem eq_iff_get? : t = u ↔ ∀ key, t.get? key = u.get? key := by
  constructor
  · rintro rfl key
    rfl
  · exact ext_get?

/-- Tables are equal if the same keys have the same handles. -/
theorem ext_of_get?_eq_some_iff
    (h : ∀ key handle, t.get? key = some handle ↔ u.get? key = some handle) : t = u := by
  apply ext_get?
  intro key
  exact Option.ext (h key)

theorem nodup_toList (t : ModuleTable) : t.toList.Nodup :=
  t.nodup_keys_toList.of_map

/-- Tables are equal if they have as many entries as each other, and those of one are entries of
the other. -/
theorem eq_iff_entries : t = u ↔ t.size = u.size ∧ ∀ e ∈ t.toList, u.get? e.1 = some e.2 := by
  constructor
  · rintro rfl
    exact ⟨rfl, fun e he => mem_toList_iff.mp he⟩
  · rintro ⟨hsize, hentries⟩
    have hsubset : t.toList ⊆ u.toList := fun e he => mem_toList_iff.mpr (hentries e he)
    have hlength : u.toList.length ≤ t.toList.length := by
      rw [toList, Std.ExtTreeMap.length_toList, toList, Std.ExtTreeMap.length_toList]
      exact Nat.le_of_eq hsize.symm
    -- no entry of the other table is left over
    have hperm : t.toList.Perm u.toList :=
      (t.nodup_toList.subperm hsubset).perm_of_length_le hlength
    apply ext_of_get?_eq_some_iff
    intro key handle
    rw [← mem_toList_iff, ← mem_toList_iff, hperm.mem_iff]

/-! ### Filling tables -/

theorem extend_append (t : ModuleTable) (l l' : List (UInt64 × ModuleHandle)) :
    t.extend (l ++ l') = (t.extend l).extend l' :=
  List.foldl_append

/-- A table that is given entries for different keys has them, and under all other keys it has
what it had before. -/
theorem get?_extend_of_nodup (hkeys : (entries.map Prod.fst).Nodup) :
    (t.extend entries).get? key = some handle ↔
      (key, handle) ∈ entries ∨ key ∉ entries.map Prod.fst ∧ t.get? key = some handle := by
  induction entries generalizing t with
  | nil => simp
  | cons e entries ih =>
    obtain ⟨hfresh, hothers⟩ := List.nodup_cons.mp hkeys
    rw [extend_cons, ih hothers, get?_insert, List.mem_cons, List.map_cons, List.mem_cons]
    by_cases hkey : key = e.1
    · -- the entry is the only one for its key
      subst hkey
      have hnone : (e.1, handle) ∉ entries := fun hmem => hfresh (List.mem_map.mpr ⟨_, hmem, rfl⟩)
      simp [hnone, hfresh, Prod.ext_iff, eq_comm]
    · simp [hkey, Prod.ext_iff]

/-- The entries of a table, in any order, make the table. -/
theorem ofList_of_perm (h : entries.Perm t.toList) : ofList entries = t := by
  have hkeys : (entries.map Prod.fst).Nodup := (h.map Prod.fst).nodup_iff.mpr t.nodup_keys_toList
  apply ext_of_get?_eq_some_iff
  intro key handle
  rw [ofList, get?_extend_of_nodup hkeys, h.mem_iff, mem_toList_iff, get?_empty]
  simp

/-- Room that is set aside is not seen. -/
theorem eq_empty_of_withCapacity {capacity : UInt64} (h : withCapacity capacity = .ok t) :
    t = empty := by
  rw [withCapacity] at h
  split at h
  · exact (Except.ok.inj h).symm
  · cases h

/-! ### The order of changes -/

/-- Edits that come in the same order for every key. -/
def SameByKey (es es' : List Edit) : Prop :=
  ∀ key, es.filter (·.key = key) = es'.filter (·.key = key)

/-- The answers to edits, each under the key that it is about. -/
def keyedAnswers (t : ModuleTable) (es : List Edit) : List (UInt64 × Option ModuleHandle) :=
  (es.map Edit.key).zip (t.edits es).1

/-- Edits as the turns of their keys. -/
def Edit.turns (es : List Edit) : List (UInt64 × Request) :=
  es.map fun e => (e.key, .edit e)

/-- To edit a table is to serve the keys of the edits in turn. -/
theorem serve_turns (t : ModuleTable) (es : List Edit) :
    t.serve (Edit.turns es) = (t.keyedAnswers es, (t.edits es).2) := by
  induction es generalizing t with
  | nil => rfl
  | cons e es ih =>
    show (((e.key, (t.edit e).1) :: ((t.edit e).2.serve (Edit.turns es)).1,
      ((t.edit e).2.serve (Edit.turns es)).2) : _ × _) = _
    rw [ih]
    rfl

/-- The turns of a key are its edits. -/
theorem own_turns (key : UInt64) (es : List Edit) :
    own key (Edit.turns es) = (es.filter (·.key = key)).map Request.edit := by
  induction es with
  | nil => rfl
  | cons e es ih =>
    by_cases h : e.key = key
    · subst h
      rw [List.filter_cons_of_pos (by simp), List.map_cons, ← ih]
      exact own_cons_self ..
    · rw [List.filter_cons_of_neg (by simpa using h), ← ih]
      exact own_cons_of_ne h ..

/-- Keys do not change each other. -/
theorem keepApart_turns (es : List Edit) : KeepApart fun key => own key (Edit.turns es) := by
  have hkey : ∀ {key : UInt64} {r : Request}, r ∈ own key (Edit.turns es) → r.key = key := by
    intro key r hr
    rw [own_turns] at hr
    obtain ⟨e, he, rfl⟩ := List.mem_map.mp hr
    exact of_decide_eq_true (List.mem_filter.mp he).2
  intro i j hij r hr e he heq
  apply hij
  rw [← hkey hr, ← hkey he]
  exact heq

/-- Histories that come in the same order for every key end with one table, and answer every key
alike. -/
theorem edits_of_sameByKey (t : ModuleTable) (h : SameByKey es es') :
    (t.edits es).2 = (t.edits es').2 ∧
      ∀ key, own key (t.keyedAnswers es) = own key (t.keyedAnswers es') := by
  have hturns : Interleaves (Edit.turns es) fun key => own key (Edit.turns es) := fun _ => rfl
  have hturns' : Interleaves (Edit.turns es') fun key => own key (Edit.turns es) := by
    intro key
    show own key (Edit.turns es') = own key (Edit.turns es)
    rw [own_turns, own_turns, h key]
  have hapart := keepApart_turns es
  constructor
  · have hserve := serve_comm (t := t) hturns hturns' hapart
    rwa [serve_turns, serve_turns] at hserve
  · intro key
    have hfirst := (serve_own (t := t) hturns hapart key).1
    have hsecond := (serve_own (t := t) hturns' hapart key).1
    rw [serve_turns] at hfirst hsecond
    rw [hfirst, hsecond]

/-! ### Tables and their lookups -/

/-- A table that is told by its lookups, not by how it was filled. -/
structure ToldByLookups (t : ModuleTable) : Prop where
  /-- The table is equal to another one exactly if every key resolves to the same in both. -/
  beq_iff_resolve : ∀ u, (t == u) = true ↔ ∀ key, (t.resolve key).value = (u.resolve key).value
  /-- That is so exactly if there are as many entries in both, and those of the table are entries
  of the other one. -/
  beq_iff_entries : ∀ u,
    (t == u) = true ↔ t.size = u.size ∧ ∀ e ∈ t.toList, (u.resolve e.1).value = some e.2
  /-- Entries may be added in two parts, -/
  extend_parts : ∀ l l', t.extend (l ++ l') = (t.extend l).extend l'
  /-- or one by one. -/
  extend_each : ∀ l, t.extend l = (t.edits (Edit.ofEntries l)).2
  /-- A table that begins with room for some entries can be filled as well as one made of the
  entries. -/
  extend_room : ∀ capacity, withCapacity capacity = .ok t → ∀ l, t.extend l = ofList l
  /-- The entries make the table again, in any order. -/
  ofList_entries : ∀ l, l.Perm t.toList → ofList l = t
  /-- Edits that come in the same order for every key leave the same table, whatever their order
  for different keys, and are answered alike. -/
  edits_by_key : ∀ es es', SameByKey es es' → (t.edits es).2 = (t.edits es').2 ∧
    ∀ key, own key (t.keyedAnswers es) = own key (t.keyedAnswers es')

/-- **Equality of tables is extensional, and blind to the order of changes of different keys.** -/
theorem toldByLookups (t : ModuleTable) : t.ToldByLookups where
  beq_iff_resolve u := beq_iff_eq.trans eq_iff_get?
  beq_iff_entries u := beq_iff_eq.trans eq_iff_entries
  extend_parts := extend_append t
  extend_each := extend_eq_edits t
  extend_room capacity h l := by rw [eq_empty_of_withCapacity h, ofList]
  ofList_entries _ := ofList_of_perm
  edits_by_key _ _ := edits_of_sameByKey t

end JitSupport.ModuleTable
