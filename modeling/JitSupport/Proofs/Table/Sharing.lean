import JitSupport.Proofs.Table.History
import JitSupport.Table.Space

/-!
# Sharing and copies

A shared table may be known under several names.  These names are aliases: whatever is done
through one of them is seen through all.  A copy, be it of a shared table or of an owned one,
starts with the same contents and is an alias of nothing, so that from then on the two tables
go their own ways.

Which names are aliases is told by the steps that were taken, without a look at the tables:
only a name that is given to a shared table becomes an alias.

## Main definitions

* `TableSpace.Step`, `TableSpace.Runs` — the steps of a program that keeps its tables under names.
* `TableSpace.areAliases` — whether two names have come to mean one table.
* `TableSpace.editsTo` — the edits that some steps make to the table under a name.
* `TableSpace.Sharing` — the law of sharing, of tables under names and their past.

## Main results

* `TableSpace.Effect.of_perform` — what a step can do.
* `TableSpace.Runs.tracks` — names lead to one cell exactly if they are aliases.
* `TableSpace.Runs.contents?_eq` — a table is changed through its aliases and in no other way.
* `TableSpace.Runs.sharing` — **the law of sharing holds after all steps.**
-/

namespace JitSupport.TableSpace

open ModuleTable (Edit)

/-! ### Steps -/

/-- A step of a program that keeps its tables under names. -/
inductive Step
  /-- A new table gets a name. -/
  | create (name : String) (holding : Holding) (t : ModuleTable)
  /-- A shared table gets another name. -/
  | share (source name : String)
  /-- A copy of a table gets a name. -/
  | copy (access : Access) (source name : String) (holding : Holding)
  /-- A name is forgotten. -/
  | forget (name : String)
  /-- A key is changed. -/
  | edit (access : Access) (name : String) (e : Edit)
  /-- Entries are added in bulk. -/
  | extend (access : Access) (name : String) (entries : List (UInt64 × ModuleHandle))
  /-- A key is looked up. -/
  | look (access : Access) (name : String) (key : UInt64)
  deriving DecidableEq

namespace Step

/-- The name that leads elsewhere after a step, or nowhere. -/
def bound? : Step → Option String
  | create name _ _ | share _ name | copy _ _ name _ | forget name => some name
  | edit .. | extend .. | look .. => none

/-- The edits of a step, and the name through which it makes them. -/
def update? : Step → Option (String × List Edit)
  | edit _ name e => some (name, [e])
  | extend _ name entries => some (name, Edit.ofEntries entries)
  | create .. | share .. | copy .. | forget .. | look .. => none

/-- Takes a step. -/
def perform (s : TableSpace) : Step → Except AccessError TableSpace
  | create name holding t => .ok (s.put name holding t)
  | share source name => s.share source name
  | copy access source name holding => s.copy access source name holding
  | forget name => s.forget name
  | edit access name e => do
    let (_, s') ← s.change access name fun t => t.edit e
    return s'
  | extend access name entries => do
    let (_, s') ← s.change access name fun t => ((), t.extend entries)
    return s'
  | look access name key => do
    let _ ← s.view access name fun t => t.resolve key
    return s

end Step

/-- Tables under names, and what some steps make of them.  Here and below the latest step comes
first. -/
inductive Runs (s : TableSpace) : List Step → TableSpace → Prop
  /-- Nothing has been done, -/
  | refl : Runs s [] s
  /-- or one more step is taken. -/
  | step {later : List Step} {s' s'' : TableSpace} {st : Step} (h : Runs s later s')
    (hst : st.perform s' = .ok s'') : Runs s (st :: later) s''

/-! ### Aliases -/

/-- Whether two names have come to mean one table. -/
def areAliases : List Step → String → String → Bool
  | [], _, _ => false
  | .create name _ _ :: past, a, b | .copy _ _ name _ :: past, a, b =>
    if a = name ∨ b = name then a = b else areAliases past a b
  | .share source name :: past, a, b =>
    areAliases past (if a = name then source else a) (if b = name then source else b)
  | .forget name :: past, a, b => a ≠ name ∧ b ≠ name ∧ areAliases past a b
  | .edit .. :: past, a, b | .extend .. :: past, a, b | .look .. :: past, a, b =>
    areAliases past a b

/-- The edits that a step makes to the table under a name. -/
def Step.editsTo (past : List Step) (b : String) (st : Step) : List Edit :=
  match st.update? with
  | some (name, es) => if areAliases past name b then es else []
  | none => []

/-- The edits that some steps make to the table under a name, in the order of time. -/
def editsTo (past : List Step) (b : String) : List Step → List Edit
  | [] => []
  | st :: later => editsTo past b later ++ st.editsTo (later ++ past) b

/-! ### What a step can do -/

variable {s s' : TableSpace} {past later : List Step} {st : Step} {a b name source : String}
  {x y : Binding} {holding : Holding} {t : ModuleTable} {es : List Edit}

/-- What a step can do. -/
inductive Effect (s : TableSpace) : Step → TableSpace → Prop
  /-- A new table goes to a cell of its own. -/
  | created {name : String} {holding : Holding} {t : ModuleTable} :
    Effect s (.create name holding t) (s.put name holding t)
  /-- The new name leads where the other one leads. -/
  | shared {source name : String} {x : Binding} (hx : s.bindings[source]? = some x)
    (hholding : x.holding = .shared) :
    Effect s (.share source name) { s with bindings := s.bindings.insert name x }
  /-- A copy goes to a cell of its own. -/
  | copied {access : Access} {source name : String} {holding : Holding} {x : Binding}
    (hx : s.bindings[source]? = some x) :
    Effect s (.copy access source name holding) (s.put name holding (s.table x.cell))
  /-- The name leads nowhere. -/
  | forgotten {name : String} :
    Effect s (.forget name) { s with bindings := s.bindings.erase name }
  /-- The edits change the cell to which the name leads. -/
  | updated {st : Step} {name : String} {es : List Edit} {x : Binding}
    (hst : st.update? = some (name, es)) (hx : s.bindings[name]? = some x) :
    Effect s st { s with cells := s.cells.set x.cell ((s.table x.cell).edits es).2 }
  /-- A lookup changes nothing. -/
  | looked {access : Access} {name : String} {key : UInt64} :
    Effect s (.look access name key) s

theorem holding_of_permits_shared (h : Access.shared.permits holding = true) :
    holding = .shared := by
  cases holding with
  | shared => rfl
  | owned | foreign => cases h

theorem Effect.of_perform (h : st.perform s = .ok s') : Effect s st s' := by
  cases st with
  | create =>
    cases h
    exact .created
  | share =>
    obtain ⟨x, hx, rfl⟩ := share_eq_ok_iff.mp h
    obtain ⟨hx, hpermits⟩ := locate_eq_ok_iff.mp hx
    exact .shared hx (holding_of_permits_shared hpermits)
  | copy =>
    obtain ⟨x, hx, rfl⟩ := copy_eq_ok_iff.mp h
    exact .copied (locate_eq_ok_iff.mp hx).1
  | forget =>
    obtain ⟨x, hx, rfl⟩ := forget_eq_ok_iff.mp h
    exact .forgotten
  | edit access name e =>
    obtain ⟨⟨_, s''⟩, hchange, hs⟩ := bind_eq_ok_iff.mp h
    cases hs
    obtain ⟨x, hx, -, rfl⟩ := change_eq_ok_iff.mp hchange
    exact @Effect.updated _ _ _ [e] x rfl (locate_eq_ok_iff.mp hx).1
  | extend access name entries =>
    obtain ⟨⟨_, s''⟩, hchange, hs⟩ := bind_eq_ok_iff.mp h
    cases hs
    obtain ⟨x, hx, -, rfl⟩ := change_eq_ok_iff.mp hchange
    rw [ModuleTable.extend_eq_edits]
    exact .updated rfl (locate_eq_ok_iff.mp hx).1
  | look =>
    obtain ⟨_, -, hs⟩ := bind_eq_ok_iff.mp h
    cases hs
    exact .looked

/-! ### Cells -/

/-- A name that a shared table gets leads where the other one led. -/
theorem getElem?_share (hx : s.bindings[source]? = some x) (name a : String) :
    (s.bindings.insert name x)[a]? = s.bindings[if a = name then source else a]? := by
  rw [getElem?_insert_bindings]
  by_cases h : a = name
  · rw [if_pos h, if_pos h, hx]
  · rw [if_neg h, if_neg h]

/-- Names lead to one cell exactly if they are aliases, and then they lead there in the same
way; the cells are there; and only what is shared has aliases. -/
structure Tracks (s : TableSpace) (past : List Step) : Prop where
  areAliases_iff : ∀ a b,
    areAliases past a b = true ↔ ∃ x, s.bindings[a]? = some x ∧ s.bindings[b]? = some x
  cell_lt : ∀ {a : String} {x : Binding}, s.bindings[a]? = some x → x.cell < s.cells.length
  eq_of_cell : ∀ {a b : String} {x y : Binding}, s.bindings[a]? = some x →
    s.bindings[b]? = some y → x.cell = y.cell → x = y
  shared_of_ne : ∀ {a b : String} {x : Binding}, a ≠ b → s.bindings[a]? = some x →
    s.bindings[b]? = some x → x.holding = .shared

theorem tracks_empty : Tracks .empty [] where
  areAliases_iff a b := by simp [areAliases, empty]
  cell_lt h := by simp [empty] at h
  eq_of_cell h := by simp [empty] at h
  shared_of_ne _ h := by simp [empty] at h

theorem Tracks.cell_ne_length (h : Tracks s past) (hx : s.bindings[a]? = some x) :
    x.cell ≠ s.cells.length :=
  Nat.ne_of_lt (h.cell_lt hx)

/-- A table that is put under a name lies in a cell of its own. -/
theorem Tracks.put (h : Tracks s past)
    (hst : ∀ a b, areAliases (st :: past) a b =
      if a = name ∨ b = name then decide (a = b) else areAliases past a b) :
    Tracks (s.put name holding t) (st :: past) where
  areAliases_iff a b := by
    have hfresh : ∀ c, s.bindings[c]? ≠ some (Binding.mk holding s.cells.length) :=
      fun c hc => h.cell_ne_length hc rfl
    rw [hst, getElem?_put, getElem?_put]
    by_cases ha : a = name
    · by_cases hb : b = name
      · simp [ha, hb]
      · simp [ha, hb, Ne.symm hb, hfresh]
    · by_cases hb : b = name
      · simp [ha, hb, hfresh]
      · simp [ha, hb, h.areAliases_iff]
  cell_lt {a x} ha := by
    show x.cell < (s.cells ++ [t]).length
    rw [List.length_append, List.length_singleton]
    rcases eq_or_of_getElem?_insert ha with ⟨-, rfl⟩ | ha
    · exact Nat.lt_succ_self _
    · exact Nat.lt_succ_of_lt (h.cell_lt ha)
  eq_of_cell {a b x y} ha hb hxy := by
    rcases eq_or_of_getElem?_insert ha with ⟨-, rfl⟩ | ha
    · rcases eq_or_of_getElem?_insert hb with ⟨-, rfl⟩ | hb
      · rfl
      · exact absurd hxy.symm (h.cell_ne_length hb)
    · rcases eq_or_of_getElem?_insert hb with ⟨-, rfl⟩ | hb
      · exact absurd hxy (h.cell_ne_length ha)
      · exact h.eq_of_cell ha hb hxy
  shared_of_ne {a b x} hab ha hb := by
    rcases eq_or_of_getElem?_insert ha with ⟨hname, rfl⟩ | ha
    · rcases eq_or_of_getElem?_insert hb with ⟨hname', -⟩ | hb
      · exact absurd (hname.trans hname'.symm) hab
      · exact absurd rfl (h.cell_ne_length hb)
    · rcases eq_or_of_getElem?_insert hb with ⟨-, rfl⟩ | hb
      · exact absurd rfl (h.cell_ne_length ha)
      · exact h.shared_of_ne hab ha hb

/-- A name that a shared table gets is an alias. -/
theorem Tracks.share (h : Tracks s past) (hx : s.bindings[source]? = some x)
    (hholding : x.holding = .shared) :
    Tracks { s with bindings := s.bindings.insert name x } (.share source name :: past) where
  areAliases_iff a b := by
    rw [getElem?_share hx, getElem?_share hx]
    exact h.areAliases_iff _ _
  cell_lt ha := by
    rw [getElem?_share hx] at ha
    exact h.cell_lt ha
  eq_of_cell ha hb := by
    rw [getElem?_share hx] at ha hb
    exact h.eq_of_cell ha hb
  shared_of_ne {a b y} hab ha hb := by
    rcases eq_or_of_getElem?_insert ha with ⟨-, rfl⟩ | ha
    · exact hholding
    · rcases eq_or_of_getElem?_insert hb with ⟨-, rfl⟩ | hb
      · exact hholding
      · exact h.shared_of_ne hab ha hb

/-- A name that is forgotten is an alias no more. -/
theorem Tracks.forget (h : Tracks s past) :
    Tracks { s with bindings := s.bindings.erase name } (.forget name :: past) where
  areAliases_iff a b := by
    rw [getElem?_erase_bindings, getElem?_erase_bindings]
    by_cases ha : a = name
    · simp [areAliases, ha]
    · by_cases hb : b = name
      · simp [areAliases, hb]
      · simp [areAliases, ha, hb, h.areAliases_iff]
  cell_lt ha := h.cell_lt (of_getElem?_erase ha)
  eq_of_cell ha hb := h.eq_of_cell (of_getElem?_erase ha) (of_getElem?_erase hb)
  shared_of_ne hab ha hb := h.shared_of_ne hab (of_getElem?_erase ha) (of_getElem?_erase hb)

theorem areAliases_cons_of_bound?_ne (ha : st.bound? ≠ some a) (hb : st.bound? ≠ some b) :
    areAliases (st :: past) a b = areAliases past a b := by
  have hne {c name : String} (hc : st.bound? ≠ some c) (hname : st.bound? = some name) :
      c ≠ name :=
    fun heq => hc (heq ▸ hname)
  cases st with
  | create name | copy _ _ name | share _ name | forget name =>
    have hane : a ≠ name := hne ha rfl
    have hbne : b ≠ name := hne hb rfl
    simp [areAliases, hane, hbne]
  | edit | extend | look => rfl

theorem Step.bound?_ne_of_update? (h : st.update? = some (name, es)) (b : String) :
    st.bound? ≠ some b := by
  cases st with
  | create | share | copy | forget | look => cases h
  | edit | extend => exact (Option.some_ne_none b).symm

/-- Steps that change no name change no alias. -/
theorem Tracks.of_bindings_eq (h : Tracks s past) (hst : ∀ c, st.bound? ≠ some c)
    (hbindings : s'.bindings = s.bindings) (hlength : s'.cells.length = s.cells.length) :
    Tracks s' (st :: past) where
  areAliases_iff a b := by
    rw [areAliases_cons_of_bound?_ne (hst a) (hst b), hbindings]
    exact h.areAliases_iff a b
  cell_lt ha := by
    rw [hbindings] at ha
    rw [hlength]
    exact h.cell_lt ha
  eq_of_cell ha hb := by
    rw [hbindings] at ha hb
    exact h.eq_of_cell ha hb
  shared_of_ne hab ha hb := by
    rw [hbindings] at ha hb
    exact h.shared_of_ne hab ha hb

theorem Effect.tracks (heffect : Effect s st s') (h : Tracks s past) : Tracks s' (st :: past) := by
  cases heffect with
  | created | copied => exact h.put fun _ _ => rfl
  | shared hx hholding => exact h.share hx hholding
  | forgotten => exact h.forget
  | updated hst hx =>
    exact h.of_bindings_eq (Step.bound?_ne_of_update? hst) rfl (List.length_set ..)
  | looked => exact h.of_bindings_eq (fun c => (Option.some_ne_none c).symm) rfl rfl

/-- Names lead to one cell exactly if they are aliases, and steps keep it so. -/
theorem Runs.tracks_append (hrun : Runs s later s') (h : Tracks s past) :
    Tracks s' (later ++ past) := by
  induction hrun with
  | refl => exact h
  | step _ hst ih => exact (Effect.of_perform hst).tracks ih

theorem Runs.tracks (hrun : Runs .empty past s) : Tracks s past :=
  List.append_nil past ▸ hrun.tracks_append tracks_empty

/-! ### Contents -/

theorem contents?_put_self (s : TableSpace) (name : String) (holding : Holding)
    (t : ModuleTable) : (s.put name holding t).contents? name = some t := by
  have hname : (s.put name holding t).bindings[name]? = some ⟨holding, s.cells.length⟩ := by
    rw [getElem?_put, if_pos rfl]
  rw [contents?_of_bindings hname, table_put_self]

theorem Tracks.contents?_put_of_ne (h : Tracks s past) (hb : b ≠ name) :
    (s.put name holding t).contents? b = s.contents? b := by
  rw [contents?, contents?, getElem?_put, if_neg hb]
  cases hy : s.bindings[b]? with
  | none => rfl
  | some y => exact congrArg some (table_put_of_lt (h.cell_lt hy) name holding t)

/-- Aliases lead to one cell, and other names to others. -/
theorem Tracks.cell_eq_iff (h : Tracks s past) (hx : s.bindings[a]? = some x)
    (hy : s.bindings[b]? = some y) : x.cell = y.cell ↔ areAliases past a b = true := by
  rw [h.areAliases_iff]
  constructor
  · intro hcell
    exact ⟨x, hx, h.eq_of_cell hx hy hcell ▸ hy⟩
  · rintro ⟨z, hz, hz'⟩
    cases hx.symm.trans hz
    cases hy.symm.trans hz'
    rfl

/-- A table in a cell is seen through the aliases of a name that leads there, and through no
other name. -/
theorem Tracks.contents?_set (h : Tracks s past) (hx : s.bindings[name]? = some x)
    (t : ModuleTable) (b : String) :
    contents? { s with cells := s.cells.set x.cell t } b =
      if areAliases past name b then some t else s.contents? b := by
  rw [contents?, contents?]
  show s.bindings[b]?.map (fun y => table { s with cells := s.cells.set x.cell t } y.cell) = _
  cases hy : s.bindings[b]? with
  | none =>
    have hnot : ¬ areAliases past name b = true := by
      rw [h.areAliases_iff, hy]
      rintro ⟨_, -, ⟨⟩⟩
    rw [if_neg hnot]
    rfl
  | some y =>
    by_cases hcell : x.cell = y.cell
    · rw [if_pos ((h.cell_eq_iff hx hy).mp hcell), Option.map_some, ← hcell,
        table_set_self (h.cell_lt hx)]
    · rw [if_neg (mt (h.cell_eq_iff hx hy).mpr hcell), Option.map_some,
        table_set_of_ne hcell, Option.map_some]

theorem Step.editsTo_of_update?_eq_none (h : st.update? = none) (past : List Step) (b : String) :
    st.editsTo past b = [] := by
  rw [editsTo, h]

theorem Step.editsTo_of_update? (h : st.update? = some (name, es)) (past : List Step)
    (b : String) : st.editsTo past b = if areAliases past name b then es else [] := by
  rw [editsTo, h]

/-- A step makes its edits to the table under a name, and nothing else happens to it. -/
theorem Effect.contents?_eq (heffect : Effect s st s') (h : Tracks s past)
    (hb : st.bound? ≠ some b) :
    s'.contents? b = (s.contents? b).map fun t => (t.edits (st.editsTo past b)).2 := by
  have hkept : st.update? = none → s'.contents? b = s.contents? b →
      s'.contents? b = (s.contents? b).map fun t => (t.edits (st.editsTo past b)).2 := by
    intro hst hcontents
    rw [hcontents, Step.editsTo_of_update?_eq_none hst]
    exact Option.map_id'.symm
  cases heffect with
  | @created name => exact hkept rfl (h.contents?_put_of_ne fun heq => hb (heq ▸ rfl))
  | @copied _ _ name => exact hkept rfl (h.contents?_put_of_ne fun heq => hb (heq ▸ rfl))
  | @shared source name x hx =>
    apply hkept rfl
    rw [contents?, contents?, getElem?_insert_bindings, if_neg fun heq : b = name => hb (heq ▸ rfl)]
    rfl
  | @forgotten name =>
    apply hkept rfl
    rw [contents?, contents?, getElem?_erase_bindings, if_neg fun heq : b = name => hb (heq ▸ rfl)]
    rfl
  | looked => exact hkept rfl rfl
  | @updated _ name es x hst hx =>
    rw [h.contents?_set hx, Step.editsTo_of_update? hst]
    by_cases hal : areAliases past name b = true
    · obtain ⟨z, hz, hz'⟩ := (h.areAliases_iff name b).mp hal
      cases hx.symm.trans hz
      rw [if_pos hal, if_pos hal, contents?_of_bindings hz', Option.map_some]
    · rw [if_neg hal, if_neg hal]
      exact Option.map_id'.symm

/-- **A table is changed through its aliases and in no other way.** -/
theorem Runs.contents?_eq (hrun : Runs s later s') (h : Tracks s past)
    (hb : ∀ st ∈ later, st.bound? ≠ some b) :
    s'.contents? b = (s.contents? b).map fun t => (t.edits (editsTo past b later)).2 := by
  induction hrun with
  | refl => exact Option.map_id'.symm
  | @step later s₁ s₂ st hrun hst ih =>
    have htracks := hrun.tracks_append h
    rw [(Effect.of_perform hst).contents?_eq htracks (hb st List.mem_cons_self),
      ih fun st hmem => hb st (List.mem_cons_of_mem _ hmem), Option.map_map, editsTo]
    congr 1
    funext t
    exact (ModuleTable.edits_append t _ _).symm

/-! ### The law of sharing -/

/-- Two names stay aliases, or do not become aliases, as long as they lead where they lead. -/
theorem areAliases_append (h : ∀ st ∈ later, st.bound? ≠ some a ∧ st.bound? ≠ some b) :
    areAliases (later ++ past) a b = areAliases past a b := by
  induction later with
  | nil => rfl
  | cons st later ih =>
    obtain ⟨ha, hb⟩ := h st List.mem_cons_self
    rw [List.cons_append, areAliases_cons_of_bound?_ne ha hb]
    exact ih fun st hmem => h st (List.mem_cons_of_mem _ hmem)

/-- The law of sharing, of tables under names and the steps that led to them. -/
structure Sharing (s : TableSpace) (past : List Step) : Prop where
  /-- Aliases have the same contents, -/
  contents_eq : ∀ {a b : String}, areAliases past a b = true →
    ∃ t, s.contents? a = some t ∧ s.contents? b = some t
  /-- and whatever is asked of them, they answer the same. -/
  view_eq : ∀ {a b : String}, areAliases past a b = true →
    ∀ {α : Type} (access : Access) (f : ModuleTable → α), s.view access a f = s.view access b f
  /-- Only what is shared has aliases. -/
  shared_of_aliases : ∀ {a b : String}, a ≠ b → areAliases past a b = true →
    ∃ x, s.locate .shared a = .ok x
  /-- A name that a shared table gets is an alias of the name that it has. -/
  share_alias : ∀ {source name : String} {s' : TableSpace},
    (Step.share source name).perform s = .ok s' →
      areAliases (.share source name :: past) source name = true
  /-- An update through a name reaches all its aliases, -/
  update_seen : ∀ {st : Step} {s' : TableSpace} {name : String} {es : List Edit},
    st.perform s = .ok s' → st.update? = some (name, es) →
      ∀ b, areAliases past name b = true →
        s'.contents? b = (s.contents? b).map fun t => (t.edits es).2
  /-- and it reaches nothing else. -/
  update_unseen : ∀ {st : Step} {s' : TableSpace} {name : String} {es : List Edit},
    st.perform s = .ok s' → st.update? = some (name, es) →
      ∀ b, areAliases past name b = false → s'.contents? b = s.contents? b
  /-- For as long as a name leads where it leads, its table is what the updates through its
  aliases make of it. -/
  contents_later : ∀ {later : List Step} {s' : TableSpace} {b : String}, Runs s later s' →
    (∀ st ∈ later, st.bound? ≠ some b) →
      s'.contents? b = (s.contents? b).map fun t => (t.edits (editsTo past b later)).2
  /-- A copy is an alias of nothing else, -/
  copy_alone : ∀ {access : Access} {source name : String} {holding : Holding} (b : String),
    areAliases (.copy access source name holding :: past) name b = true ↔ b = name
  /-- it stays what the updates through its own aliases make of the contents that its source had
  when it was made, -/
  copy_later : ∀ {access : Access} {source name : String} {holding : Holding}
    {later : List Step} {s₁ s' : TableSpace},
    (Step.copy access source name holding).perform s = .ok s₁ → Runs s₁ later s' →
      (∀ st ∈ later, st.bound? ≠ some name) →
        ∃ t, s.contents? source = some t ∧ s'.contents? name =
          some (t.edits (editsTo (.copy access source name holding :: past) name later)).2
  /-- and no name that was there before becomes an alias of it, its source least of all. -/
  copy_apart : ∀ {access : Access} {source name : String} {holding : Holding}
    {later : List Step} (b : String), b ≠ name →
      (∀ st ∈ later, st.bound? ≠ some name ∧ st.bound? ≠ some b) →
        areAliases (later ++ .copy access source name holding :: past) name b = false

theorem areAliases_copy_iff {access : Access} (b : String) :
    areAliases (.copy access source name holding :: past) name b = true ↔ b = name := by
  rw [areAliases, if_pos (Or.inl rfl), decide_eq_true_iff]
  exact eq_comm

/-- **The law of sharing holds after all steps.** -/
theorem Runs.sharing (hrun : Runs .empty past s) : s.Sharing past := by
  have h : s.Tracks past := hrun.tracks
  have hone {st : Step} {s' : TableSpace} (hst : st.perform s = .ok s') :
      Effect s st s' := Effect.of_perform hst
  constructor
  case contents_eq =>
    intro a b hab
    obtain ⟨x, ha, hb⟩ := (h.areAliases_iff a b).mp hab
    exact ⟨s.table x.cell, contents?_of_bindings ha, contents?_of_bindings hb⟩
  case view_eq =>
    intro a b hab α access f
    obtain ⟨x, ha, hb⟩ := (h.areAliases_iff a b).mp hab
    rw [view, view, locate, locate, ha, hb]
  case shared_of_aliases =>
    intro a b hne hab
    obtain ⟨x, ha, hb⟩ := (h.areAliases_iff a b).mp hab
    refine ⟨x, locate_eq_ok_iff.mpr ⟨ha, ?_⟩⟩
    rw [h.shared_of_ne hne ha hb]
    rfl
  case share_alias =>
    intro source name s' hst
    obtain ⟨x, hx, -⟩ := share_eq_ok_iff.mp hst
    have hx : s.bindings[source]? = some x := (locate_eq_ok_iff.mp hx).1
    rw [areAliases, ite_self, if_pos rfl, h.areAliases_iff]
    exact ⟨x, hx, hx⟩
  case update_seen =>
    intro st s' name es hst hupdate b hb
    rw [(hone hst).contents?_eq h (Step.bound?_ne_of_update? hupdate b),
      Step.editsTo_of_update? hupdate, if_pos hb]
  case update_unseen =>
    intro st s' name es hst hupdate b hb
    rw [(hone hst).contents?_eq h (Step.bound?_ne_of_update? hupdate b),
      Step.editsTo_of_update? hupdate, hb]
    exact Option.map_id'
  case contents_later =>
    intro later s' b hlater hb
    exact hlater.contents?_eq h hb
  case copy_alone =>
    intro access source name holding b
    exact areAliases_copy_iff b
  case copy_later =>
    intro access source name holding later s₁ s' hst hlater hname
    obtain ⟨x, hx, rfl⟩ := copy_eq_ok_iff.mp hst
    have hx : s.bindings[source]? = some x := (locate_eq_ok_iff.mp hx).1
    refine ⟨s.table x.cell, ?_, ?_⟩
    · exact contents?_of_bindings hx
    · rw [hlater.contents?_eq ((hone hst).tracks h) hname, contents?_put_self, Option.map_some]
  case copy_apart =>
    intro access source name holding later b hne hlater
    rw [areAliases_append hlater, Bool.eq_false_iff]
    exact fun htrue => hne ((areAliases_copy_iff b).mp htrue)

/-- The steps that share a table, copy it, and change it under its second name. -/
def copiedThenChangedPast (handle : ModuleHandle) : List Step :=
  [.edit .shared "view" (.insert 1 handle), .copy .shared "map" "snapshot" .owned,
    .share "map" "view", .create "map" .shared .empty]

/-- What these steps lead to. -/
def copiedThenChanged (handle : ModuleHandle) : TableSpace where
  bindings := (∅ : Std.ExtTreeMap String Binding) |>.insert "map" ⟨.shared, 0⟩
    |>.insert "view" ⟨.shared, 0⟩ |>.insert "snapshot" ⟨.owned, 1⟩
  cells := [(ModuleTable.empty.insert 1 handle).2, .empty]

theorem runs_copiedThenChanged (handle : ModuleHandle) :
    Runs .empty (copiedThenChangedPast handle) (copiedThenChanged handle) :=
  Runs.refl |>.step rfl |>.step rfl |>.step rfl |>.step rfl

theorem copiedThenChanged_sharing :
    Runs .empty (copiedThenChangedPast ⟨8, by decide⟩) (copiedThenChanged ⟨8, by decide⟩) ∧
      (copiedThenChanged ⟨8, by decide⟩).Sharing (copiedThenChangedPast ⟨8, by decide⟩) :=
  ⟨runs_copiedThenChanged _, (runs_copiedThenChanged _).sharing⟩

end JitSupport.TableSpace
