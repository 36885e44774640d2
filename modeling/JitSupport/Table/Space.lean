import JitSupport.Table.Basic

/-!
# Tables under names

A program keeps its tables under names.  A table that is owned belongs to one name
alone; so does a table that callers from outside hold through a pointer.  A table
that is shared may be known under several names, and a change made under one of
them is seen under all.

Each table lies in a cell, and a name leads to a cell.  Two names share a table
exactly when they lead to the same cell; every copy gets a cell of its own.

## Main definitions

* `TableSpace` — tables under names.
* `TableSpace.contents?` — the table under a name.
* `TableSpace.put`, `TableSpace.share`, `TableSpace.forget` — the ways to change the names.
* `TableSpace.view`, `TableSpace.change` — looking at and changing the table under a name.
* `TableSpace.viewThrough`, `TableSpace.changeThrough` — the same through a pointer that may
  lead nowhere.

## Main results

* `TableSpace.getElem?_put`, `TableSpace.table_put_self`, `TableSpace.table_put_of_lt` — a table
  under a new name lies in a cell of its own.
* `TableSpace.table_set_self`, `TableSpace.table_set_of_ne`, `TableSpace.set_table_self` — a change
  of one cell.
* `TableSpace.share_eq_ok_iff`, `TableSpace.copy_eq_ok_iff`, `TableSpace.forget_eq_ok_iff`,
  `TableSpace.view_eq_ok_iff`, `TableSpace.change_eq_ok_iff` — what it takes to succeed, and
  what comes of it.
* `TableSpace.changeThrough_of_locate`, `TableSpace.viewThrough_of_locate` — the same through a
  pointer that leads to a table.
-/

namespace JitSupport

/-- How a table is held. -/
inductive Holding
  /-- By one owner. -/
  | owned
  /-- By callers from outside, through a pointer. -/
  | foreign
  /-- By any number of owners together. -/
  | shared
  deriving DecidableEq, Repr

/-- Which tables an operation is meant for. -/
inductive Access
  /-- Tables that belong to one name alone. -/
  | exclusive
  /-- Tables that may have several names. -/
  | shared
  /-- All tables. -/
  | any
  deriving DecidableEq, Repr

/-- Whether an operation is meant for tables held in a certain way. -/
def Access.permits : Access → Holding → Bool
  | exclusive, .shared => false
  | exclusive, _ => true
  | shared, .shared => true
  | shared, _ => false
  | any, _ => true

/-- Why a table could not be used. -/
inductive AccessError
  /-- There is no table under the name. -/
  | unknownName
  /-- The operation is not meant for a table that is held in this way. -/
  | wrongHolding
  deriving DecidableEq, Repr

/-- Where a name leads. -/
structure Binding where
  /-- How the table is held. -/
  holding : Holding
  /-- The cell of the table. -/
  cell : Nat
  deriving DecidableEq, Repr

/-- Tables under names. -/
structure TableSpace where
  /-- Where the names lead. -/
  bindings : Std.ExtTreeMap String Binding
  /-- The tables; a cell is a position in the list, and is not used twice. -/
  cells : List ModuleTable

namespace TableSpace

/-- No names and no tables. -/
def empty : TableSpace := ⟨∅, []⟩

/-- The table in a cell. -/
def table (s : TableSpace) (cell : Nat) : ModuleTable := s.cells.getD cell .empty

/-- Where a name leads, for an operation that is not meant for all tables. -/
def locate (s : TableSpace) (access : Access) (name : String) : Except AccessError Binding :=
  match s.bindings[name]? with
  | none => .error .unknownName
  | some binding =>
    if access.permits binding.holding then .ok binding else .error .wrongHolding

/-- The table under a name. -/
def contents? (s : TableSpace) (name : String) : Option ModuleTable :=
  s.bindings[name]?.map fun binding => s.table binding.cell

/-! ### Names -/

/-- Puts a table into a cell of its own, under a name. -/
def put (s : TableSpace) (name : String) (holding : Holding) (t : ModuleTable) : TableSpace :=
  ⟨s.bindings.insert name ⟨holding, s.cells.length⟩, s.cells ++ [t]⟩

/-- Puts the shared table under one name under another name as well. -/
def share (s : TableSpace) (source name : String) : Except AccessError TableSpace := do
  let binding ← s.locate .shared source
  return { s with bindings := s.bindings.insert name binding }

/-- Puts a copy of the table under one name under another name. -/
def copy (s : TableSpace) (access : Access) (source name : String) (holding : Holding) :
    Except AccessError TableSpace := do
  let binding ← s.locate access source
  return s.put name holding (s.table binding.cell)

/-- Forgets a name, however its table is held.  A shared table stays under its other names. -/
def forget (s : TableSpace) (name : String) : Except AccessError TableSpace := do
  let _ ← s.locate .any name
  return { s with bindings := s.bindings.erase name }

/-! ### Tables -/

/-- Looks at the table under a name. -/
def view {α : Type} (s : TableSpace) (access : Access) (name : String) (f : ModuleTable → α) :
    Except AccessError α := do
  let binding ← s.locate access name
  return f (s.table binding.cell)

/-- Changes the table under a name. -/
def change {α : Type} (s : TableSpace) (access : Access) (name : String)
    (f : ModuleTable → α × ModuleTable) : Except AccessError (α × TableSpace) := do
  let binding ← s.locate access name
  let (a, t) := f (s.table binding.cell)
  return (a, { s with cells := s.cells.set binding.cell t })

/-- Changes the table that a pointer leads to; the pointer that is no name leads to none. -/
def changeThrough {α : Type} (s : TableSpace) (pointer : Option String)
    (f : Option ModuleTable → α × Option ModuleTable) : Except AccessError (α × TableSpace) :=
  match pointer with
  | none => .ok ((f none).1, s)
  | some name =>
    s.change .exclusive name fun t =>
      let (a, t') := f (some t)
      (a, t'.getD t)

/-- Looks at the table that a pointer leads to. -/
def viewThrough {α : Type} (s : TableSpace) (pointer : Option String)
    (f : Option ModuleTable → α) : Except AccessError α :=
  match pointer with
  | none => .ok (f none)
  | some name => s.view .exclusive name fun t => f (some t)

/-! ### Where names lead, and what is there -/

section Cells

variable {s : TableSpace} {cell : Nat}

theorem getElem?_insert_bindings (s : TableSpace) (name : String) (x : Binding) (a : String) :
    (s.bindings.insert name x)[a]? = if a = name then some x else s.bindings[a]? := by
  simp [Std.ExtTreeMap.getElem?_insert, @eq_comm _ a name]

theorem getElem?_erase_bindings (s : TableSpace) (name a : String) :
    (s.bindings.erase name)[a]? = if a = name then none else s.bindings[a]? := by
  simp [Std.ExtTreeMap.getElem?_erase, @eq_comm _ a name]

theorem eq_or_of_getElem?_insert {name a : String} {x y : Binding}
    (h : (s.bindings.insert name x)[a]? = some y) :
    a = name ∧ y = x ∨ s.bindings[a]? = some y := by
  rw [getElem?_insert_bindings] at h
  by_cases ha : a = name
  · rw [if_pos ha] at h
    exact Or.inl ⟨ha, (Option.some.inj h).symm⟩
  · rw [if_neg ha] at h
    exact Or.inr h

theorem of_getElem?_erase {name a : String} {x : Binding}
    (h : (s.bindings.erase name)[a]? = some x) : s.bindings[a]? = some x := by
  rw [getElem?_erase_bindings] at h
  by_cases ha : a = name
  · rw [if_pos ha] at h
    cases h
  · rwa [if_neg ha] at h

theorem getElem?_put (s : TableSpace) (name : String) (holding : Holding) (t : ModuleTable)
    (a : String) :
    (s.put name holding t).bindings[a]? =
      if a = name then some ⟨holding, s.cells.length⟩ else s.bindings[a]? :=
  getElem?_insert_bindings s name ⟨holding, s.cells.length⟩ a

/-- A table that is put under a name lies in a new cell. -/
theorem table_put_self (s : TableSpace) (name : String) (holding : Holding) (t : ModuleTable) :
    (s.put name holding t).table s.cells.length = t := by
  rw [table, put, List.getD_eq_getElem?_getD, List.getElem?_concat_length, Option.getD_some]

theorem table_put_of_lt (h : cell < s.cells.length) (name : String) (holding : Holding)
    (t : ModuleTable) : (s.put name holding t).table cell = s.table cell := by
  rw [table, put, List.getD_eq_getElem?_getD, List.getElem?_append_left h, table,
    List.getD_eq_getElem?_getD]

theorem table_set_self (h : cell < s.cells.length) (t : ModuleTable) :
    table { s with cells := s.cells.set cell t } cell = t := by
  rw [table, List.getD_eq_getElem?_getD, List.getElem?_set_self h, Option.getD_some]

theorem table_set_of_ne {other : Nat} (h : cell ≠ other) (t : ModuleTable) :
    table { s with cells := s.cells.set cell t } other = s.table other := by
  rw [table, List.getD_eq_getElem?_getD, List.getElem?_set_ne h, table,
    List.getD_eq_getElem?_getD]

/-- Putting the table back that is there changes nothing. -/
theorem set_table_self (s : TableSpace) (cell : Nat) :
    { s with cells := s.cells.set cell (s.table cell) } = s := by
  have hcells : s.cells.set cell (s.table cell) = s.cells := by
    by_cases h : cell < s.cells.length
    · rw [table, List.getD_eq_getElem?_getD, List.getElem?_eq_getElem h, Option.getD_some,
        List.set_getElem_self]
    · exact List.set_eq_of_length_le (Nat.le_of_not_lt h)
  rw [hcells]

theorem contents?_of_bindings {name : String} {x : Binding} (h : s.bindings[name]? = some x) :
    s.contents? name = some (s.table x.cell) := by
  rw [contents?, h, Option.map_some]

end Cells

/-! ### Success -/

section Success

variable {α : Type} {s s' : TableSpace} {access : Access} {source name : String}
  {holding : Holding} {x : Binding}

theorem locate_eq_ok_iff :
    s.locate access name = .ok x ↔
      s.bindings[name]? = some x ∧ access.permits x.holding = true := by
  unfold locate
  cases s.bindings[name]? with
  | none => exact ⟨nofun, fun h => nomatch h.1⟩
  | some y =>
    show (if access.permits y.holding then Except.ok y else .error AccessError.wrongHolding) =
      .ok x ↔ _
    by_cases h : access.permits y.holding = true
    · rw [if_pos h]
      constructor
      · rintro ⟨⟩
        exact ⟨rfl, h⟩
      · rintro ⟨⟨⟩, -⟩
        rfl
    · rw [if_neg h]
      constructor
      · nofun
      · rintro ⟨⟨⟩, hpermits⟩
        exact absurd hpermits h

theorem share_eq_ok_iff :
    s.share source name = .ok s' ↔
      ∃ x, s.locate .shared source = .ok x ∧
        { s with bindings := s.bindings.insert name x } = s' := by
  rw [share, bind_eq_ok_iff]
  simp only [pure, Except.pure, Except.ok.injEq]

theorem copy_eq_ok_iff :
    s.copy access source name holding = .ok s' ↔
      ∃ x, s.locate access source = .ok x ∧ s.put name holding (s.table x.cell) = s' := by
  rw [copy, bind_eq_ok_iff]
  simp only [pure, Except.pure, Except.ok.injEq]

theorem forget_eq_ok_iff :
    s.forget name = .ok s' ↔
      ∃ x, s.locate .any name = .ok x ∧ { s with bindings := s.bindings.erase name } = s' := by
  rw [forget, bind_eq_ok_iff]
  simp only [pure, Except.pure, Except.ok.injEq]

theorem view_eq_ok_iff {f : ModuleTable → α} {a : α} :
    s.view access name f = .ok a ↔
      ∃ x, s.locate access name = .ok x ∧ f (s.table x.cell) = a := by
  rw [view, bind_eq_ok_iff]
  simp only [pure, Except.pure, Except.ok.injEq]

theorem change_eq_ok_iff {f : ModuleTable → α × ModuleTable} {a : α} :
    s.change access name f = .ok (a, s') ↔
      ∃ x, s.locate access name = .ok x ∧ (f (s.table x.cell)).1 = a ∧
        { s with cells := s.cells.set x.cell (f (s.table x.cell)).2 } = s' := by
  rw [change, bind_eq_ok_iff]
  simp only [pure, Except.pure, Except.ok.injEq, Prod.mk.injEq]

theorem changeThrough_of_locate {f : Option ModuleTable → α × Option ModuleTable}
    {a : α} {t : ModuleTable} (hx : s.locate .exclusive name = .ok x)
    (hf : f (some (s.table x.cell)) = (a, some t)) :
    s.changeThrough (some name) f = .ok (a, { s with cells := s.cells.set x.cell t }) := by
  rw [changeThrough, change_eq_ok_iff]
  refine ⟨x, hx, ?_, ?_⟩
  · rw [hf]
  · rw [hf]
    rfl

theorem viewThrough_of_locate (f : Option ModuleTable → α)
    (hx : s.locate .exclusive name = .ok x) :
    s.viewThrough (some name) f = .ok (f (some (s.table x.cell))) := by
  rw [viewThrough, view_eq_ok_iff]
  exact ⟨x, hx, rfl⟩

end Success

end TableSpace

end JitSupport
