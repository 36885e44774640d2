import JitSupport.Proofs.Table.Sharing

/-!
# Clients of a shared table

Any number of clients may work on one shared table, each through a name of its own, and take
turns as they like.  A request is served as a whole before the next one is.  As long as no
client uses a key that another client changes, no client can tell that it is not alone: it is
answered as if it were, and the table ends with what each client alone would have left under
its keys, in whatever order the turns were taken.

## Main definitions

* `ModuleTable.Request`, `ModuleTable.request`, `ModuleTable.requests` — what a client asks for,
  and what it gets when it is alone.
* `TableSpace.serve` — the requests of clients served in turn, through the names of the clients.
* `own` — a client's part of what happens in turn.
* `TableSpace.Independent` — clients that do not disturb each other.

## Main results

* `ModuleTable.agree_serve` — a client that shares no changed key with the others is
  served as if it were alone.
* `TableSpace.serve_eq` — clients that use aliases are served from one table.
* `TableSpace.Runs.independent` — **clients on disjoint keys do not disturb each other.**
-/

namespace JitSupport

/-- The part of one client in what clients ask for, or are answered, in turn. -/
def own {ι α : Type} [DecidableEq ι] (i : ι) (turns : List (ι × α)) : List α :=
  turns.filterMap fun turn => if turn.1 = i then some turn.2 else none

/-- What clients ask for in turn, if each asks for its own in its own order. -/
def Interleaves {ι α : Type} [DecidableEq ι] (turns : List (ι × α)) (programs : ι → List α) :
    Prop :=
  ∀ i, own i turns = programs i

section Own

variable {ι α : Type} [DecidableEq ι]

theorem own_cons_self (i : ι) (a : α) (turns : List (ι × α)) :
    own i ((i, a) :: turns) = a :: own i turns := by
  simp [own]

theorem own_cons_of_ne {i j : ι} (h : j ≠ i) (a : α) (turns : List (ι × α)) :
    own i ((j, a) :: turns) = own i turns := by
  simp [own, h]

theorem mem_own_iff {i : ι} {a : α} {turns : List (ι × α)} :
    a ∈ own i turns ↔ (i, a) ∈ turns := by
  simp [own]

theorem Interleaves.mem_iff {turns : List (ι × α)} {programs : ι → List α}
    (h : Interleaves turns programs) {i : ι} {a : α} : (i, a) ∈ turns ↔ a ∈ programs i := by
  rw [← h i, mem_own_iff]

end Own

namespace ModuleTable

/-! ### Requests -/

/-- What a client asks for. -/
inductive Request
  /-- A change of one key. -/
  | edit (e : Edit)
  /-- A lookup. -/
  | resolve (key : UInt64)
  deriving DecidableEq, Repr

/-- The key of a request. -/
def Request.key : Request → UInt64
  | edit e => e.key
  | resolve key => key

/-- Clients keep apart if none of them uses a key that another one changes. -/
def KeepApart {ι : Type} (programs : ι → List Request) : Prop :=
  ∀ i j, i ≠ j → ∀ r ∈ programs i, ∀ e, Request.edit e ∈ programs j → r.key ≠ e.key

/-- The answer to a request, and the table after it. -/
def request (t : ModuleTable) : Request → Option ModuleHandle × ModuleTable
  | .edit e => t.edit e
  | .resolve key => ((t.resolve key).value, t)

/-- The answers to the requests of one client, and the table after all of them. -/
def requests (t : ModuleTable) : List Request → List (Option ModuleHandle) × ModuleTable
  | [] => ([], t)
  | r :: rs =>
    let first := t.request r
    let others := first.2.requests rs
    (first.1 :: others.1, others.2)

/-- The answers to the requests of clients that take turns, and the table after all of them. -/
def serve {ι : Type} (t : ModuleTable) :
    List (ι × Request) → List (ι × Option ModuleHandle) × ModuleTable
  | [] => ([], t)
  | (i, r) :: turns =>
    let first := t.request r
    let others := first.2.serve turns
    ((i, first.1) :: others.1, others.2)

/-- Every request is answered with what its key is associated with before. -/
theorem request_fst (t : ModuleTable) (r : Request) : (t.request r).1 = t.get? r.key := by
  cases r with
  | edit e => exact edit_fst t e
  | resolve key => rfl

/-- A request leaves a key alone that it does not change. -/
theorem get?_request_of_ne {t : ModuleTable} {r : Request} {key : UInt64}
    (h : ∀ e, r = .edit e → e.key ≠ key) : (t.request r).2.get? key = t.get? key := by
  cases r with
  | edit e =>
    show (t.edit e).2.get? key = t.get? key
    rw [get?_edit, if_neg (h e rfl).symm]
  | resolve => rfl

/-- Tables that agree on the key of a request agree after it wherever they agreed before. -/
theorem get?_request_congr {t u : ModuleTable} {r : Request} {key : UInt64}
    (h : t.get? key = u.get? key) : (t.request r).2.get? key = (u.request r).2.get? key := by
  cases r with
  | edit e =>
    show (t.edit e).2.get? key = (u.edit e).2.get? key
    rw [get?_edit, get?_edit, h]
  | resolve => exact h

/-! ### Taking turns -/

section Turns

variable {ι : Type} {t u : ModuleTable} {turns turns' : List (ι × Request)} {i : ι}
  {programs : ι → List Request}

/-- Taking all turns alone is being alone. -/
theorem serve_map (t : ModuleTable) (i : ι) (rs : List Request) :
    t.serve (rs.map fun r => (i, r)) =
      ((t.requests rs).1.map fun answer => (i, answer), (t.requests rs).2) := by
  induction rs generalizing t with
  | nil => rfl
  | cons r rs ih =>
    rw [List.map_cons, serve, ih]
    rfl

/-- A key that is not changed by any client keeps its handle. -/
theorem get?_serve_of_ne {key : UInt64} (h : ∀ j e, (j, .edit e) ∈ turns → e.key ≠ key) :
    (t.serve turns).2.get? key = t.get? key := by
  induction turns generalizing t with
  | nil => rfl
  | cons turn turns ih =>
    obtain ⟨j, r⟩ := turn
    show ((t.request r).2.serve turns).2.get? key = t.get? key
    rw [ih fun j e hmem => h j e (List.mem_cons_of_mem _ hmem)]
    apply get?_request_of_ne
    rintro e rfl
    exact h j e List.mem_cons_self

variable [DecidableEq ι]

/-- A client is served as if it were alone, on keys that hold all of its own and none that
another client changes. -/
theorem agree_serve (keys : UInt64 → Prop) (hkeys : ∀ r, (i, r) ∈ turns → keys r.key)
    (hothers : ∀ j e, j ≠ i → (j, .edit e) ∈ turns → ¬ keys e.key)
    (h : ∀ key, keys key → t.get? key = u.get? key) :
    own i (t.serve turns).1 = (u.requests (own i turns)).1 ∧
      ∀ key, keys key → (t.serve turns).2.get? key = (u.requests (own i turns)).2.get? key := by
  induction turns generalizing t u with
  | nil => exact ⟨rfl, h⟩
  | cons turn turns ih =>
    obtain ⟨j, r⟩ := turn
    have hkeys' : ∀ r, (i, r) ∈ turns → keys r.key :=
      fun r hmem => hkeys r (List.mem_cons_of_mem _ hmem)
    have hothers' : ∀ j e, j ≠ i → (j, .edit e) ∈ turns → ¬ keys e.key :=
      fun j e hj hmem => hothers j e hj (List.mem_cons_of_mem _ hmem)
    show own i ((j, (t.request r).1) :: ((t.request r).2.serve turns).1) = _ ∧
      ∀ key, keys key → ((t.request r).2.serve turns).2.get? key = _
    by_cases hj : j = i
    · -- the client's own turn, which both tables answer alike
      subst hj
      have hanswer : (t.request r).1 = (u.request r).1 := by
        rw [request_fst, request_fst]
        exact h r.key (hkeys r List.mem_cons_self)
      obtain ⟨hanswers, htable⟩ := ih (u := (u.request r).2) hkeys' hothers'
        fun key hkey => get?_request_congr (h key hkey)
      rw [own_cons_self, own_cons_self, hanswer, hanswers]
      exact ⟨rfl, htable⟩
    · -- another client's turn, which the client alone does not take
      rw [own_cons_of_ne hj, own_cons_of_ne hj]
      apply ih hkeys' hothers'
      intro key hkey
      rw [get?_request_of_ne, h key hkey]
      rintro e rfl heq
      exact hothers j e hj List.mem_cons_self (heq ▸ hkey)

/-- A client that keeps apart from the others is served as if it were alone. -/
theorem serve_own (hturns : Interleaves turns programs) (hapart : KeepApart programs) (i : ι) :
    own i (t.serve turns).1 = (t.requests (programs i)).1 ∧
      ∀ r ∈ programs i,
        (t.serve turns).2.get? r.key = (t.requests (programs i)).2.get? r.key := by
  let keys (key : UInt64) : Prop := ∃ r ∈ programs i, r.key = key
  have hkeys : ∀ r, (i, r) ∈ turns → keys r.key :=
    fun r hmem => ⟨r, hturns.mem_iff.mp hmem, rfl⟩
  have hothers : ∀ j e, j ≠ i → (j, .edit e) ∈ turns → ¬ keys e.key := by
    rintro j e hj hmem ⟨r, hr, heq⟩
    exact hapart i j hj.symm r hr e (hturns.mem_iff.mp hmem) heq
  obtain ⟨hanswers, htable⟩ := agree_serve keys hkeys hothers fun key _ => @rfl _ (t.get? key)
  rw [hturns i] at hanswers htable
  exact ⟨hanswers, fun r hr => htable r.key ⟨r, hr, rfl⟩⟩

/-- A key that no client uses keeps its handle. -/
theorem get?_serve_of_unused (hturns : Interleaves turns programs) {key : UInt64}
    (h : ∀ i, ∀ r ∈ programs i, r.key ≠ key) : (t.serve turns).2.get? key = t.get? key := by
  apply get?_serve_of_ne
  intro j e hmem
  exact h j (.edit e) (hturns.mem_iff.mp hmem)

/-- The order of the turns makes no difference to the table. -/
theorem serve_comm (hturns : Interleaves turns programs) (hturns' : Interleaves turns' programs)
    (hapart : KeepApart programs) : (t.serve turns).2 = (t.serve turns').2 := by
  apply ext_get?
  intro key
  by_cases h : ∃ i, ∃ r ∈ programs i, r.key = key
  · obtain ⟨i, r, hr, rfl⟩ := h
    rw [(serve_own hturns hapart i).2 r hr, (serve_own hturns' hapart i).2 r hr]
  · have hunused : ∀ i, ∀ r ∈ programs i, r.key ≠ key :=
      fun i r hr heq => h ⟨i, r, hr, heq⟩
    rw [get?_serve_of_unused hturns hunused, get?_serve_of_unused hturns' hunused]

end Turns

end ModuleTable

namespace TableSpace

open ModuleTable (Request)

/-! ### Names -/

/-- The answer to a request that is made through a name of a shared table. -/
def ask (s : TableSpace) (name : String) :
    Request → Except AccessError (Option ModuleHandle × TableSpace)
  | .edit e => s.change .shared name fun t => t.edit e
  | .resolve key => do
    let answer ← s.view .shared name fun t => (t.resolve key).value
    return (answer, s)

/-- The answers to the requests of clients that take turns, each through a name of its own. -/
def serve {ι : Type} (s : TableSpace) (names : ι → String) :
    List (ι × Request) → Except AccessError (List (ι × Option ModuleHandle) × TableSpace)
  | [] => .ok ([], s)
  | (i, r) :: turns => do
    let (answer, s') ← s.ask (names i) r
    let (answers, s'') ← s'.serve names turns
    return ((i, answer) :: answers, s'')

section Serving

variable {ι : Type} {s : TableSpace} {names : ι → String} {name source : String} {x : Binding}

/-- A request is answered from the table in the cell of the name, and changes nothing else. -/
theorem ask_eq (hx : s.locate .shared name = .ok x) (hcell : x.cell < s.cells.length)
    (r : Request) :
    ∃ s', s.ask name r = .ok (((s.table x.cell).request r).1, s') ∧ s'.bindings = s.bindings ∧
      s'.cells.length = s.cells.length ∧ s'.table x.cell = ((s.table x.cell).request r).2 := by
  cases r with
  | edit e =>
    refine ⟨{ s with cells := s.cells.set x.cell ((s.table x.cell).edit e).2 }, ?_, rfl,
      List.length_set, table_set_self hcell _⟩
    show s.change .shared name (fun t => t.edit e) = _
    exact change_eq_ok_iff.mpr ⟨x, hx, rfl, rfl⟩
  | resolve key =>
    refine ⟨s, bind_eq_ok_iff.mpr ⟨_, view_eq_ok_iff.mpr ⟨x, hx, rfl⟩, rfl⟩, rfl, rfl, rfl⟩

/-- Clients whose names lead to one cell are served from the table there. -/
theorem serve_eq (hx : ∀ i, s.locate .shared (names i) = .ok x)
    (hcell : x.cell < s.cells.length) (turns : List (ι × Request)) :
    ∃ s', s.serve names turns = .ok (((s.table x.cell).serve turns).1, s') ∧
      s'.bindings = s.bindings ∧ s'.table x.cell = ((s.table x.cell).serve turns).2 := by
  induction turns generalizing s with
  | nil => exact ⟨s, rfl, rfl, rfl⟩
  | cons turn turns ih =>
    obtain ⟨i, r⟩ := turn
    obtain ⟨s₁, hask, hbindings, hlength, htable⟩ := ask_eq (hx i) hcell r
    have hx₁ : ∀ i, s₁.locate .shared (names i) = .ok x := by
      intro i
      rw [locate, hbindings]
      exact hx i
    obtain ⟨s₂, hserve, hbindings₂, htable₂⟩ := ih hx₁ (hlength ▸ hcell)
    rw [htable] at hserve htable₂
    refine ⟨s₂, ?_, hbindings₂.trans hbindings, htable₂⟩
    exact bind_eq_ok_iff.mpr ⟨_, hask, bind_eq_ok_iff.mpr ⟨_, hserve, rfl⟩⟩

/-! ### Clients that keep apart -/

/-- Clients that do not disturb each other when they work on the table under a name, each
through a name of its own. -/
structure Independent [DecidableEq ι] (s : TableSpace) (source : String) (t : ModuleTable)
    (names : ι → String) (programs : ι → List Request) : Prop where
  /-- A client that is alone is served from the table. -/
  alone : ∀ i, ∃ s', s'.contents? source = some (t.requests (programs i)).2 ∧
    s.serve names ((programs i).map fun r => (i, r)) =
      .ok ((t.requests (programs i)).1.map fun answer => (i, answer), s')
  /-- Clients that take turns are served, too.  Each is answered as if it were alone, the table
  ends with what each alone would have left under its keys, and under keys that nobody uses it
  stays as it is. -/
  together : ∀ turns, Interleaves turns programs →
    ∃ answers s' t', s.serve names turns = .ok (answers, s') ∧ s'.contents? source = some t' ∧
      (∀ i, own i answers = (t.requests (programs i)).1) ∧
      (∀ i, ∀ r ∈ programs i, t'.get? r.key = (t.requests (programs i)).2.get? r.key) ∧
      ∀ key, (∀ i, ∀ r ∈ programs i, r.key ≠ key) → t'.get? key = t.get? key
  /-- In whatever order the turns are taken, they end with one and the same table. -/
  same : ∀ turns turns', Interleaves turns programs → Interleaves turns' programs →
    ∃ answers answers' s₁ s₂ t', s.serve names turns = .ok (answers, s₁) ∧
      s.serve names turns' = .ok (answers', s₂) ∧
      s₁.contents? source = some t' ∧ s₂.contents? source = some t'

/-- **Clients on disjoint keys do not disturb each other.** -/
theorem Runs.independent [DecidableEq ι] {past : List Step} {t : ModuleTable}
    {programs : ι → List Request} (hrun : Runs .empty past s)
    (hsource : s.view .shared source id = .ok t)
    (hnames : ∀ i, areAliases past source (names i) = true)
    (hapart : ModuleTable.KeepApart programs) : s.Independent source t names programs := by
  have htracks : s.Tracks past := hrun.tracks
  obtain ⟨x, hlocate, rfl⟩ := view_eq_ok_iff.mp hsource
  obtain ⟨hx, hshared⟩ := locate_eq_ok_iff.mp hlocate
  have hlocates : ∀ i, s.locate .shared (names i) = .ok x := by
    intro i
    obtain ⟨y, hy, hi⟩ := (htracks.areAliases_iff source (names i)).mp (hnames i)
    cases hx.symm.trans hy
    exact locate_eq_ok_iff.mpr ⟨hi, hshared⟩
  have hserve : ∀ turns, ∃ s', s.serve names turns =
      .ok (((s.table x.cell).serve turns).1, s') ∧
      s'.contents? source = some ((s.table x.cell).serve turns).2 := by
    intro turns
    obtain ⟨s', hs', hbindings, htable⟩ := serve_eq hlocates (htracks.cell_lt hx) turns
    refine ⟨s', hs', ?_⟩
    rw [contents?_of_bindings (hbindings ▸ hx), htable]
  constructor
  case alone =>
    intro i
    obtain ⟨s', hs', hcontents⟩ := hserve ((programs i).map fun r => (i, r))
    rw [ModuleTable.serve_map] at hs' hcontents
    exact ⟨s', hcontents, hs'⟩
  case together =>
    intro turns hturns
    obtain ⟨s', hs', hcontents⟩ := hserve turns
    refine ⟨_, s', _, hs', hcontents, ?_, ?_, ?_⟩
    · exact fun i => (ModuleTable.serve_own hturns hapart i).1
    · exact fun i => (ModuleTable.serve_own hturns hapart i).2
    · exact fun key hkey => ModuleTable.get?_serve_of_unused hturns hkey
  case same =>
    intro turns turns' hturns hturns'
    obtain ⟨s₁, hs₁, hcontents₁⟩ := hserve turns
    obtain ⟨s₂, hs₂, hcontents₂⟩ := hserve turns'
    rw [ModuleTable.serve_comm hturns' hturns hapart] at hcontents₂
    exact ⟨_, _, s₁, s₂, _, hs₁, hs₂, hcontents₁, hcontents₂⟩

/-- Two clients: one changes a key and looks it up, and the other one removes another key twice. -/
def twoPrograms (handle : ModuleHandle) : Bool → List Request
  | false => [.edit (.insert 2 handle), .resolve 2]
  | true => [.edit (.remove 1), .edit (.remove 1)]

theorem key_of_mem_twoPrograms {handle : ModuleHandle} {i : Bool} {r : Request}
    (hr : r ∈ twoPrograms handle i) : r.key = if i then 1 else 2 := by
  cases i with
  | false =>
    rcases List.mem_pair.mp hr with rfl | rfl
    · rfl
    · rfl
  | true =>
    rcases List.mem_pair.mp hr with rfl | rfl
    · rfl
    · rfl

theorem keepApart_twoPrograms (handle : ModuleHandle) :
    ModuleTable.KeepApart (twoPrograms handle) := by
  intro i j hij r hr e he heq
  have hkeys : (if i then 1 else 2 : UInt64) = if j then 1 else 2 := by
    rw [← key_of_mem_twoPrograms hr, ← key_of_mem_twoPrograms he]
    exact heq
  cases i with
  | false =>
    cases j with
    | false => exact hij rfl
    | true => exact absurd hkeys (by decide)
  | true =>
    cases j with
    | false => exact absurd hkeys (by decide)
    | true => exact hij rfl

/-- The second client of a table uses the second name. -/
def twoNames : Bool → String
  | false => "map"
  | true => "view"

theorem twoPrograms_independent :
    Runs .empty (copiedThenChangedPast ⟨8, by decide⟩) (copiedThenChanged ⟨8, by decide⟩) ∧
      (copiedThenChanged ⟨8, by decide⟩).view .shared "map" id =
        .ok (ModuleTable.empty.insert 1 ⟨8, by decide⟩).2 ∧
      (∀ i, areAliases (copiedThenChangedPast ⟨8, by decide⟩) "map" (twoNames i) = true) ∧
      ModuleTable.KeepApart (twoPrograms ⟨16, by decide⟩) ∧
      (copiedThenChanged ⟨8, by decide⟩).Independent "map"
        (ModuleTable.empty.insert 1 ⟨8, by decide⟩).2 twoNames (twoPrograms ⟨16, by decide⟩) := by
  have hnames : ∀ i,
      areAliases (copiedThenChangedPast ⟨8, by decide⟩) "map" (twoNames i) = true := by
    decide
  exact ⟨runs_copiedThenChanged _, rfl, hnames, keepApart_twoPrograms _,
    (runs_copiedThenChanged _).independent rfl hnames (keepApart_twoPrograms _)⟩

end Serving

end TableSpace

end JitSupport
