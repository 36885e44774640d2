import JitSupport.Proofs.Table.Clients
import JitSupport.Table.Raw

/-!
# Calls from outside

Callers from outside hold tables through pointers and handles as plain addresses.  Their calls
are simulated by requests from inside: a call is the request for the same change or the same
lookup, and a call that makes no request, through a null pointer or with a null handle, is a step
that stays where it is.  Zero says four things on the way, and still no answer is lost, as no
table ever holds the null handle: an answer is zero exactly if there is no handle to answer with.

## Main definitions

* `inTurn` — steps taken one after another.
* `ModuleTable.Raw.Call`, `TableSpace.call` — a call from outside, and what it does.
* `TableSpace.request?` — the request that a call makes, and of which table.
* `TableSpace.fulfil` — a request from inside.
* `TableSpace.Mirrors` — answers to calls and answers to the requests that they make.
* `TableSpace.Simulates` — calls that are simulated by their requests.

## Main results

* `TableSpace.call_of_request` — a call that makes a request does what the request does.
* `TableSpace.call_of_no_request` — a call that makes none does nothing.
* `TableSpace.mirrors_inTurn` — calls one after another do what their requests do.
* `TableSpace.simulates` — **calls from outside are simulated by requests from inside.**
-/

namespace JitSupport

/-! ### Steps in turn -/

/-- Takes steps one after another, as long as they succeed. -/
def inTurn {ε σ α β : Type} (step : σ → α → Except ε (β × σ)) (s : σ) :
    List α → Except ε (List β × σ)
  | [] => .ok ([], s)
  | a :: as => do
    let (b, s') ← step s a
    let (bs, s'') ← inTurn step s' as
    return (b :: bs, s'')

theorem inTurn_cons_of_ok {ε σ α β : Type} {step : σ → α → Except ε (β × σ)} {s s' s'' : σ}
    {a : α} {as : List α} {b : β} {bs : List β} (h : step s a = .ok (b, s'))
    (hothers : inTurn step s' as = .ok (bs, s'')) :
    inTurn step s (a :: as) = .ok (b :: bs, s'') := by
  rw [inTurn, h]
  show (inTurn step s' as >>= fun others => pure (b :: others.1, others.2)) = _
  rw [hothers]
  rfl

namespace ModuleTable.Raw

/-! ### Calls -/

/-- What is called from outside. -/
inductive Call
  /-- Associate a key with the handle at an address. -/
  | insert (key address : UInt64)
  /-- Associate a key with nothing. -/
  | remove (key : UInt64)
  /-- Look a key up. -/
  | get (key : UInt64)
  deriving DecidableEq, Repr

/-- What a call asks of a table.  There is no way to ask for the null handle. -/
def Call.request? : Call → Option Request
  | insert key address =>
    (ModuleHandle.ofAddress? address).map fun handle => .edit (.insert key handle)
  | remove key => some (.edit (.remove key))
  | get key => some (.resolve key)

/-- How a call is answered that asks nothing of any table: with the null address, and for a
lookup with the report that there was no table. -/
def Call.dropped : Call → Logged UInt64
  | insert .. | remove _ => ⟨0, []⟩
  | get key => ⟨0, [.tableMissing key]⟩

end ModuleTable.Raw

namespace TableSpace

open ModuleTable (Request Raw.Call)

/-- What a call from outside does, through a pointer that leads to a table under a name or is
null. -/
def call (s : TableSpace) :
    Option String × Raw.Call → Except AccessError (Logged UInt64 × TableSpace)
  | (pointer, .insert key address) => do
    let (answer, s') ← s.changeThrough pointer fun t => ModuleTable.Raw.insert t key address
    return (pure answer, s')
  | (pointer, .remove key) => do
    let (answer, s') ← s.changeThrough pointer fun t => ModuleTable.Raw.remove t key
    return (pure answer, s')
  | (pointer, .get key) => do
    let answer ← s.viewThrough pointer fun t => ModuleTable.Raw.get t key
    return (answer, s)

/-- What a request does that the owner of a table makes of it. -/
def fulfil (s : TableSpace) :
    String × Request → Except AccessError (Logged (Option ModuleHandle) × TableSpace)
  | (name, .edit e) => do
    let (answer, s') ← s.change .exclusive name fun t => t.edit e
    return (pure answer, s')
  | (name, .resolve key) => do
    let answer ← s.view .exclusive name fun t => t.resolve key
    return (answer, s)

/-- The request that a call makes, with the table that it makes it of.  Nothing is asked through
a null pointer. -/
def request? : Option String × Raw.Call → Option (String × Request)
  | (none, _) => none
  | (some name, c) => c.request?.map fun r => (name, r)

/-- A pointer that is null or leads to a table for callers from outside. -/
def IsLive (s : TableSpace) (pointer : Option String) : Prop :=
  ∀ name, pointer = some name → ∃ x, s.locate .exclusive name = .ok x

/-! ### One call -/

/-- The answer to a call, next to the answer to the request that it makes. -/
structure IsMirrored (result : Logged (Option ModuleHandle)) (answer : Logged UInt64) : Prop where
  /-- The call is answered with the address of the handle. -/
  value_eq : answer.value = ModuleHandle.toAddress result.value
  /-- It is answered with the null address exactly if there is no handle. -/
  value_eq_zero_iff : answer.value = 0 ↔ result.value = none
  /-- It is reported as the request is. -/
  events_eq : answer.events = result.events

theorem isMirrored_map (result : Logged (Option ModuleHandle)) :
    IsMirrored result (ModuleHandle.toAddress <$> result) where
  value_eq := rfl
  value_eq_zero_iff := ModuleHandle.toAddress_eq_zero_iff
  events_eq := Logged.events_map ..

section Calls

variable {s : TableSpace} {name : String} {x : Binding} {pointer : Option String}
  {c : Raw.Call} {r : Request}

theorem IsLive.of_bindings_eq {s' : TableSpace} (h : s.IsLive pointer)
    (hbindings : s'.bindings = s.bindings) : s'.IsLive pointer := by
  intro name hname
  obtain ⟨x, hx⟩ := h name hname
  refine ⟨x, ?_⟩
  rw [locate, hbindings]
  exact hx

theorem request?_eq_some_iff :
    request? (pointer, c) = some (name, r) ↔ pointer = some name ∧ c.request? = some r := by
  cases pointer with
  | none => exact ⟨nofun, nofun⟩
  | some first =>
    show c.request?.map (fun r => (first, r)) = some (name, r) ↔ _
    simp [and_comm]

/-- A call that makes a request does what the request does, and answers with what it answers. -/
theorem call_of_request (hx : s.locate .exclusive name = .ok x) (hr : c.request? = some r) :
    ∃ result answer s', s.fulfil (name, r) = .ok (result, s') ∧
      s.call (some name, c) = .ok (answer, s') ∧ IsMirrored result answer ∧
        s'.bindings = s.bindings := by
  cases c with
  | insert key address =>
    obtain ⟨handle, hhandle, rfl⟩ := Option.map_eq_some_iff.mp hr
    obtain rfl := ModuleHandle.ofAddress?_eq_some_iff.mp hhandle
    have hinside : s.change .exclusive name (fun t => t.edit (.insert key handle)) = _ :=
      change_eq_ok_iff.mpr ⟨x, hx, rfl, rfl⟩
    have houtside := changeThrough_of_locate
      (f := fun t => ModuleTable.Raw.insert t key handle.address) hx
      (ModuleTable.Raw.insert_address _ key handle)
    exact ⟨_, _, _, bind_eq_ok_iff.mpr ⟨_, hinside, rfl⟩, bind_eq_ok_iff.mpr ⟨_, houtside, rfl⟩,
      isMirrored_map _, rfl⟩
  | remove key =>
    cases hr
    have hinside : s.change .exclusive name (fun t => t.edit (.remove key)) = _ :=
      change_eq_ok_iff.mpr ⟨x, hx, rfl, rfl⟩
    have houtside := changeThrough_of_locate (f := fun t => ModuleTable.Raw.remove t key) hx
      (ModuleTable.Raw.remove_some _ key)
    exact ⟨_, _, _, bind_eq_ok_iff.mpr ⟨_, hinside, rfl⟩, bind_eq_ok_iff.mpr ⟨_, houtside, rfl⟩,
      isMirrored_map _, rfl⟩
  | get key =>
    cases hr
    have hinside : s.view .exclusive name (fun t => t.resolve key) = _ :=
      view_eq_ok_iff.mpr ⟨x, hx, rfl⟩
    have houtside := viewThrough_of_locate (fun t => ModuleTable.Raw.get t key) hx
    exact ⟨_, _, s, bind_eq_ok_iff.mpr ⟨_, hinside, rfl⟩, bind_eq_ok_iff.mpr ⟨_, houtside, rfl⟩,
      isMirrored_map _, rfl⟩

/-- A call that makes no request does nothing. -/
theorem call_of_no_request (hlive : s.IsLive pointer) (hr : request? (pointer, c) = none) :
    s.call (pointer, c) = .ok (c.dropped, s) := by
  cases pointer with
  | none => cases c <;> rfl
  | some name =>
    obtain ⟨x, hx⟩ := hlive name rfl
    cases c with
    | insert key address =>
      -- only the null address is no handle
      have hnone : ModuleHandle.ofAddress? address = none := by
        simpa [request?, Raw.Call.request?] using hr
      obtain rfl := ModuleHandle.ofAddress?_eq_none_iff.mp hnone
      have hchange := changeThrough_of_locate (f := fun t => ModuleTable.Raw.insert t key 0) hx
        (ModuleTable.Raw.insert_zero _ key)
      rw [set_table_self] at hchange
      exact bind_eq_ok_iff.mpr ⟨_, hchange, rfl⟩
    | remove key => cases hr
    | get key => cases hr

end Calls

/-! ### Calls in turn -/

/-- The answers to calls, next to the answers to the requests that they make. -/
inductive Mirrors : List (Option String × Raw.Call) → List (Logged (Option ModuleHandle)) →
    List (Logged UInt64) → Prop
  /-- There is nothing to answer. -/
  | nil : Mirrors [] [] []
  /-- A call that makes a request is answered as the request is. -/
  | served {c : Option String × Raw.Call} {r : String × Request}
    {calls : List (Option String × Raw.Call)} {result : Logged (Option ModuleHandle)}
    {results : List (Logged (Option ModuleHandle))} {answer : Logged UInt64}
    {answers : List (Logged UInt64)} (hr : request? c = some r) (h : IsMirrored result answer)
    (hothers : Mirrors calls results answers) :
    Mirrors (c :: calls) (result :: results) (answer :: answers)
  /-- A call that makes none is answered with the null address. -/
  | dropped {c : Option String × Raw.Call} {calls : List (Option String × Raw.Call)}
    {results : List (Logged (Option ModuleHandle))} {answers : List (Logged UInt64)}
    (hr : request? c = none) (hothers : Mirrors calls results answers) :
    Mirrors (c :: calls) results (c.2.dropped :: answers)

section Simulation

variable {s : TableSpace} {calls : List (Option String × Raw.Call)}

/-- Calls one after another do what their requests do one after another, and answer with what
these answer.  No pointer loses its table on the way. -/
theorem mirrors_inTurn (hlive : ∀ c ∈ calls, s.IsLive c.1) :
    ∃ answers results s', inTurn call s calls = .ok (answers, s') ∧
      inTurn fulfil s (calls.filterMap request?) = .ok (results, s') ∧
        Mirrors calls results answers ∧ s'.bindings = s.bindings := by
  induction calls generalizing s with
  | nil => exact ⟨[], [], s, rfl, rfl, .nil, rfl⟩
  | cons c calls ih =>
    obtain ⟨pointer, c⟩ := c
    have hfirst := hlive _ List.mem_cons_self
    have hothers : ∀ c ∈ calls, s.IsLive c.1 := fun c hc => hlive c (List.mem_cons_of_mem _ hc)
    cases hr : request? (pointer, c) with
    | none =>
      -- the requests do not take this step, and the calls take it without moving
      obtain ⟨answers, results, s', houtside, hinside, hmirrors, hstays⟩ := ih hothers
      refine ⟨_, results, s', inTurn_cons_of_ok (call_of_no_request hfirst hr) houtside, ?_,
        .dropped hr hmirrors, hstays⟩
      rw [List.filterMap_cons_none hr]
      exact hinside
    | some r =>
      obtain ⟨name, r⟩ := r
      obtain ⟨rfl, hrequest⟩ := request?_eq_some_iff.mp hr
      obtain ⟨x, hx⟩ := hfirst name rfl
      obtain ⟨result, answer, s₁, hfulfil, hcall, hmirrored, hbindings⟩ :=
        call_of_request hx hrequest
      obtain ⟨answers, results, s', houtside, hinside, hmirrors, hstays⟩ :=
        ih fun c hc => (hothers c hc).of_bindings_eq hbindings
      refine ⟨_, _, s', inTurn_cons_of_ok hcall houtside, ?_, .served hr hmirrored hmirrors,
        hstays.trans hbindings⟩
      rw [List.filterMap_cons_some hr]
      exact inTurn_cons_of_ok hfulfil hinside

/-- Calls from outside that are simulated by the requests that they make. -/
structure Simulates (s : TableSpace) (calls : List (Option String × Raw.Call)) : Prop where
  /-- The calls are all answered, and so are their requests, each like its call.  Both leave every
  table with the same contents. -/
  mirrored : ∃ answers results s', inTurn call s calls = .ok (answers, s') ∧
    inTurn fulfil s (calls.filterMap request?) = .ok (results, s') ∧
      Mirrors calls results answers
  /-- A call that makes no request changes nothing, wherever it comes. -/
  stutters : ∀ before c after, calls = before ++ c :: after → request? c = none →
    ∃ answers s', inTurn call s before = .ok (answers, s') ∧
      s'.call c = .ok (c.2.dropped, s')
  /-- No table ever holds the null handle, so that a lookup from outside answers with the null
  address exactly if there is nothing under the key. -/
  no_null : ∀ answers s', inTurn call s calls = .ok (answers, s') →
    ∀ name t, s'.contents? name = some t →
      (∀ e ∈ t.toList, e.2.address ≠ 0) ∧
        ∀ key, (ModuleTable.Raw.get (some t) key).value = 0 ↔ t.contains key = false

/-- **Calls from outside are simulated by requests from inside.**  Whatever tables there are,
and whatever is called, through pointers that are null or lead to one of them. -/
theorem simulates (hlive : ∀ c ∈ calls, s.IsLive c.1) : s.Simulates calls where
  mirrored := by
    obtain ⟨answers, results, s', houtside, hinside, hmirrors, -⟩ := mirrors_inTurn hlive
    exact ⟨answers, results, s', houtside, hinside, hmirrors⟩
  stutters := by
    rintro before ⟨pointer, c⟩ after rfl hr
    have hbefore : ∀ c ∈ before, s.IsLive c.1 := fun c hc => hlive c (List.mem_append_left _ hc)
    have hthis : s.IsLive pointer :=
      hlive (pointer, c) (List.mem_append_right _ List.mem_cons_self)
    obtain ⟨answers, _, s', houtside, _, _, hbindings⟩ := mirrors_inTurn hbefore
    exact ⟨answers, s', houtside, call_of_no_request (hthis.of_bindings_eq hbindings) hr⟩
  no_null := by
    intro answers s' _ name t _
    refine ⟨fun e _ => e.2.address_ne_zero, fun key => ?_⟩
    show ModuleHandle.toAddress (t.get? key) = 0 ↔ _
    rw [ModuleHandle.toAddress_eq_zero_iff, ModuleTable.contains_eq_isSome,
      Option.isSome_eq_false_iff, Option.isNone_iff_eq_none]

/-- A table of an owner that is empty, and one of callers from outside with a key. -/
def heldTwice (handle : ModuleHandle) : TableSpace :=
  (empty.put "inside" .owned .empty).put "outside" .foreign (ModuleTable.empty.insert 1 handle).2

/-- Calls with and without a table and a handle, on a key that is there and one that is not. -/
def mixedCalls : List (Option String × Raw.Call) :=
  [(some "outside", .insert 1 0), (none, .insert 1 16), (some "outside", .get 1),
    (some "outside", .insert 1 16), (none, .get 1), (some "inside", .remove 1),
    (none, .remove 1), (some "outside", .remove 1), (some "outside", .get 1)]

theorem isLive_heldTwice (handle : ModuleHandle) {pointer : Option String}
    (h : pointer ∈ mixedCalls.map Prod.fst) : (heldTwice handle).IsLive pointer := by
  rintro name rfl
  have hname : name = "outside" ∨ name = "inside" ∨ name = "outside" := by
    simpa [mixedCalls] using h
  rcases hname with rfl | rfl | rfl
  · exact ⟨⟨.foreign, 1⟩, rfl⟩
  · exact ⟨⟨.owned, 0⟩, rfl⟩
  · exact ⟨⟨.foreign, 1⟩, rfl⟩

theorem mixedCalls_simulates :
    (∀ c ∈ mixedCalls, (heldTwice ⟨8, by decide⟩).IsLive c.1) ∧
      (inTurn call (heldTwice ⟨8, by decide⟩) mixedCalls).toOption.map (·.1.map (·.value)) =
        some [0, 0, 8, 8, 0, 0, 0, 16, 0] ∧
      (heldTwice ⟨8, by decide⟩).Simulates mixedCalls := by
  have hlive : ∀ c ∈ mixedCalls, (heldTwice ⟨8, by decide⟩).IsLive c.1 :=
    fun c hc => isLive_heldTwice _ (List.mem_map_of_mem hc)
  exact ⟨hlive, rfl, simulates hlive⟩

end Simulation

end TableSpace

end JitSupport
