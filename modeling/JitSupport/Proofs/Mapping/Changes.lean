import JitSupport.Proofs.Mapping
import JitSupport.Proofs.Widening

/-!
# Changes of the protection of a mapping

The protection of a mapping is changed part by part.  A part only has to start with a page.  The
operating system changes whole pages, so that it may reach beyond the end of the part, but never
beyond the end of the mapping, which is a whole number of pages itself
(`Mapping.size_mod_of_create`).  Whatever parts are named, in whatever order, and whichever calls
are turned down: the pages that a part meets are changed if its call is carried out, and nothing
else is, no other page, no page behind the mapping, and none of the bytes.

## Main definitions

* `Mapping.Change` — a part that may be executed or written from now on.
* `Mapping.Change.IsBroken` — a part that is stopped before the operating system is called.
* `Mapping.Change.Meets` — the pages that a part meets.
* `Mapping.Change.Step` — the ways in which a change ends.
* `Mapping.Change.latest?` — the last of some changes to meet a page.
* `Mapping.Changes` — changes one after another, with those that were carried out.
* `Mapping.Confined` — a change that touches the pages of its part only.

## Main results

* `Mapping.Change.step_perform` — a change ends in one of the listed ways.
* `Mapping.Change.exists_extent` — the pages of a part end within the mapping.
* `Mapping.Change.Step.protection?_eq` — what a change does to the protection of a page.
* `Mapping.Changes.protection?_eq` — what many changes do to it.
* `Mapping.changes_confined` — **changes of protection stay inside the mapping and touch only the
  pages that they name.**
-/

namespace JitSupport.Mapping

/-! ### One change -/

/-- A change of the protection of a part. -/
inductive Change
  /-- From now on the part may be executed, and not be written. -/
  | executable (first last : UInt64)
  /-- From now on the part may be written, and not be executed. -/
  | writable (first last : UInt64)
  deriving DecidableEq, Repr

namespace Change

/-- Where the part starts. -/
def first : Change → UInt64
  | executable first _ => first
  | writable first _ => first

/-- Where the part stops. -/
def last : Change → UInt64
  | executable _ last => last
  | writable _ last => last

/-- The protection that the part is to have. -/
def protection : Change → Protection
  | executable .. => .readExecute
  | writable .. => .readWrite

/-- Makes the change. -/
def perform : Change → Action Mapping Unit
  | executable first last => do (← get).makeExecutable first last
  | writable first last => do (← get).makeWritable first last

/-- The part is out of order, or reaches behind the mapping, or starts in the middle of a page. -/
def IsBroken (m : Mapping) (c : Change) : Prop :=
  c.last < c.first ∨ m.size < c.last ∨ ¬ Page.size.toNat ∣ c.first.toNat

/-- Some byte of the part lies in a page. -/
def Meets (c : Change) (page : Nat) : Prop :=
  ∃ i, (c.first.toNat ≤ i ∧ i < c.last.toNat) ∧ i / Page.size.toNat = page

/-- The ways in which a change ends. -/
inductive Step (m : Mapping) (k : Kernel) (c : Change) : Outcome Mapping Unit → Prop
  /-- The part is broken. -/
  | broken {v : Violation} (h : c.IsBroken m) : Step m k c ⟨.error (.violation v), m, k, []⟩
  /-- There is nothing to change. -/
  | nothing (h : ¬ c.IsBroken m) (heq : c.first = c.last) : Step m k c ⟨.ok (), m, k, []⟩
  /-- The operating system carries the change out. -/
  | granted (h : m.HoldsPages c.first c.last) (hk : k.protect = none) :
    Step m k c ⟨.ok (), m, k.afterProtect, Trace.granted c.first c.last c.protection⟩
  /-- The operating system turns the change down. -/
  | denied {reason : Errno} (h : m.HoldsPages c.first c.last) (hk : k.protect = some reason) :
    Step m k c ⟨.error (.error (.virtualMemory reason)), m, k.afterProtect,
      Trace.denied c.first c.last c.protection reason⟩

variable {m m' : Mapping} {t t' : Trace} {c : Change} {k : Kernel} {page : Nat}
  {past : List Change} {o : Outcome Mapping Unit}

theorem perform_eq (c : Change) (m : Mapping) (k : Kernel) :
    c.perform m k = m.protect c.first c.last c.protection m k := by
  cases c with
  | executable first last => rfl
  | writable first last => rfl

theorem not_isBroken_iff :
    ¬ c.IsBroken m ↔ c.first ≤ c.last ∧ c.last ≤ m.size ∧ c.first % Page.size = 0 := by
  simp only [IsBroken, not_or, UInt64.not_lt, Decidable.not_not, UInt64.mod_eq_zero_iff,
    Nat.dvd_iff_mod_eq_zero]

theorem not_isBroken_of_holdsPages (h : m.HoldsPages c.first c.last) : ¬ c.IsBroken m :=
  not_isBroken_iff.mpr ⟨UInt64.le_of_lt h.lt, h.le_size, h.aligned⟩

/-- A change ends in one of the listed ways. -/
theorem step_perform (m : Mapping) (k : Kernel) (c : Change) : Step m k c (c.perform m k) := by
  rw [perform_eq]
  by_cases hbroken : c.IsBroken m
  · by_cases horder : c.last < c.first
    · rw [run_protect_of_inverted c.protection m k horder]
      exact .broken hbroken
    · have hle := UInt64.not_lt.mp horder
      by_cases hlast : m.size < c.last
      · rw [run_protect_of_outside c.protection m k hle hlast]
        exact .broken hbroken
      · have halign : c.first % Page.size ≠ 0 := by
          intro h
          exact not_isBroken_iff.mpr ⟨hle, UInt64.not_lt.mp hlast, h⟩ hbroken
        rw [run_protect_of_unaligned c.protection m k hle (UInt64.not_lt.mp hlast) halign]
        exact .broken hbroken
  · obtain ⟨hle, hlast, halign⟩ := not_isBroken_iff.mp hbroken
    by_cases heq : c.first = c.last
    · rw [run_protect_of_eq c.protection m k heq hlast halign]
      exact .nothing hbroken heq
    · have hpages : m.HoldsPages c.first c.last := ⟨halign, UInt64.lt_of_le_of_ne hle heq, hlast⟩
      cases hk : k.protect with
      | none =>
        rw [run_protect_of_granted hpages c.protection m hk]
        exact .granted hpages hk
      | some reason =>
        rw [run_protect_of_denied hpages c.protection m hk]
        exact .denied hpages hk

/-- The pages of a part end within the mapping, which is a whole number of pages. -/
theorem exists_extent (hwhole : m.size % Page.size = 0) (h : ¬ c.IsBroken m) :
    ∃ extent, IsLeast {n | Page.size.toNat ∣ n ∧ (c.last - c.first).toNat ≤ n} extent ∧
      c.first.toNat + extent ≤ m.size.toNat := by
  obtain ⟨hle, hlast, halign⟩ := not_isBroken_iff.mp h
  have hround := Page.isLeast_round (p := Page.size.toNat) (by decide) (c.last - c.first).toNat
  refine ⟨_, hround, ?_⟩
  have hsub := UInt64.toNat_sub_of_le _ _ hle
  rw [UInt64.le_iff_toNat_le] at hle hlast
  -- what is left of the mapping from the part on is a whole number of pages, too
  have hrest : Page.size.toNat ∣ m.size.toNat - c.first.toNat :=
    Nat.dvd_sub (Nat.dvd_of_mod_eq_zero (UInt64.mod_eq_zero_iff.mp hwhole))
      (Nat.dvd_of_mod_eq_zero (UInt64.mod_eq_zero_iff.mp halign))
  have hfits : (c.last - c.first).toNat ≤ m.size.toNat - c.first.toNat := by omega
  have hleast := hround.2 (show m.size.toNat - c.first.toNat ∈ _ from ⟨hrest, hfits⟩)
  omega

/-! ### The pages of a change -/

theorem meets_iff : c.Meets page ↔ c.first.toNat < c.last.toNat ∧
    c.first.toNat < (page + 1) * Page.size.toNat ∧ page * Page.size.toNat < c.last.toNat := by
  rw [Meets, Page.toNat_size]
  constructor
  · rintro ⟨i, ⟨hfirst, hlast⟩, rfl⟩
    omega
  · rintro ⟨hlt, hfirst, hlast⟩
    exact ⟨max c.first.toNat (page * 4096), by omega, by omega⟩

instance (c : Change) (page : Nat) : Decidable (c.Meets page) :=
  decidable_of_iff _ meets_iff.symm

/-- A call reaches the pages that the part meets. -/
theorem touches_iff (h : m.HoldsPages c.first c.last) :
    Page.Touches c.first (c.last - c.first) page ↔ c.Meets page := by
  have hlt := UInt64.lt_iff_toNat_lt.mp h.lt
  rw [meets_iff, Page.Touches, UInt64.toNat_sub_of_le _ _ (UInt64.le_of_lt h.lt)]
  omega

/-- An empty part meets no page. -/
theorem not_meets_of_eq (h : c.first = c.last) : ¬ c.Meets page := by
  rw [meets_iff, h]
  omega

/-- The change, if it was carried out. -/
def carriedOut (c : Change) (o : Outcome Mapping Unit) : List Change :=
  if o.result.isOk then [c] else []

theorem carriedOut_of_ok (h : o.result = .ok ()) : c.carriedOut o = [c] := by
  rw [carriedOut, h]
  rfl

theorem carriedOut_of_error {f : Failure} (h : o.result = .error f) : c.carriedOut o = [] := by
  rw [carriedOut, h]
  rfl

/-- The last of some changes to meet a page. -/
def latest? (past : List Change) (page : Nat) : Option Change :=
  past.reverse.find? (·.Meets page)

theorem latest?_append (past more : List Change) (page : Nat) :
    latest? (past ++ more) page = (latest? more page).or (latest? past page) := by
  rw [latest?, List.reverse_append, List.find?_append, latest?, latest?]

theorem latest?_singleton (c : Change) (page : Nat) :
    latest? [c] page = if c.Meets page then some c else none := by
  rw [latest?, List.reverse_singleton, List.find?_singleton]
  simp only [decide_eq_true_eq]

/-- What a change does to the protection of a page. -/
theorem Step.protection?_eq (hstep : Step m k c o) (page : Nat) :
    o.trace.protection? page = (latest? (c.carriedOut o) page).map protection := by
  cases hstep with
  | broken | denied => rfl
  | nothing h heq =>
    show none = (latest? [c] page).map protection
    rw [latest?_singleton, if_neg (not_meets_of_eq heq)]
    rfl
  | granted h =>
    show _ = (latest? [c] page).map protection
    rw [latest?_singleton, Trace.protection?_granted]
    simp only [touches_iff h]
    split <;> rfl

end Change

/-! ### Changes one after another -/

/-- Changes of the protection of a mapping one after another, each whatever became of the ones
before it, and whatever the operating system is going to answer then.  Listed are those that were
carried out. -/
inductive Changes (m : Mapping) (t : Trace) : List Change → Mapping → Trace → Prop
  /-- Nothing was changed yet. -/
  | nil : Changes m t [] m t
  /-- One more change is made. -/
  | concat {past : List Change} {m' : Mapping} {t' : Trace} (h : Changes m t past m' t')
    (c : Change) (k : Kernel) :
    Changes m t (past ++ c.carriedOut (c.perform m' k)) (c.perform m' k).state
      (t' ++ (c.perform m' k).trace)

/-- A change that stays inside the mapping and touches the pages of its part only. -/
structure Confined (m : Mapping) (t : Trace) (c : Change) (k : Kernel)
    (o : Outcome Mapping Unit) : Prop where
  /-- The change is stopped exactly if its part is out of order, reaches behind the mapping, or
  starts in the middle of a page, -/
  stopped_iff : (∃ v, o.result = .error (.violation v)) ↔ c.IsBroken m
  /-- and then before the operating system is called. -/
  calls_of_isBroken : c.IsBroken m → o.trace.calls = []
  /-- For an empty part the operating system is not called either. -/
  calls_of_eq : ¬ c.IsBroken m → c.first = c.last → o.trace.calls = [] ∧ o.result = .ok ()
  /-- For any other part it is called once, and its answer is the answer. -/
  calls_of_lt : ¬ c.IsBroken m → c.first < c.last →
    o.trace.calls = [(.protect c.first (c.last - c.first) c.protection, k.protect)] ∧
      o.result = k.protect.elim (.ok ()) fun reason => .error (.error (.virtualMemory reason))
  /-- In whole pages, what it is called for does not reach behind the mapping. -/
  extent_le : ¬ c.IsBroken m →
    ∃ extent, IsLeast {n | Page.size.toNat ∣ n ∧ (c.last - c.first).toNat ≤ n} extent ∧
      c.first.toNat + extent ≤ m.size.toNat
  /-- If the change is made, the pages of the part have the new protection, -/
  protection?_of_meets : o.result = .ok () → ∀ page, c.Meets page →
    (t ++ o.trace).protection? page = some c.protection
  /-- and all other pages have the protection that they had, as all pages have if it is not. -/
  protection?_of_not_meets : ∀ page, ¬ (o.result = .ok () ∧ c.Meets page) →
    (t ++ o.trace).protection? page = t.protection? page
  /-- No byte is changed. -/
  state_eq : o.state = m
  no_store : ∀ offset bytes, Effect.store offset bytes ∉ o.trace

namespace Change

variable {m : Mapping} {t : Trace} {c : Change} {k : Kernel} {o : Outcome Mapping Unit}

/-- A change is stopped exactly if its part is broken. -/
theorem Step.stopped_iff (hstep : Step m k c o) :
    (∃ v, o.result = .error (.violation v)) ↔ c.IsBroken m := by
  constructor
  · rintro ⟨v, hv⟩
    cases hstep with
    | broken h => exact h
    | nothing | granted | denied => cases hv
  · intro hbroken
    cases hstep with
    | broken => exact ⟨_, rfl⟩
    | nothing h => exact absurd hbroken h
    | granted h | denied h => exact absurd hbroken (not_isBroken_of_holdsPages h)

/-- A change that is not stopped calls the operating system once, or not at all if its part is
empty. -/
theorem Step.calls_eq (hstep : Step m k c o) (h : ¬ c.IsBroken m) :
    (c.first = c.last → o.trace.calls = [] ∧ o.result = .ok ()) ∧
    (c.first < c.last →
      o.trace.calls = [(.protect c.first (c.last - c.first) c.protection, k.protect)] ∧
        o.result =
          k.protect.elim (.ok ()) fun reason => .error (.error (.virtualMemory reason))) := by
  cases hstep with
  | broken hbroken => exact absurd hbroken h
  | nothing _ heq =>
    refine ⟨fun _ => ⟨rfl, rfl⟩, ?_⟩
    intro hlt
    exact absurd heq (UInt64.ne_of_lt hlt)
  | granted hpages hk | denied hpages hk =>
    rw [hk]
    refine ⟨?_, fun _ => ⟨rfl, rfl⟩⟩
    intro heq
    exact absurd heq (UInt64.ne_of_lt hpages.lt)

/-- A change keeps the bytes. -/
theorem Step.kept (hstep : Step m k c o) :
    o.state = m ∧ ∀ offset bytes, Effect.store offset bytes ∉ o.trace := by
  cases hstep with
  | broken | nothing => exact ⟨rfl, fun _ _ => List.not_mem_nil⟩
  | granted | denied => exact ⟨rfl, fun _ _ => by simp [Trace.granted, Trace.denied]⟩

/-- A change stays inside the mapping and touches the pages of its part only. -/
theorem Step.confined (hstep : Step m k c o) (hwhole : m.size % Page.size = 0) (t : Trace) :
    Confined m t c k o := by
  obtain ⟨hstate, hstore⟩ := hstep.kept
  constructor
  case stopped_iff => exact hstep.stopped_iff
  case calls_of_isBroken =>
    intro hbroken
    cases hstep with
    | broken | nothing => rfl
    | granted h | denied h => exact absurd hbroken (not_isBroken_of_holdsPages h)
  case calls_of_eq =>
    intro h
    exact (hstep.calls_eq h).1
  case calls_of_lt =>
    intro h
    exact (hstep.calls_eq h).2
  case extent_le => exact exists_extent hwhole
  case protection?_of_meets =>
    intro hok page hmeets
    rw [Trace.protection?_append, hstep.protection?_eq, carriedOut_of_ok hok, latest?_singleton,
      if_pos hmeets]
    rfl
  case protection?_of_not_meets =>
    intro page hnot
    rw [Trace.protection?_append, hstep.protection?_eq]
    have hnone : latest? (c.carriedOut o) page = none := by
      cases hresult : o.result with
      | error =>
        rw [carriedOut_of_error hresult]
        rfl
      | ok =>
        have hpage : ¬ c.Meets page := fun h => hnot ⟨hresult, h⟩
        rw [carriedOut_of_ok hresult, latest?_singleton, if_neg hpage]
    rw [hnone]
    rfl
  case state_eq => exact hstate
  case no_store => exact hstore

end Change

variable {m m' : Mapping} {t t' : Trace} {past : List Change}

/-- Changes keep the bytes. -/
theorem Changes.eq (h : Changes m t past m' t') : m' = m := by
  induction h with
  | nil => rfl
  | concat _ c k ih => exact (Change.step_perform _ k c).kept.1.trans ih

/-- The protection of a page is that of the last change to meet it, of those that were carried
out. -/
theorem Changes.protection?_eq (h : Changes m t past m' t') (page : Nat) :
    t'.protection? page =
      ((Change.latest? past page).map Change.protection).or (t.protection? page) := by
  induction h with
  | nil => rfl
  | concat _ c k ih =>
    rw [Trace.protection?_append, ih, (Change.step_perform _ k c).protection?_eq,
      Change.latest?_append, Option.map_or, Option.or_assoc]

/-- **Changes of protection stay inside the mapping and touch only the pages that they name.**
However many were made before and whatever became of them, the bytes are what they were, a page
has the protection of the last change to meet it that was carried out, and the next change is
confined to the pages of its part. -/
theorem changes_confined (h : Changes m t past m' t') (hwhole : m.size % Page.size = 0) :
    m' = m ∧
      (∀ page, t'.protection? page =
        ((Change.latest? past page).map Change.protection).or (t.protection? page)) ∧
      ∀ c k, Confined m' t' c k (c.perform m' k) := by
  have hsame : m' = m := h.eq
  refine ⟨hsame, h.protection?_eq, ?_⟩
  intro c k
  exact (Change.step_perform m' k c).confined (hsame ▸ hwhole) t'

/-- Two pages. -/
def twoPages : Mapping := ⟨⟨0x7000, 0x9000, by decide⟩, .zero⟩

/-- An operating system that turns the second change of protection down. -/
def refusesSecond : Kernel := ⟨twoPages.region, [], [none, some .outOfMemory], []⟩

/-- A part that ends just behind the border of two pages may be executed, then everything was to
be written but the operating system turned that down, and then one byte of the second page may be
written. -/
theorem twoPages_confined :
    ∃ t', Changes twoPages [.call (.map 8192 .readWrite) none]
        [.executable 0 4097, .writable 4096 4097] twoPages t' ∧
      twoPages.size % Page.size = 0 ∧
      t'.calls = [(.map 8192 .readWrite, none), (.protect 0 4097 .readExecute, none),
        (.protect 0 8192 .readWrite, some .outOfMemory), (.protect 4096 1 .readWrite, none)] ∧
      t'.protection? 0 = some .readExecute ∧ t'.protection? 1 = some .readWrite ∧
      Confined twoPages t' (.executable 4096 8191) refusesSecond
        ((Change.executable 4096 8191).perform twoPages refusesSecond) := by
  have hfirst := (Changes.nil (m := twoPages) (t := [.call (.map 8192 .readWrite) none])).concat
    (.executable 0 4097) refusesSecond
  have hsecond := hfirst.concat (.writable 0 8192) refusesSecond.afterProtect
  have hthird := hsecond.concat (.writable 4096 4097) refusesSecond.afterProtect.afterProtect
  obtain ⟨-, hpages, hconfined⟩ := changes_confined hthird rfl
  refine ⟨_, hthird, rfl, rfl, ?_, ?_, hconfined _ _⟩
  · rw [hpages]
    rfl
  · rw [hpages]
    rfl

end JitSupport.Mapping
