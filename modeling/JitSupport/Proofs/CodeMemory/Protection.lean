import JitSupport.Proofs.CodeMemory.Reachable
import JitSupport.System.PageRights

/-!
# The protection of code memory

The protection of a page is the last one that a call gave it, so it is read off the
trace.  While memory is published, every page can be executed and none can be written.
While it is not, a page can be written if it never was closed, or if it is one of the
pages that the last patch opened and could not close again.  All other pages were
closed before, and nothing opened them: memory that lost its publication is writable
in part only.

## Main definitions

* `CodeMemory.HasPage` — the pages of a memory, by number.
* `Trace.lost?` — the pages that could not be closed again, the last time that happened.
* `Trace.StillOpen` — a page that is among them, if there are any.

## Main results

* `CodeMemory.Reachable.protection?_eq` — the protection of every page.
* `CodeMemory.Reachable.published_readExecute` — **published memory is executable and
  nowhere writable, and no call ever asks for both.**
* `CodeMemory.Reachable.unpublished_readWrite_iff` — **when unpublished memory is
  writable.**
-/

namespace JitSupport

/-- The protection that a call asks for. -/
def SystemCall.requested? : SystemCall → Option Protection
  | map _ protection => some protection
  | protect _ _ protection => some protection
  | unmap .. => none

/-- The pages that an entry of a trace reports as lost. -/
def Effect.lost? : Effect → Option MemoryRange
  | event (.protectionLost _ pages) => some pages
  | _ => none

namespace Trace

/-- The pages that could not be closed again, the last time that happened. -/
def lost? (t : Trace) : Option MemoryRange := (t.filterMap Effect.lost?).getLast?

/-- A page that the last patch to lose its protection left open, if there was one. -/
def StillOpen (t : Trace) (page : Nat) : Prop :=
  ∀ pages ∈ t.lost?, Page.Touches pages.start (pages.stop - pages.start) page

instance (t : Trace) (page : Nat) : Decidable (t.StillOpen page) :=
  inferInstanceAs (Decidable (∀ pages ∈ t.lost?, _))

@[simp] theorem lost?_append (t u : Trace) : lost? (t ++ u) = u.lost?.or t.lost? := by
  rw [lost?, List.filterMap_append, List.getLast?_append, lost?, lost?]

@[simp] theorem lost?_nil : lost? [] = none := rfl

@[simp] theorem lost?_cons (e : Effect) (t : Trace) : lost? (e :: t) = t.lost?.or e.lost? := by
  rw [← List.singleton_append, lost?_append]
  congr 1
  rw [lost?, List.filterMap_cons]
  cases e.lost? <;> rfl

theorem stillOpen_append_of_none {t u : Trace} (hu : u.lost? = none) (page : Nat) :
    (t ++ u).StillOpen page ↔ t.StillOpen page := by
  rw [StillOpen, lost?_append, hu, Option.none_or, StillOpen]

theorem stillOpen_append_of_some {t u : Trace} {pages : MemoryRange} (hu : u.lost? = some pages)
    (page : Nat) :
    (t ++ u).StillOpen page ↔ Page.Touches pages.start (pages.stop - pages.start) page := by
  rw [StillOpen, lost?_append, hu]
  simp

/-! ### Parts of a trace -/

variable (first last : UInt64) (protection : Protection) (reason : Errno) (backend : Backend)
  (range : MemoryRange) (page : Nat)

@[simp] theorem protection?_invalidation : (invalidation backend range).protection? page = none := by
  unfold invalidation
  split <;> rfl

@[simp] theorem lost?_granted : (granted first last protection).lost? = none := rfl

@[simp] theorem lost?_denied : (denied first last protection reason).lost? = none := rfl

@[simp] theorem lost?_invalidation : (invalidation backend range).lost? = none := by
  unfold invalidation
  split <;> rfl

@[simp] theorem calls_event (e : Event) (t : Trace) : calls (.event e :: t) = t.calls := rfl

@[simp] theorem calls_store (offset : UInt64) (bytes : ByteString) (t : Trace) :
    calls (.store offset bytes :: t) = t.calls := rfl

@[simp] theorem calls_invalidation : (invalidation backend range).calls = [] := by
  unfold invalidation
  split <;> rfl

end Trace

namespace CodeMemory

/-- The memory has a page of the given number. -/
def HasPage (m : CodeMemory) (page : Nat) : Prop := page * Page.size.toNat < m.capacity.toNat

instance (m : CodeMemory) (page : Nat) : Decidable (m.HasPage page) :=
  inferInstanceAs (Decidable (_ < _))

variable {backend : Backend} {m : CodeMemory} {t : Trace} {k : Kernel} {page : Nat}

@[simp] theorem protection?_notice (m : CodeMemory) (page : Nat) :
    m.notice.protection? page = none := by
  unfold notice
  split <;> rfl

@[simp] theorem lost?_notice (m : CodeMemory) : m.notice.lost? = none := by
  unfold notice
  split <;> rfl

@[simp] theorem calls_notice (m : CodeMemory) : m.notice.calls = [] := by
  unfold notice
  split <;> rfl

theorem Closing.protection?_eq {pages : MemoryRange} {k' : Kernel} {closing : Trace}
    (h : Closing pages k k' closing) (page : Nat) :
    closing.protection? page =
      if Page.Touches pages.start (pages.stop - pages.start) page then some .readExecute
      else none := by
  cases h with
  | atOnce => simp
  | secondTry => simp [Trace.protection?_append]

theorem Closing.lost?_eq {pages : MemoryRange} {k' : Kernel} {closing : Trace}
    (h : Closing pages k k' closing) : closing.lost? = none := by
  cases h <;> simp

theorem touches_all (hpage : m.HasPage page) : Page.Touches 0 m.capacity page := by
  rw [HasPage, Page.toNat_size] at hpage
  rw [Page.Touches, Page.toNat_size, UInt64.toNat_zero]
  omega

/-! ### The protection of every page -/

/-- What the protection of a page should be. -/
def rights (m : CodeMemory) (t : Trace) (page : Nat) : Protection :=
  if m.published = false ∧ t.StillOpen page then .readWrite else .readExecute

theorem rights_of_published (hp : m.published = true) : m.rights t page = .readExecute := by
  simp [rights, hp]

theorem rights_of_unpublished (hp : m.published = false) :
    m.rights t page = if t.StillOpen page then .readWrite else .readExecute := by
  simp [rights, hp]

/-- An operation that reaches no page and loses none leaves the protection as it should be. -/
theorem protection?_append_of_none {u : Trace} (hpage : t.protection? page = some (m.rights t page))
    (hrights : u.protection? page = none) (hlost : u.lost? = none) :
    (t ++ u).protection? page = some (m.rights (t ++ u) page) := by
  rw [Trace.protection?_append, hrights, Option.none_or, hpage, rights, rights]
  simp only [Trace.stillOpen_append_of_none hlost]

/-- Opening and closing pages leaves all pages closed. -/
theorem protection?_append_of_closed {u : Trace} (pages : MemoryRange)
    (hp : m.published = true) (hpage : t.protection? page = some (m.rights t page))
    (hrights : u.protection? page =
      if Page.Touches pages.start (pages.stop - pages.start) page then some .readExecute
      else none) :
    (t ++ u).protection? page = some .readExecute := by
  rw [Trace.protection?_append, hrights, hpage, rights_of_published hp]
  split <;> rfl

/-- Opening pages without closing them again leaves these open and all others closed. -/
theorem protection?_append_of_lost {u : Trace} (pages : MemoryRange)
    (hp : m.published = true) (hpage : t.protection? page = some (m.rights t page))
    (hrights : u.protection? page =
      if Page.Touches pages.start (pages.stop - pages.start) page then some .readWrite else none)
    (hlost : u.lost? = some pages) :
    (t ++ u).protection? page =
      some (if (t ++ u).StillOpen page then .readWrite else .readExecute) := by
  rw [Trace.protection?_append, hrights, hpage, rights_of_published hp]
  simp only [Trace.stillOpen_append_of_some hlost]
  split <;> rfl

/-- An operation leaves the protection of every page as it should be. -/
theorem Step.protection?_eq {op : Operation} {o : Outcome CodeMemory Unit}
    (hstep : Step backend m k op o)
    (h : ∀ page, m.HasPage page → t.protection? page = some (m.rights t page)) :
    ∀ page, o.state.HasPage page →
      (t ++ o.trace).protection? page = some (o.state.rights (t ++ o.trace) page) := by
  intro page hpage
  cases hstep with
  | refused | patchedNothing => exact protection?_append_of_none (h page hpage) rfl rfl
  | written => exact protection?_append_of_none (h page hpage) rfl rfl
  | publishDenied =>
    exact protection?_append_of_none (h page hpage) (by simp [Trace.protection?_append]) (by simp)
  | openDenied => exact protection?_append_of_none (h page hpage) (by simp) (by simp)
  | publishedEmpty hp hcap =>
    -- there is no page
    simp only [HasPage, capacity] at hpage hcap
    rw [hcap, UInt64.toNat_zero] at hpage
    omega
  | published =>
    -- one call closes every page there is
    have hall : Page.Touches 0 m.capacity page := touches_all hpage
    rw [rights_of_published rfl]
    simp [Trace.protection?_append, hall, Effect.protection?]
  | @overflowed _ _ pages _ _ hp hfit hlen hpages hk hclosing =>
    rw [rights_of_published (by simpa using hp)]
    refine protection?_append_of_closed pages hp (h page hpage) ?_
    simp only [Trace.protection?_append, hclosing.protection?_eq]
    split <;> simp [*, Effect.protection?]
  | @patched _ _ pages _ _ _ hp hfit hlen hpages hk hclosing =>
    rw [rights_of_published (by simpa using hp)]
    refine protection?_append_of_closed pages hp (h page hpage) ?_
    simp only [Trace.protection?_append, hclosing.protection?_eq]
    split <;> simp [*, Effect.protection?]
  | @lost _ _ pages _ _ hp =>
    rw [rights_of_unpublished rfl]
    refine protection?_append_of_lost pages hp (h page hpage) ?_ rfl
    simp only [Trace.protection?_append]
    split <;> simp [*, Effect.protection?]

theorem protection?_reserve {capacity : UInt64} (h : (reserve capacity () k).result = .ok m)
    (hpage : m.HasPage page) :
    (reserve capacity () k).trace.protection? page =
      some (m.rights (reserve capacity () k).trace page) := by
  obtain ⟨-, -, hp, -, htrace⟩ := reserve_spec h
  have hne : ¬ m.mapping.isEmpty := by
    rw [isEmpty_mapping_iff, ← UInt64.toNat_inj, UInt64.toNat_zero]
    intro hzero
    rw [HasPage, hzero] at hpage
    omega
  have hopen : (reserve capacity () k).trace.StillOpen page := by
    intro pages hpages
    rw [htrace, if_neg hne] at hpages
    cases hpages
  rw [rights_of_unpublished hp, if_pos hopen, htrace, if_neg hne]
  simp [Effect.protection?, SystemCall.protection?, touches_all hpage]

/-- **The protection of every page** of reachable memory. -/
theorem Reachable.protection?_eq (h : Reachable backend m t) :
    ∀ page, m.HasPage page → t.protection? page = some (m.rights t page) := by
  induction h with
  | reserve h =>
    intro page hpage
    exact protection?_reserve h hpage
  | perform h op k ih => exact (step_perform h.wellFormed backend k op).protection?_eq ih

/-! ### Calls -/

theorem Closing.requested?_eq {pages : MemoryRange} {k' : Kernel} {closing : Trace}
    (h : Closing pages k k' closing) :
    ∀ c ∈ closing.calls, c.1.requested? = some .readExecute := by
  cases h <;> simp [SystemCall.requested?]

theorem Step.requested?_eq {op : Operation} {o : Outcome CodeMemory Unit}
    (hstep : Step backend m k op o) :
    ∀ c ∈ o.trace.calls,
      c.1.requested? = some .readWrite ∨ c.1.requested? = some .readExecute := by
  cases hstep with
  | refused | written | patchedNothing => exact fun c hc => nomatch hc
  | publishedEmpty | publishDenied | published | openDenied | lost =>
    simp [SystemCall.requested?]
  | overflowed _ _ _ _ _ hclosing | patched _ _ _ _ _ hclosing =>
    -- the call that opens the pages, and those that close them
    intro c hc
    simp only [Trace.calls_append, Trace.calls_granted, Trace.calls_store, Trace.calls_event,
      Trace.calls_invalidation, Trace.calls_nil, List.append_nil, List.cons_append, List.nil_append,
      List.mem_cons] at hc
    rcases hc with rfl | hc
    · exact Or.inl rfl
    · exact Or.inr (hclosing.requested?_eq c hc)

/-- All calls of a reachable memory ask for one of two protections. -/
theorem Reachable.requested?_eq (h : Reachable backend m t) :
    ∀ c ∈ t.calls, c.1.requested? = some .readWrite ∨ c.1.requested? = some .readExecute := by
  induction h with
  | reserve h =>
    intro c hc
    obtain ⟨-, -, -, -, htrace⟩ := reserve_spec h
    rw [htrace] at hc
    split at hc
    · cases hc
    · cases hc with
      | head => exact Or.inl rfl
      | tail _ hc => cases hc
  | perform h op k ih =>
    intro c hc
    rw [Trace.calls_append, List.mem_append] at hc
    rcases hc with hc | hc
    · exact ih c hc
    · exact (step_perform h.wellFormed backend k op).requested?_eq c hc

/-- **Published memory is executable and nowhere writable**, after whatever has happened
to it, and no call ever asks for a page that can be both written and executed. -/
theorem Reachable.published_readExecute (h : Reachable backend m t) :
    (m.published = true → ∀ page, m.HasPage page →
      t.protection? page = some .readExecute) ∧
    ∀ c ∈ t.calls, ∀ p, c.1.requested? = some p → ¬ (p.write = true ∧ p.execute = true) := by
  constructor
  · intro hp page hpage
    rw [h.protection?_eq page hpage, rights_of_published hp]
  · intro c hc p hrequested
    rcases h.requested?_eq c hc with hp | hp
    · rw [hrequested, Option.some.injEq] at hp
      subst hp
      decide
    · rw [hrequested, Option.some.injEq] at hp
      subst hp
      decide

/-- Two pages that are published, and patched across their border while the first try to
close them fails. -/
theorem twoPages_readExecute :
    let o := run .coherent [.write 8 (.ofList [1, 2]), .publish, .patch 4095 (.ofList [3, 4])]
      twoPages (answering [none, none, some .tryAgain])
    o.state.published = true ∧ o.state.HasPage 1 ∧
      Trace.protection? ([.call (.map 8192 .readWrite) none, .event (.mapped 0x10000 8192)] ++
        o.trace) 1 = some .readExecute :=
  have hreach := (reachable_twoPages .coherent).run
    [.write 8 (.ofList [1, 2]), .publish, .patch 4095 (.ofList [3, 4])]
    (answering [none, none, some .tryAgain])
  ⟨by decide, by decide, hreach.published_readExecute.1 (by decide) 1 (by decide)⟩

/-! ### Unpublished memory -/

theorem IsCover.of_region_eq {m' : CodeMemory} {offset : UInt64} {count : Nat}
    {pages : MemoryRange} (h : m.IsCover offset count pages)
    (hregion : m'.mapping.region = m.mapping.region) : m'.IsCover offset count pages := by
  refine ⟨h.start_eq, h.stop_eq, h.holdsPages.aligned, h.holdsPages.lt, ?_⟩
  rw [Mapping.size, hregion]
  exact h.holdsPages.le_size

/-- The pages of some bytes are touched as a whole. -/
theorem IsCover.touches_iff {offset : UInt64} {count : Nat} {pages : MemoryRange}
    (h : m.IsCover offset count pages) (page : Nat) :
    Page.Touches pages.start (pages.stop - pages.start) page ↔
      pages.start.toNat ≤ page * Page.size.toNat ∧
        (page + 1) * Page.size.toNat ≤ pages.stop.toNat := by
  have hlt := h.holdsPages.lt
  have hstart := h.start_eq
  have hstop := h.stop_eq
  rw [UInt64.lt_iff_toNat_lt] at hlt
  rw [Page.toNat_size] at hstart hstop
  rw [Page.Touches, UInt64.toNat_sub_of_le _ _ pages.start_le_stop, Page.toNat_size]
  omega

/-- Only a patch loses pages, and these are its own. -/
theorem Step.lost?_eq {op : Operation} {o : Outcome CodeMemory Unit}
    (hstep : Step backend m k op o) :
    o.trace.lost? = none ∨
      ∃ pages, o.trace.lost? = some pages ∧ ∃ offset count, m.IsCover offset count pages := by
  cases hstep with
  | refused | written | patchedNothing => exact Or.inl rfl
  | publishedEmpty | publishDenied | published | openDenied => exact Or.inl (by simp [Effect.lost?])
  | overflowed _ _ _ _ _ hclosing => exact Or.inl (by simp [hclosing.lost?_eq, Effect.lost?])
  | patched _ _ _ _ _ hclosing => exact Or.inl (by simp [hclosing.lost?_eq, Effect.lost?])
  | @lost offset bytes pages _ _ _ _ _ hpages =>
    exact Or.inr ⟨pages, by simp [Effect.lost?], offset, bytes.length, hpages⟩

/-- The pages that were lost last are the pages of a patch. -/
theorem Reachable.isCover_of_lost (h : Reachable backend m t) :
    ∀ pages, t.lost? = some pages → ∃ offset count, m.IsCover offset count pages := by
  induction h with
  | reserve h =>
    intro pages hlost
    obtain ⟨-, -, -, -, htrace⟩ := reserve_spec h
    rw [htrace] at hlost
    split at hlost <;> cases hlost
  | perform h op k ih =>
    intro pages hlost
    have hstep := step_perform h.wellFormed backend k op
    obtain ⟨offset, count, hpages⟩ : ∃ offset count, IsCover _ offset count pages := by
      rw [Trace.lost?_append] at hlost
      rcases hstep.lost?_eq with hnone | ⟨pages', hsome, hpages⟩
      · rw [hnone, Option.none_or] at hlost
        exact ih pages hlost
      · rw [hsome, Option.some_or, Option.some.injEq] at hlost
        exact hlost ▸ hpages
    exact ⟨offset, count, hpages.of_region_eq hstep.region_eq⟩

/-- The pages of some bytes are all pages exactly when they reach from end to end. -/
theorem IsCover.touches_all_iff {offset : UInt64} {count : Nat} {pages : MemoryRange}
    (h : m.IsCover offset count pages) (hm : m.WellFormed) :
    (∀ page, m.HasPage page → Page.Touches pages.start (pages.stop - pages.start) page) ↔
      pages.start = 0 ∧ pages.stop = m.capacity := by
  have hwhole := hm.wholePages
  have hlt := h.holdsPages.lt
  have hle : pages.stop ≤ m.capacity := h.holdsPages.le_size
  rw [UInt64.lt_iff_toNat_lt] at hlt
  rw [UInt64.le_iff_toNat_le] at hle
  rw [← UInt64.toNat_inj, ← UInt64.toNat_inj, UInt64.toNat_zero]
  simp only [h.touches_iff, HasPage, Page.toNat_size] at hwhole ⊢
  generalize m.capacity.toNat = capacity at *
  constructor
  · intro hall
    -- the first page and the last one
    have hfirst := hall 0 (by rw [Nat.zero_mul]; omega)
    have hlast := hall (capacity / 4096 - 1) (by omega)
    rw [Nat.zero_mul] at hfirst
    omega
  · rintro ⟨hstart, hstop⟩ page hpage
    omega

/-- Bytes lie in the pages of others exactly when these reach around them. -/
theorem IsCover.touches_bytes_iff {offset : UInt64} {count : Nat} {pages : MemoryRange}
    (h : m.IsCover offset count pages) (first len : Nat) :
    (∀ i < len, Page.Touches pages.start (pages.stop - pages.start)
      ((first + i) / Page.size.toNat)) ↔
      len = 0 ∨ pages.start.toNat ≤ first ∧ first + len ≤ pages.stop.toNat := by
  have hstart := h.start_eq
  have hstop := h.stop_eq
  simp only [h.touches_iff, Page.toNat_size] at hstart hstop ⊢
  constructor
  · intro hall
    rcases Nat.eq_zero_or_pos len with hlen | hlen
    · exact Or.inl hlen
    · -- the first byte and the last one
      have hfirst := hall 0 hlen
      have hlast := hall (len - 1) (by omega)
      exact Or.inr (by omega)
  · rintro hinside i hi
    omega

theorem fits_of_write_ok {offset : UInt64} {bytes : ByteString} (hp : m.published = false)
    (hok : (write offset bytes m k).result = .ok ()) :
    offset.toNat + bytes.length ≤ m.capacity.toNat := by
  by_cases hfit : offset.toNat + bytes.length ≤ m.capacity.toNat
  · exact hfit
  · rw [run_write_of_not_fits hp hfit] at hok
    cases hok

theorem Reachable.protection?_of_unpublished (h : Reachable backend m t)
    (hp : m.published = false) (hpage : m.HasPage page) :
    t.protection? page = some (if t.StillOpen page then .readWrite else .readExecute) := by
  rw [h.protection?_eq page hpage, rights_of_unpublished hp]

theorem Reachable.readWrite_iff_stillOpen (h : Reachable backend m t)
    (hp : m.published = false) (hpage : m.HasPage page) :
    t.protection? page = some .readWrite ↔ t.StillOpen page := by
  rw [h.protection?_of_unpublished hp hpage]
  split
  next hopen => exact iff_of_true rfl hopen
  next hopen => exact iff_of_false (by decide) hopen

/-- **When unpublished memory is writable.**  It is writable as a whole if no patch ever
lost its pages, or if the last one that did had lost all pages of the memory.  Otherwise
the pages that were lost are writable and all others can be executed, so that bytes which
are written without complaint go to writable pages only if they lie in the lost ones. -/
theorem Reachable.unpublished_readWrite_iff (h : Reachable backend m t)
    (hp : m.published = false) :
    ((∀ page, m.HasPage page → t.protection? page = some .readWrite) ↔
      ∀ pages, t.lost? = some pages → pages.start = 0 ∧ pages.stop = m.capacity) ∧
    (∀ page, m.HasPage page → t.protection? page =
      some (if t.StillOpen page then .readWrite else .readExecute)) ∧
    ∀ offset bytes k, (write offset bytes m k).result = .ok () →
      ((∀ i < bytes.length,
        t.protection? ((offset.toNat + i) / Page.size.toNat) = some .readWrite) ↔
      ∀ pages, t.lost? = some pages → bytes.length = 0 ∨
        pages.start.toNat ≤ offset.toNat ∧
          offset.toNat + bytes.length ≤ pages.stop.toNat) := by
  refine ⟨?_, fun page hpage => h.protection?_of_unpublished hp hpage, ?_⟩
  · constructor
    · intro hall pages hlost
      obtain ⟨offset, count, hpages⟩ := h.isCover_of_lost pages hlost
      refine (hpages.touches_all_iff h.wellFormed).mp fun page hpage => ?_
      exact (h.readWrite_iff_stillOpen hp hpage).mp (hall page hpage) pages hlost
    · intro hall page hpage
      refine (h.readWrite_iff_stillOpen hp hpage).mpr fun pages hlost => ?_
      obtain ⟨offset, count, hpages⟩ := h.isCover_of_lost pages hlost
      exact (hpages.touches_all_iff h.wellFormed).mpr (hall pages hlost) page hpage
  · intro offset bytes k hok
    have hfit := fits_of_write_ok hp hok
    have hpage : ∀ i < bytes.length, m.HasPage ((offset.toNat + i) / Page.size.toNat) := by
      intro i hi
      rw [HasPage, Page.toNat_size]
      omega
    constructor
    · intro hall pages hlost
      obtain ⟨offset', count, hpages⟩ := h.isCover_of_lost pages hlost
      refine (hpages.touches_bytes_iff _ _).mp fun i hi => ?_
      exact (h.readWrite_iff_stillOpen hp (hpage i hi)).mp (hall i hi) pages hlost
    · intro hall i hi
      refine (h.readWrite_iff_stillOpen hp (hpage i hi)).mpr fun pages hlost => ?_
      obtain ⟨offset', count, hpages⟩ := h.isCover_of_lost pages hlost
      exact (hpages.touches_bytes_iff _ _).mpr (hall pages hlost) i hi

/-- Two pages of which the first was patched and could not be closed again. -/
theorem twoPages_readWrite_iff :
    let o := run .coherent [.publish, .patch 0 (.ofList [1])] twoPages
      (answering [none, none, some .outOfMemory, some .outOfMemory])
    let t : Trace :=
      [.call (.map 8192 .readWrite) none, .event (.mapped 0x10000 8192)] ++ o.trace
    o.state.published = false ∧ t.lost? = some ⟨0, 4096, by decide⟩ ∧
      t.protection? 0 = some .readWrite ∧ t.protection? 1 = some .readExecute :=
  have hreach := (reachable_twoPages .coherent).run [.publish, .patch 0 (.ofList [1])]
    (answering [none, none, some .outOfMemory, some .outOfMemory])
  have hrights := (hreach.unpublished_readWrite_iff (by decide)).2.1
  ⟨by decide, by decide, hrights 0 (by decide), hrights 1 (by decide)⟩

/-- Unpublished memory is not writable everywhere: two pages were published, and a patch of
the first could not close it again.  The second page stays closed, and yet bytes for it are
accepted. -/
theorem unpublished_twoPages_not_readWrite :
    let o := run .coherent [.publish, .patch 0 (.ofList [1])] twoPages
      (answering [none, none, some .outOfMemory, some .outOfMemory])
    let t : Trace :=
      [.call (.map 8192 .readWrite) none, .event (.mapped 0x10000 8192)] ++ o.trace
    Reachable .coherent o.state t ∧ o.state.published = false ∧ o.state.HasPage 1 ∧
      t.protection? 1 ≠ some .readWrite ∧
      (write 4096 (.ofList [1]) o.state o.kernel).result = .ok () :=
  ⟨(reachable_twoPages .coherent).run [.publish, .patch 0 (.ofList [1])]
      (answering [none, none, some .outOfMemory, some .outOfMemory]),
    by decide, by decide, by decide, rfl⟩

end CodeMemory

end JitSupport
