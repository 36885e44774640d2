import JitSupport.Proofs.CodeMemory.Protection

/-!
# The log tells the truth

What memory for code has come to can be read off the events alone.  Every change of protection is
reported as soon as the operating system has made it, and no other is; publishing is reported when
it has succeeded, and so is a patch; and pages that were opened and could not be closed again are
reported by the patch that lost them.  A first try that fails is not reported if the second one
succeeds.

So a reader of the log knows whether the memory is published: it is if it was reported to be, and
no loss was reported since.

## Main definitions

* `Trace.reports` — what the events of a trace report of some kind.
* `Trace.changes` — the changes of protection that the operating system made.
* `Trace.SaysPublished` — the events of a trace say that the memory is published.
* `CodeMemory.Truthful` — an operation that reports what it did.

## Main results

* `Trace.saysPublished_append` — what later events add to what the earlier ones say.
* `CodeMemory.Step.published_iff` — when memory is published after an operation.
* `CodeMemory.Reachable.truthful` — an operation reports what it did.
* `CodeMemory.log_truthful` — **the log tells the truth.**
-/

namespace JitSupport

/-! ### What events report -/

namespace Event

/-- The change of protection that an event reports: from where, up to where, and to what. -/
def change? : Event → Option (Nat × Nat × Protection)
  | protectionChanged first last protection => some (first.toNat, last.toNat, protection)
  | _ => none

/-- The addresses of the code that an event reports as published. -/
def published? : Event → Option MemoryRange
  | published code => some code
  | _ => none

/-- The bytes that an event reports as patched, by their offset and their number. -/
def patched? : Event → Option (UInt64 × Nat)
  | patched offset len => some (offset, len)
  | _ => none

/-- The pages that an event reports as lost, with the reason. -/
def lost? : Event → Option (Error × MemoryRange)
  | protectionLost reason pages => some (reason, pages)
  | _ => none

end Event

/-- The change of protection that a call made: from where, up to where, and to what. -/
def SystemCall.change? : SystemCall × Verdict → Option (Nat × Nat × Protection)
  | (protect offset length protection, none) =>
    some (offset.toNat, offset.toNat + length.toNat, protection)
  | _ => none

namespace Trace

variable {α : Type} {t u : Trace}

/-- What the events of a trace report of some kind, in order. -/
def reports (t : Trace) (what : Event → Option α) : List α := t.events.filterMap what

/-- The changes of protection that the operating system made, in order. -/
def changes (t : Trace) : List (Nat × Nat × Protection) := t.calls.filterMap SystemCall.change?

/-- The events say that the memory is published: it was reported to be, and no loss was reported
since. -/
def SaysPublished (t : Trace) : Prop :=
  ∃ before code after, t.events = before ++ .published code :: after ∧
    ∀ reason pages, .protectionLost reason pages ∉ after

/-! ### Parts of a trace -/

section Parts

variable (what : Event → Option α) (first last : UInt64) (protection : Protection)
  (reason : Errno) (backend : Backend) (range : MemoryRange)

@[simp] theorem reports_append : (t ++ u).reports what = t.reports what ++ u.reports what := by
  unfold reports
  rw [events_append, List.filterMap_append]

@[simp] theorem reports_nil : reports [] what = [] := rfl

@[simp] theorem reports_event (e : Event) :
    reports (.event e :: t) what = (what e).toList ++ t.reports what := by
  unfold reports
  change (e :: t.events).filterMap what = _
  rw [List.filterMap_cons]
  cases what e <;> rfl

@[simp] theorem reports_store (offset : UInt64) (bytes : ByteString) :
    reports (.store offset bytes :: t) what = t.reports what := rfl

@[simp] theorem reports_granted :
    reports (granted first last protection) what =
      (what (.protectionChanged first last protection)).toList := by
  change reports [.event (.protectionChanged first last protection)] what = _
  rw [reports_event, reports_nil, List.append_nil]

@[simp] theorem reports_denied : reports (denied first last protection reason) what = [] := rfl

@[simp] theorem reports_invalidation :
    reports (invalidation backend range) what =
      (what (.invalidated range backend.hasFlush)).toList := by
  unfold invalidation
  rw [reports_event]
  split
  · exact List.append_nil _
  · exact List.append_nil _

end Parts

theorem changes_append : (t ++ u).changes = t.changes ++ u.changes := by
  unfold changes
  rw [calls_append, List.filterMap_append]

/-! ### What the events say -/

theorem reports_published_ne_nil_iff :
    t.reports Event.published? ≠ [] ↔ ∃ code, .published code ∈ t.events := by
  unfold reports
  constructor
  · intro h
    obtain ⟨code, hcode⟩ := List.exists_mem_of_ne_nil _ h
    obtain ⟨e, hmem, he⟩ := List.mem_filterMap.mp hcode
    cases e with
    | published code => exact ⟨code, hmem⟩
    | _ => cases he
  · rintro ⟨code, hmem⟩
    exact List.ne_nil_of_mem (List.mem_filterMap.mpr ⟨_, hmem, rfl⟩)

theorem reports_lost_eq_nil_iff :
    t.reports Event.lost? = [] ↔ ∀ reason pages, .protectionLost reason pages ∉ t.events := by
  unfold reports
  rw [List.filterMap_eq_nil_iff]
  constructor
  · intro hnone reason pages hmem
    cases hnone _ hmem
  · intro h e hmem
    cases e with
    | protectionLost reason pages => exact absurd hmem (h reason pages)
    | _ => rfl

/-- Later events have the last word, unless they report neither a publication nor a loss. -/
theorem saysPublished_append
    (h : u.reports Event.published? = [] ∨ u.reports Event.lost? = []) :
    (t ++ u).SaysPublished ↔
      u.reports Event.published? ≠ [] ∨ t.SaysPublished ∧ u.reports Event.lost? = [] := by
  rw [reports_published_ne_nil_iff]
  constructor
  · rintro ⟨before, code, after, hevents, hafter⟩
    rw [events_append, List.append_eq_append_iff] at hevents
    rcases hevents with ⟨first, -, hlater⟩ | ⟨rest, hearlier, hrest⟩
    · exact Or.inl ⟨code, by rw [hlater]; simp⟩
    · cases rest with
      | nil =>
        rw [List.nil_append] at hrest
        exact Or.inl ⟨code, hrest ▸ List.mem_cons_self⟩
      | cons e rest =>
        -- the publication was reported earlier, and no loss is reported since
        rw [List.cons_append, List.cons.injEq] at hrest
        obtain ⟨rfl, rfl⟩ := hrest
        simp only [List.mem_append, not_or] at hafter
        exact Or.inr ⟨⟨before, code, rest, hearlier, fun reason pages => (hafter reason pages).1⟩,
          reports_lost_eq_nil_iff.mpr fun reason pages => (hafter reason pages).2⟩
  · rintro (⟨code, hmem⟩ | ⟨⟨before, code, after, hevents, hafter⟩, hlost⟩)
    · have hpublished := reports_published_ne_nil_iff.mpr ⟨code, hmem⟩
      have hlost := reports_lost_eq_nil_iff.mp (h.resolve_left hpublished)
      obtain ⟨before, after, hevents⟩ := List.append_of_mem hmem
      refine ⟨t.events ++ before, code, after, by rw [events_append, hevents, List.append_assoc],
        fun reason pages hafter => hlost reason pages ?_⟩
      rw [hevents]
      exact List.mem_append_right _ (List.mem_cons_of_mem _ hafter)
    · refine ⟨before, code, after ++ u.events, by simp [hevents], fun reason pages => ?_⟩
      rw [List.mem_append, not_or]
      exact ⟨hafter reason pages, reports_lost_eq_nil_iff.mp hlost reason pages⟩

end Trace

namespace CodeMemory

variable {backend : Backend} {m : CodeMemory} {t : Trace} {k : Kernel} {offset : UInt64}
  {bytes : ByteString} {pages : MemoryRange} {op : Operation} {o : Outcome CodeMemory Unit}

/-- The bytes that a patch is to copy, if there are any, by their offset and their number. -/
def Operation.patches? : Operation → Option (UInt64 × Nat)
  | patch offset bytes => if 0 < bytes.length then some (offset, bytes.length) else none
  | write .. | publish => none

/-- An operation reports what it did to memory with a past. -/
structure Truthful (m : CodeMemory) (t : Trace) (op : Operation) (o : Outcome CodeMemory Unit) :
    Prop where
  /-- The changes of protection are those that the operating system made. -/
  changes_eq : o.trace.reports Event.change? = o.trace.changes
  /-- A publication is reported once by publishing that succeeds, with the addresses of the code,
  and by nothing else. -/
  published_eq : (o.trace.reports Event.published?).map .ok =
    if op = .publish ∧ o.result.isOk then [m.range] else []
  /-- A patch is reported once by a patch with bytes that succeeds, and by nothing else. -/
  patched_eq : o.trace.reports Event.patched? =
    if o.result.isOk then op.patches?.toList else []
  /-- A loss is reported exactly if the memory is no longer published. -/
  lost_iff : o.trace.reports Event.lost? ≠ [] ↔ m.published = true ∧ o.state.published = false
  /-- It is reported once, by a patch, with the reason that it answers, and with the pages that can
  be written after it. -/
  lost : ∀ reason pages, (reason, pages) ∈ o.trace.reports Event.lost? →
    (∃ offset bytes, op = .patch offset bytes) ∧
      o.trace.reports Event.lost? = [(reason, pages)] ∧ o.result = .error (.error reason) ∧
      ∀ page, m.HasPage page → ((t ++ o.trace).protection? page = some .readWrite ↔
        Page.Touches pages.start pages.len page)

/-! ### One operation -/

@[simp] theorem reports_notice {α : Type} (m : CodeMemory) (what : Event → Option α) :
    m.notice.reports what = if m.isEmpty then (what .nothingToPublish).toList else [] := by
  unfold notice
  split <;> simp

theorem Closing.reports_eq {α : Type} {k' : Kernel} {closing : Trace}
    (h : Closing pages k k' closing) (what : Event → Option α) :
    closing.reports what =
      (what (.protectionChanged pages.start pages.stop .readExecute)).toList := by
  cases h <;> simp

theorem Closing.changes_eq {k' : Kernel} {closing : Trace} (h : Closing pages k k' closing) :
    closing.changes = [(pages.start.toNat,
      pages.start.toNat + (pages.stop - pages.start).toNat, .readExecute)] := by
  cases h <;> rfl

/-- The length that a call is made with leads from one end of the pages to the other. -/
theorem IsCover.toNat_start_add (h : m.IsCover offset bytes.length pages) :
    pages.start.toNat + (pages.stop - pages.start).toNat = pages.stop.toNat := by
  have hlt := UInt64.lt_iff_toNat_lt.mp h.holdsPages.lt
  rw [UInt64.toNat_sub_of_le _ _ pages.start_le_stop]
  omega

theorem Step.reports_change_eq (hstep : Step backend m k op o) :
    o.trace.reports Event.change? = o.trace.changes := by
  cases hstep with
  | refused | written | patchedNothing => rfl
  | publishedEmpty | publishDenied | published =>
    simp [Event.change?, Trace.changes, SystemCall.change?]
  | openDenied => rfl
  | lost _ _ _ hpages =>
    simp [Event.change?, Trace.changes, SystemCall.change?, hpages.toNat_start_add]
  | overflowed _ _ _ hpages _ hclosing | patched _ _ _ hpages _ hclosing =>
    have hchanges := hclosing.changes_eq
    unfold Trace.changes at hchanges
    simp [Event.change?, Trace.changes, SystemCall.change?, hpages.toNat_start_add,
      hclosing.reports_eq, hchanges]

theorem Step.reports_published_eq (hstep : Step backend m k op o) :
    (o.trace.reports Event.published?).map .ok =
      if op = .publish ∧ o.result.isOk then [m.range] else [] := by
  cases hstep with
  | refused | publishDenied | openDenied | lost =>
    simp [Event.published?, Except.isOk, Except.toBool]
  | written | patchedNothing => simp
  | publishedEmpty _ _ hcode | published _ _ _ hcode =>
    simp [Event.published?, hcode, Except.isOk, Except.toBool]
  | overflowed _ _ _ _ _ hclosing | patched _ _ _ _ _ hclosing =>
    simp [Event.published?, hclosing.reports_eq]

theorem Step.reports_patched_eq (hstep : Step backend m k op o) :
    o.trace.reports Event.patched? = if o.result.isOk then op.patches?.toList else [] := by
  cases hstep with
  | refused => simp [Except.isOk, Except.toBool]
  | written => simp [Operation.patches?]
  | publishedEmpty | publishDenied | published => simp [Event.patched?, Operation.patches?]
  | patchedNothing _ _ hlen => simp [Operation.patches?, hlen]
  | openDenied | lost => simp [Event.patched?, Except.isOk, Except.toBool]
  | overflowed _ _ _ _ _ hclosing =>
    simp [Event.patched?, hclosing.reports_eq, Except.isOk, Except.toBool]
  | patched _ _ hlen _ _ hclosing =>
    simp [Event.patched?, Operation.patches?, hclosing.reports_eq, hlen, Except.isOk, Except.toBool]

/-- Only a patch loses pages, and it reports them. -/
theorem Step.reports_lost_eq (hstep : Step backend m k op o) :
    (o.trace.reports Event.lost? = [] ∧ (m.published = true → o.state.published = true)) ∨
      ∃ reason pages, o.trace.reports Event.lost? = [(reason, pages)] ∧
        (∃ offset bytes, op = .patch offset bytes) ∧ m.published = true ∧
        o.state.published = false ∧ o.result = .error (.error reason) ∧
        o.trace.lost? = some pages := by
  cases hstep with
  | refused | written | patchedNothing | openDenied => exact Or.inl ⟨rfl, id⟩
  | publishDenied => exact Or.inl ⟨by simp [Event.lost?], id⟩
  | publishedEmpty | published => exact Or.inl ⟨by simp [Event.lost?], fun _ => rfl⟩
  | overflowed _ _ _ _ _ hclosing | patched _ _ _ _ _ hclosing =>
    exact Or.inl ⟨by simp [Event.lost?, hclosing.reports_eq], id⟩
  | @lost _ _ pages _ second hp =>
    exact Or.inr ⟨.virtualMemory second, pages, by simp [Event.lost?], ⟨_, _, rfl⟩, hp, rfl, rfl,
      by simp [Effect.lost?]⟩

/-- Memory is published after an operation that reports a publication, or if it was published
before and no loss is reported. -/
theorem Step.published_iff (hstep : Step backend m k op o) :
    o.state.published = true ↔ o.trace.reports Event.published? ≠ [] ∨
      m.published = true ∧ o.trace.reports Event.lost? = [] := by
  cases hstep with
  | refused | written | patchedNothing | openDenied => simp
  | publishDenied hp => simp [hp, Event.published?]
  | publishedEmpty | published => simp [Event.published?]
  | overflowed _ _ _ _ _ hclosing | patched _ _ _ _ _ hclosing =>
    simp [Event.published?, Event.lost?, hclosing.reports_eq]
  | lost => simp [Event.published?, Event.lost?]

/-- No operation reports both a publication and a loss. -/
theorem Step.reports_published_or_lost (hstep : Step backend m k op o) :
    o.trace.reports Event.published? = [] ∨ o.trace.reports Event.lost? = [] := by
  rcases hstep.reports_lost_eq with ⟨hnone, -⟩ | ⟨_, _, hlost, -, -, hp, -⟩
  · exact Or.inr hnone
  · left
    by_cases hpublished : o.trace.reports Event.published? = []
    · exact hpublished
    · rw [hstep.published_iff.mpr (Or.inl hpublished)] at hp
      cases hp

/-! ### All that happened -/

/-- A reservation reports at most that the memory is mapped. -/
theorem eq_mapped_of_mem_reserve {capacity : UInt64} {e : Event}
    (he : e ∈ (reserve capacity () k).trace.events) : ∃ base size, e = .mapped base size := by
  have hreserve := reservation_reserve capacity () k
  generalize reserve capacity () k = o at he hreserve
  cases hreserve with
  | tooLarge | nothing | refused | null => cases he
  | mapped => exact ⟨_, _, List.mem_singleton.mp he⟩

/-- The changes of protection that were reported are those that were made. -/
theorem Reachable.reports_change_eq (h : Reachable backend m t) :
    t.reports Event.change? = t.changes := by
  induction h with
  | reserve h =>
    obtain ⟨-, -, -, -, htrace⟩ := reserve_spec h
    rw [htrace]
    split <;> rfl
  | perform h op k ih =>
    have hstep := step_perform h.wellFormed backend k op
    rw [Trace.reports_append, Trace.changes_append, ih, hstep.reports_change_eq]

/-- The events say whether the memory is published. -/
theorem Reachable.published_iff_saysPublished (h : Reachable backend m t) :
    m.published = true ↔ t.SaysPublished := by
  induction h with
  | reserve h =>
    obtain ⟨-, -, hp, -⟩ := reserve_spec h
    rw [hp]
    refine iff_of_false nofun ?_
    rintro ⟨before, code, after, hevents, -⟩
    obtain ⟨_, _, hmapped⟩ := eq_mapped_of_mem_reserve (hevents ▸ List.mem_append_cons_self)
    cases hmapped
  | perform h op k ih =>
    have hstep := step_perform h.wellFormed backend k op
    rw [Trace.saysPublished_append hstep.reports_published_or_lost, ← ih, hstep.published_iff]

/-- An operation on reachable memory reports what it did. -/
theorem Reachable.truthful (h : Reachable backend m t) (op : Operation) (k : Kernel) :
    m.Truthful t op (op.perform backend m k) := by
  have hstep := step_perform h.wellFormed backend k op
  constructor
  case changes_eq => exact hstep.reports_change_eq
  case published_eq => exact hstep.reports_published_eq
  case patched_eq => exact hstep.reports_patched_eq
  case lost_iff =>
    rcases hstep.reports_lost_eq with ⟨hnone, hkeeps⟩ | ⟨_, _, hlost, -, hp, hp', -⟩
    · refine iff_of_false (fun hne => hne hnone) ?_
      rintro ⟨hp, hp'⟩
      rw [hkeeps hp] at hp'
      cases hp'
    · exact iff_of_true (by simp [hlost]) ⟨hp, hp'⟩
  case lost =>
    intro reason pages hmem
    rcases hstep.reports_lost_eq with ⟨hnone, -⟩ | ⟨_, _, hlost, hpatch, -, hp', hresult, hpages⟩
    · rw [hnone] at hmem
      cases hmem
    · rw [hlost, List.mem_singleton, Prod.mk.injEq] at hmem
      obtain ⟨rfl, rfl⟩ := hmem
      refine ⟨hpatch, hlost, hresult, fun page hpage => ?_⟩
      -- of unpublished memory the pages can be written that were lost last
      have hpage' : (op.perform backend m k).state.HasPage page := by
        unfold HasPage capacity Mapping.size
        rw [hstep.region_eq]
        exact hpage
      rw [(h.perform op k).readWrite_iff_stillOpen hp' hpage',
        Trace.stillOpen_append_of_some hpages]
      rfl

/-- **The log tells the truth.**  A reservation reports at most that the memory is mapped.  Of
memory that has come to anything since, the changes of protection that were reported are those that
the operating system made, the memory is published exactly if the events say so, and whatever is
done with it reports what it did. -/
theorem log_truthful (backend : Backend) :
    (∀ capacity k, ∀ e ∈ (reserve capacity () k).trace.events,
        ∃ base size, e = .mapped base size) ∧
      ∀ m t, Reachable backend m t →
        t.reports Event.change? = t.changes ∧ (m.published = true ↔ t.SaysPublished) ∧
          ∀ op k, m.Truthful t op (op.perform backend m k) := by
  refine ⟨fun capacity k e he => eq_mapped_of_mem_reserve he, fun m t h => ?_⟩
  exact ⟨h.reports_change_eq, h.published_iff_saysPublished, h.truthful⟩

/-- Two pages that are published, lost by a patch across their border, and published again. -/
theorem twoPages_log_truthful :
    let o := run .coherent [.publish, .patch 4095 (.ofList [3, 4])] twoPages
      (answering [none, none, some .tryAgain, some .outOfMemory])
    let t : Trace :=
      [.call (.map 8192 .readWrite) none, .event (.mapped 0x10000 8192)] ++ o.trace
    let o' := publish .coherent o.state (answering [])
    Reachable .coherent o.state t ∧
      t.reports Event.change? = [(0, 8192, .readExecute), (0, 8192, .readWrite)] ∧
      ¬ t.SaysPublished ∧ (t ++ o'.trace).SaysPublished ∧
      (o'.trace.reports Event.published?).map .ok = [o.state.range] := by
  intro o t o'
  have hreach : Reachable .coherent o.state t :=
    (reachable_twoPages .coherent).run [.publish, .patch 4095 (.ofList [3, 4])]
      (answering [none, none, some .tryAgain, some .outOfMemory])
  obtain ⟨hchanges, hsays, htruthful⟩ := (log_truthful .coherent).2 o.state t hreach
  have hagain := (log_truthful .coherent).2 _ _ (hreach.perform .publish (answering []))
  refine ⟨hreach, hchanges.trans (by decide), ?_, hagain.2.1.mp (by decide), ?_⟩
  · rw [← hsays]
    decide
  · exact (htruthful .publish (answering [])).published_eq.trans (if_pos ⟨rfl, by decide⟩)

end CodeMemory

end JitSupport
