import JitSupport.Proofs.CodeMemory.Step

/-!
# What memory for code can come to

Memory for code starts with a reservation that succeeds.  From then on any operation
may follow any other, and the operating system may turn down any call it likes.  A
state is reachable together with the trace of all that happened since, so that
properties of the whole past can be told of it.

## Main definitions

* `CodeMemory.Reservation` — the ways in which a reservation ends.
* `CodeMemory.Reachable` — what memory for code can come to.

## Main results

* `CodeMemory.reserve_spec` — what a reservation gives.
* `CodeMemory.Reachable.wellFormed` — every reachable memory is well-formed.
* `CodeMemory.run_cons`, `CodeMemory.run_append` — a run does one operation after another.
* `CodeMemory.Reachable.run` — **a run leads from reachable memory to reachable memory.**
-/

namespace JitSupport

namespace CodeMemory

/-! ### Reservations -/

/-- The ways in which a reservation ends. -/
inductive Reservation {σ : Type} (capacity : UInt64) (s : σ) (k : Kernel) :
    Outcome σ CodeMemory → Prop
  /-- The capacity leaves the word when it is rounded up. -/
  | tooLarge (h : UInt64.size - Page.size.toNat < capacity.toNat) :
    Reservation capacity s k ⟨.error (.error (.addressOverflow 0 capacity)), s, k, []⟩
  /-- There is nothing to map. -/
  | nothing (h : capacity = 0) : Reservation capacity s k ⟨.ok ⟨.empty, 0, false⟩, s, k, []⟩
  /-- The operating system maps nothing. -/
  | refused {size : UInt64} {reason : Errno} (hne : capacity ≠ 0)
    (hsize : capacity.alignUp? Page.size = some size) (hmap : k.map size = .error reason) :
    Reservation capacity s k
      ⟨.error (.error (.virtualMemory reason)), s, k.afterMap,
        [.call (.map size .readWrite) (some reason)]⟩
  /-- The operating system maps memory at the null address, where it cannot be held. -/
  | null {size : UInt64} {region : MemoryRange} (hne : capacity ≠ 0)
    (hsize : capacity.alignUp? Page.size = some size) (hmap : k.map size = .ok region)
    (hstart : region.start = 0) :
    Reservation capacity s k
      ⟨.error (.error (.virtualMemory .outOfMemory)), s, k.afterMap,
        [.call (.map size .readWrite) none]⟩
  /-- The operating system maps the memory. -/
  | mapped {size : UInt64} {region : MemoryRange} (hne : capacity ≠ 0)
    (hsize : capacity.alignUp? Page.size = some size) (hmap : k.map size = .ok region)
    (hstart : region.start ≠ 0) :
    Reservation capacity s k
      ⟨.ok ⟨⟨region, .zero⟩, 0, false⟩, s, k.afterMap,
        [.call (.map size .readWrite) none, .event (.mapped region.start size)]⟩

/-- A reservation ends in one of the listed ways. -/
theorem reservation_reserve {σ : Type} (capacity : UInt64) (s : σ) (k : Kernel) :
    Reservation capacity s k (reserve capacity s k) := by
  have hceil : (liftM (Page.ceil capacity Page.size) : Action σ (Option UInt64)) s k =
      ⟨.ok (capacity.alignUp? Page.size), s, k, []⟩ := by
    rw [Action.run_liftM_violation, Page.ceil_size]
    rfl
  rw [reserve, Action.run_bind_of_ok hceil]
  cases hup : capacity.alignUp? Page.size with
  | none =>
    rw [UInt64.alignUp?_eq_none_iff Page.isPowerOfTwo_size] at hup
    refine .tooLarge ?_
    rw [Page.toNat_size, UInt64.size] at *
    omega
  | some size =>
    have halign := UInt64.mod_eq_zero_of_alignUp? Page.isPowerOfTwo_size hup
    by_cases hne : capacity = 0
    · subst hne
      obtain rfl : size = 0 := Option.some.inj (hup.symm.trans rfl)
      exact .nothing rfl
    · have hpos := UInt64.ne_zero_of_alignUp? Page.isPowerOfTwo_size hup hne
      cases hmap : k.map size with
      | error reason =>
        simp only [Action.run_bind_of_error (Mapping.run_create_of_refused halign hpos s hmap)]
        exact .refused hne hup hmap
      | ok region =>
        by_cases hstart : region.start = 0
        · have hcreate := Mapping.run_create_of_null halign hpos s hmap hstart
          simp only [Action.run_bind_of_error hcreate]
          exact .null hne hup hmap hstart
        · have hcreate := Mapping.run_create_of_mapped halign hpos s hmap hstart
          simp only [Action.run_bind_of_ok hcreate]
          exact .mapped hne hup hmap hstart

/-- A reservation gives unpublished memory of whole pages, with nothing written to it.  It
costs one call to the operating system, or none if there are no pages. -/
theorem reserve_spec {capacity : UInt64} {k : Kernel} {m : CodeMemory}
    (h : (reserve capacity () k).result = .ok m) :
    m.capacity.toNat % Page.size.toNat = 0 ∧ m.len = 0 ∧ m.published = false ∧
      m.mapping.cells = .zero ∧ (reserve capacity () k).trace =
        if m.mapping.isEmpty then []
        else [.call (.map m.capacity .readWrite) none,
          .event (.mapped m.mapping.region.start m.capacity)] := by
  have hreserve := reservation_reserve capacity () k
  generalize reserve capacity () k = o at h hreserve
  cases hreserve with
  | tooLarge | refused | null => cases h
  | nothing =>
    cases h
    exact ⟨rfl, rfl, rfl, rfl, rfl⟩
  | @mapped size region hne hsize hmap hstart =>
    cases h
    have hlen : region.len = size := Mapping.len_of_map hmap
    have hcap : CodeMemory.capacity ⟨⟨region, .zero⟩, 0, false⟩ = size := hlen
    have hround := UInt64.mod_eq_zero_of_alignUp? Page.isPowerOfTwo_size hsize
    have hpos : ¬ region.isEmpty := by
      rw [MemoryRange.isEmpty_iff_len, hlen]
      exact UInt64.ne_zero_of_alignUp? Page.isPowerOfTwo_size hsize hne
    rw [hcap]
    exact ⟨UInt64.mod_eq_zero_iff.mp hround, rfl, rfl, rfl, (if_neg hpos).symm⟩

/-- What memory for code can come to, with all that could be seen since it was reserved.
Each operation meets whatever the operating system is going to answer then. -/
inductive Reachable (backend : Backend) : CodeMemory → Trace → Prop
  /-- Memory is reserved. -/
  | reserve {capacity : UInt64} {k : Kernel} {m : CodeMemory}
    (h : (reserve capacity () k).result = .ok m) :
    Reachable backend m (reserve capacity () k).trace
  /-- Something is done with the memory. -/
  | perform {m : CodeMemory} {t : Trace} (h : Reachable backend m t) (op : Operation)
    (k : Kernel) :
    Reachable backend (op.perform backend m k).state (t ++ (op.perform backend m k).trace)

variable {backend : Backend} {m : CodeMemory} {t : Trace}

/-- Every reachable memory is well-formed. -/
theorem Reachable.wellFormed (h : Reachable backend m t) : m.WellFormed := by
  induction h with
  | reserve h =>
    obtain ⟨hwhole, hlen, -⟩ := reserve_spec h
    refine ⟨?_, hwhole⟩
    rw [hlen]
    exact Nat.zero_le _
  | perform _ op k ih => exact (step_perform ih backend k op).wellFormed ih

/-! ### Runs -/

/-- A run does one operation and then the others, whether or not the first is turned
down. -/
theorem run_cons (hm : m.WellFormed) (backend : Backend) (op : Operation) (ops : List Operation)
    (k : Kernel) :
    run backend (op :: ops) m k =
      { run backend ops (op.perform backend m k).state (op.perform backend m k).kernel with
        trace := (op.perform backend m k).trace ++
          (run backend ops (op.perform backend m k).state (op.perform backend m k).kernel).trace }
      := by
  cases hresult : (op.perform backend m k).result with
  | ok =>
    have hdone : op.perform backend m k = ⟨.ok (), (op.perform backend m k).state,
        (op.perform backend m k).kernel, (op.perform backend m k).trace⟩ := by
      rw [← hresult]
    rw [run, Action.run_bind_of_ok (Action.run_attempt_of_ok hdone)]
  | error failure =>
    cases failure with
    | error e =>
      have hdone : op.perform backend m k = ⟨.error (.error e), (op.perform backend m k).state,
          (op.perform backend m k).kernel, (op.perform backend m k).trace⟩ := by
        rw [← hresult]
      rw [run, Action.run_bind_of_ok (Action.run_attempt_of_error hdone)]
    | violation v =>
      -- this would end the run, but does not happen
      exact absurd hresult (result_perform_ne_violation hm backend k op v)

/-- A run of some operations and then others is one run after the other. -/
theorem run_append (hm : m.WellFormed) (backend : Backend) (ops ops' : List Operation)
    (k : Kernel) :
    run backend (ops ++ ops') m k =
      { run backend ops' (run backend ops m k).state (run backend ops m k).kernel with
        trace := (run backend ops m k).trace ++
          (run backend ops' (run backend ops m k).state (run backend ops m k).kernel).trace }
      := by
  induction ops generalizing m k with
  | nil => rfl
  | cons op ops ih =>
    have hstep := step_perform hm backend k op
    rw [List.cons_append, run_cons hm, run_cons hm, ih (hstep.wellFormed hm)]
    simp only [List.append_assoc]

/-- **A run leads from reachable memory to reachable memory.** -/
theorem Reachable.run (h : Reachable backend m t) (ops : List Operation) (k : Kernel) :
    Reachable backend (run backend ops m k).state (t ++ (run backend ops m k).trace) := by
  induction ops generalizing m t k with
  | nil =>
    have hrun : CodeMemory.run backend [] m k = ⟨.ok (), m, k, []⟩ := rfl
    rw [hrun, List.append_nil]
    exact h
  | cons op ops ih =>
    rw [run_cons h.wellFormed, ← List.append_assoc]
    exact ih (h.perform op k) (op.perform backend m k).kernel

/-! ### Two pages -/

/-- Two pages that were just reserved. -/
def twoPages : CodeMemory := ⟨⟨⟨0x10000, 0x12000, by decide⟩, .zero⟩, 0, false⟩

/-- An operating system with room for two pages that answers changes of protection in the
given way. -/
def answering (verdicts : List Verdict) : Kernel :=
  ⟨⟨0x10000, 0x12000, by decide⟩, [], verdicts, []⟩

theorem reachable_twoPages (backend : Backend) :
    Reachable backend twoPages
      [.call (.map 8192 .readWrite) none, .event (.mapped 0x10000 8192)] :=
  @Reachable.reserve backend 5000 (answering []) twoPages rfl

end CodeMemory

end JitSupport
