import JitSupport.Proofs.Cache.Lines

/-!
# The order of maintenance

Code becomes visible only if the steps of its maintenance come in a certain order.  Data lines
are cleaned first, and a barrier waits until memory holds what was written.  Only then are
instruction lines discarded, so that none of them is fetched again too early, and another
barrier waits until they are gone.  At the very end the instructions that were already fetched
are discarded as well.  The two phases go over lines of sizes of their own, and the hardware may
make either of them unnecessary; the barriers around what remains stay.

## Main definitions

* `CacheType.Cleans`, `CacheType.Discards` — steps that reach the line of an address.
* `CacheType.Orders` — steps of a maintenance in the right order.

## Main results

* `CacheType.mem_cleaning_iff`, `CacheType.mem_invalidation_iff` — the steps of the two phases.
* `CacheType.cleans_of_flush`, `CacheType.discards_of_flush` — every line of a range is reached.
* `CacheType.orders_flush` — **maintenance by lines keeps the order.**
-/

namespace JitSupport.CacheType

variable {type : CacheType} {start stop x : UInt64} {op : CacheOp} {ops : List CacheOp}

/-! ### The two phases -/

/-- The first phase cleans the data lines of the range, unless it is unnecessary. -/
theorem mem_cleaning_iff : op ∈ type.cleaning start stop ↔ type.dataCoherent = false ∧
    ∃ line ∈ type.dataLine.lines start stop, op = .cleanData line := by
  unfold cleaning
  split
  next h => simp [h]
  next h => simp [h, eq_comm]

/-- The second phase discards the instruction lines of the range and waits for it, unless it is
unnecessary. -/
theorem mem_invalidation_iff : op ∈ type.invalidation start stop ↔
    type.instructionCoherent = false ∧
      ((∃ line ∈ type.instructionLine.lines start stop, op = .invalidateInstructions line) ∨
        op = .dataBarrier) := by
  unfold invalidation
  split
  next h => simp [h]
  next h => simp [h, eq_comm]

theorem mem_flush_iff (h : (Backend.aarch64 type).flush start stop = .ok ops) :
    op ∈ ops ↔ op = .readCacheType ∨ op ∈ type.cleaning start stop ∨ op = .dataBarrier ∨
      op ∈ type.invalidation start stop ∨ op = .instructionBarrier := by
  cases h
  simp

/-- Data lines are cleaned only in the first phase. -/
theorem mem_cleaning_of_cleanData {line : UInt64}
    (h : (Backend.aarch64 type).flush start stop = .ok ops) (hmem : .cleanData line ∈ ops) :
    .cleanData line ∈ type.cleaning start stop := by
  simpa [mem_flush_iff h, mem_invalidation_iff] using hmem

/-- Instruction lines are discarded only in the second phase. -/
theorem mem_invalidation_of_invalidateInstructions {line : UInt64}
    (h : (Backend.aarch64 type).flush start stop = .ok ops)
    (hmem : .invalidateInstructions line ∈ ops) :
    .invalidateInstructions line ∈ type.invalidation start stop := by
  simpa [mem_flush_iff h, mem_cleaning_iff] using hmem

/-! ### Every line is reached -/

/-- Some step cleans the data line that holds an address. -/
def Cleans (type : CacheType) (ops : List CacheOp) (x : UInt64) : Prop :=
  ∃ line, .cleanData line ∈ ops ∧ type.dataLine.Holds line x

/-- Some step discards the instruction line that holds an address. -/
def Discards (type : CacheType) (ops : List CacheOp) (x : UInt64) : Prop :=
  ∃ line, .invalidateInstructions line ∈ ops ∧ type.instructionLine.Holds line x

theorem cleans_of_flush (h : (Backend.aarch64 type).flush start stop = .ok ops)
    (hbit : type.bits.toNat.testBit 28 = false) (hstart : start ≤ x) (hstop : x < stop) :
    type.Cleans ops x := by
  rw [← dataCoherent_eq_testBit] at hbit
  have hline : x.alignDown type.dataLine.bytes ∈ type.dataLine.lines start stop :=
    LineSize.alignDown_mem_lines hstart hstop
  refine ⟨_, (mem_flush_iff h).mpr (Or.inr (Or.inl ?_)), type.dataLine.holds_alignDown x⟩
  exact mem_cleaning_iff.mpr ⟨hbit, _, hline, rfl⟩

theorem discards_of_flush (h : (Backend.aarch64 type).flush start stop = .ok ops)
    (hbit : type.bits.toNat.testBit 29 = false) (hstart : start ≤ x) (hstop : x < stop) :
    type.Discards ops x := by
  rw [← instructionCoherent_eq_testBit] at hbit
  have hline : x.alignDown type.instructionLine.bytes ∈ type.instructionLine.lines start stop :=
    LineSize.alignDown_mem_lines hstart hstop
  refine ⟨_, (mem_flush_iff h).mpr (Or.inr (Or.inr (Or.inr (Or.inl ?_)))),
    type.instructionLine.holds_alignDown x⟩
  exact mem_invalidation_iff.mpr ⟨hbit, Or.inl ⟨_, hline, rfl⟩⟩

/-! ### The order -/

/-- Where the rest of a list has no entry `a`, the whole rest comes after every `a`. -/
theorem suffix_of_append_cons_eq {α : Type} {before after first rest : List α} {a : α}
    (h : before ++ a :: after = first ++ rest) (ha : a ∉ rest) : rest <:+ after := by
  rcases List.append_eq_append_iff.mp h with ⟨between, -, hrest⟩ | ⟨between, -, hrest⟩
  · cases between with
    | nil =>
      rw [List.nil_append] at hrest
      exact absurd (hrest ▸ List.mem_cons_self) ha
    | cons b between =>
      rw [List.cons_append, List.cons.injEq] at hrest
      exact ⟨between, hrest.2.symm⟩
  · exact absurd (hrest ▸ List.mem_append_right _ List.mem_cons_self) ha

/-- Steps of a maintenance in the right order. -/
structure Orders (type : CacheType) (start stop : UInt64) (ops : List CacheOp) : Prop where
  /-- Every address of the range has its data line cleaned, unless bit 28 says that this is
  unnecessary, -/
  cleans : type.bits.toNat.testBit 28 = false →
    ∀ x, start ≤ x → x < stop → type.Cleans ops x
  /-- and its instruction line discarded, unless bit 29 says so. -/
  discards : type.bits.toNat.testBit 29 = false →
    ∀ x, start ≤ x → x < stop → type.Discards ops x
  /-- There is a barrier before which nothing is discarded and after which nothing is cleaned. -/
  clean_before_discard : ∃ before after, ops = before ++ .dataBarrier :: after ∧
    (∀ line, .invalidateInstructions line ∉ before) ∧ ∀ line, .cleanData line ∉ after
  /-- Whatever is discarded is waited for. -/
  discard_before_barrier : ∀ before line after,
    ops = before ++ .invalidateInstructions line :: after → .dataBarrier ∈ after
  /-- Instructions already fetched are discarded at the end and at no other time, and never without
  a barrier before. -/
  last : ∃ before, ops = before ++ [.instructionBarrier] ∧ .instructionBarrier ∉ before ∧
    .dataBarrier ∈ before
  /-- Nothing is cleaned when this is unnecessary, -/
  not_clean : type.bits.toNat.testBit 28 = true → ∀ line, .cleanData line ∉ ops
  /-- and nothing is discarded. -/
  not_discard : type.bits.toNat.testBit 29 = true → ∀ line, .invalidateInstructions line ∉ ops
  /-- The register is read at the beginning and at no other time. -/
  first : ∃ after, ops = .readCacheType :: after ∧ .readCacheType ∉ after

/-- When instruction lines are discarded, the steps end with both barriers. -/
theorem barriers_suffix (h : (Backend.aarch64 type).flush start stop = .ok ops)
    (hbit : type.instructionCoherent = false) :
    ∃ others, ops = others ++ [.dataBarrier, .instructionBarrier] := by
  cases h
  refine ⟨.readCacheType :: type.cleaning start stop ++ .dataBarrier ::
    (type.instructionLine.lines start stop).map .invalidateInstructions, ?_⟩
  simp [invalidation, hbit]

theorem dataBarrier_mem_of_split {before after : List CacheOp} {line : UInt64}
    (h : (Backend.aarch64 type).flush start stop = .ok ops)
    (hops : ops = before ++ .invalidateInstructions line :: after) : .dataBarrier ∈ after := by
  have hmem : .invalidateInstructions line ∈ ops := by
    rw [hops]
    exact List.mem_append_right _ List.mem_cons_self
  have hphase := mem_invalidation_of_invalidateInstructions h hmem
  obtain ⟨others, hothers⟩ := barriers_suffix h (mem_invalidation_iff.mp hphase).1
  have hsuffix := suffix_of_append_cons_eq (hops.symm.trans hothers) (by simp)
  exact hsuffix.subset List.mem_cons_self

/-- **Maintenance by lines keeps the order.** -/
theorem orders_flush (type : CacheType) (start stop : UInt64) :
    ∃ ops, (Backend.aarch64 type).flush start stop = .ok ops ∧ type.Orders start stop ops := by
  have hflush := Backend.flush_aarch64 type start stop
  refine ⟨_, hflush, ?_⟩
  constructor
  case cleans => exact fun hbit x hstart hstop => cleans_of_flush hflush hbit hstart hstop
  case discards => exact fun hbit x hstart hstop => discards_of_flush hflush hbit hstart hstop
  case clean_before_discard =>
    refine ⟨_, _, List.append_assoc .., ?_, ?_⟩
    · intro line
      simp [mem_cleaning_iff]
    · intro line
      simp [mem_invalidation_iff]
  case discard_before_barrier =>
    exact fun before line after hops => dataBarrier_mem_of_split hflush hops
  case last =>
    refine ⟨_, rfl, ?_, ?_⟩
    · simp [mem_cleaning_iff, mem_invalidation_iff]
    · simp
  case not_clean =>
    intro hbit line hmem
    have hclear := (mem_cleaning_iff.mp (mem_cleaning_of_cleanData hflush hmem)).1
    rw [dataCoherent_eq_testBit, hbit] at hclear
    cases hclear
  case not_discard =>
    intro hbit line hmem
    have hclear := (mem_invalidation_iff.mp
      (mem_invalidation_of_invalidateInstructions hflush hmem)).1
    rw [instructionCoherent_eq_testBit, hbit] at hclear
    cases hclear
  case first =>
    refine ⟨_, rfl, ?_⟩
    simp [mem_cleaning_iff, mem_invalidation_iff]

end JitSupport.CacheType
