import JitSupport.Cache.Backend

/-!
# The lines that maintenance visits

The lines of a range are visited by a loop that steps by a saturating sum.  Progress stops
at the top of the address space, but no bound lies above the largest address, so the loop has
ended by then.  Below the top the sum is exact, and the loop visits the lines that the range
touches, each of them once and in the order of their addresses.

## Main definitions

* `LineSize.Holds` — the line that holds an address.
* `LineSize.Walk` — the runs of the loop, turn by turn.
* `LineSize.Visits` — the lines of a range, with what there is to know of them.
* `CacheOp.cleaned?`, `CacheOp.discarded?` — the line that a step of maintenance is about.
* `CacheType.VisitsLines` — a maintenance by lines that visits the right ones.

## Main results

* `LineSize.walk_iff` — the loop ends, and in one way only.
* `LineSize.mem_lines_iff`, `LineSize.mem_lines_iff_holds` — which lines are visited.
* `LineSize.visits_lines` — the lines of a range are the right ones.
* `CacheType.visitsLines` — **maintenance by lines visits the right lines.**
-/

namespace UInt64

/-- A sum below another word is not clamped. -/
theorem toNat_saturatingAdd_of_lt {a n b : UInt64} (h : a.saturatingAdd n < b) :
    (a.saturatingAdd n).toNat = a.toNat + n.toNat := by
  have hb := b.toNat_lt
  rw [UInt64.lt_iff_toNat_lt] at h
  rw [toNat_saturatingAdd, size] at *
  omega

/-- Below another word, a sum with a positive word is a step forward. -/
theorem lt_saturatingAdd {a n b : UInt64} (hn : 0 < n.toNat) (h : a < b) :
    a < a.saturatingAdd n := by
  have hb := b.toNat_lt
  rw [UInt64.lt_iff_toNat_lt] at *
  rw [toNat_saturatingAdd, size]
  omega

end UInt64

namespace JitSupport

namespace LineSize

variable {size : LineSize} {address start stop a x : UInt64}

theorem toNat_alignDown_bytes (size : LineSize) (x : UInt64) :
    (x.alignDown size.bytes).toNat = x.toNat / size.bytes.toNat * size.bytes.toNat :=
  UInt64.toNat_alignDown size.isPowerOfTwo x

/-- The line that begins at one address holds another one. -/
structure Holds (size : LineSize) (line x : UInt64) : Prop where
  /-- A line begins at a multiple of its size. -/
  dvd : size.bytes.toNat ∣ line.toNat
  /-- The address is not before the line, -/
  le : line.toNat ≤ x.toNat
  /-- and not behind it. -/
  lt : x.toNat < line.toNat + size.bytes.toNat

theorem holds_alignDown (size : LineSize) (x : UInt64) : size.Holds (x.alignDown size.bytes) x where
  dvd := by
    rw [toNat_alignDown_bytes]
    exact Nat.dvd_mul_left ..
  le := UInt64.le_iff_toNat_le.mp (UInt64.alignDown_le ..)
  lt := by
    rw [toNat_alignDown_bytes]
    exact Nat.lt_div_mul_add size.bytes_pos

/-- Only one line holds an address. -/
theorem Holds.eq_alignDown {line : UInt64} (h : size.Holds line x) :
    line = x.alignDown size.bytes := by
  obtain ⟨⟨c, hc⟩, hle, hlt⟩ := h
  rw [← UInt64.toNat_inj, toNat_alignDown_bytes, hc, Nat.mul_comm]
  rw [hc, Nat.mul_comm] at hle hlt
  congr 1
  exact (Nat.div_eq_of_lt_le hle (by rwa [Nat.succ_mul])).symm

/-! ### The loop -/

/-- The runs of the loop over lines, with the lines that they visit. -/
inductive Walk (size : LineSize) (stop : UInt64) : UInt64 → List UInt64 → Prop
  /-- The loop ends at an address that is not below the bound. -/
  | done {address : UInt64} (h : ¬ address < stop) : Walk size stop address []
  /-- Otherwise it visits the line there and goes on behind it. -/
  | turn {address : UInt64} {others : List UInt64} (h : address < stop)
    (hothers : Walk size stop (address.saturatingAdd size.bytes) others) :
    Walk size stop address (address :: others)

/-- The loop ends, and in one way only. -/
theorem walk_iff {visited : List UInt64} :
    Walk size stop address visited ↔ visited = size.linesFrom address stop := by
  constructor
  · intro h
    induction h with
    | done h => exact (linesFrom_of_le (UInt64.not_lt.mp h)).symm
    | turn h _ ih => rw [linesFrom_of_lt h, ih]
  · rintro rfl
    fun_induction linesFrom size address stop with
    | case1 address h ih => exact .turn h ih
    | case2 address h => exact .done h

/-! ### Which lines are visited -/

/-- From an address on, the loop visits every address below the bound that lies a number of
whole lines behind it. -/
theorem mem_linesFrom_iff : a ∈ size.linesFrom address stop ↔
    a < stop ∧ ∃ n, a.toNat = address.toNat + n * size.bytes.toNat := by
  fun_induction linesFrom size address stop with
  | case1 address h ih =>
    rw [List.mem_cons, ih]
    constructor
    · rintro (rfl | ⟨hlt, n, hn⟩)
      · exact ⟨h, 0, by rw [Nat.zero_mul, Nat.add_zero]⟩
      · -- a line behind the next address shows that the step to it was exact
        have hstep : address.saturatingAdd size.bytes < stop := by
          rw [UInt64.lt_iff_toNat_lt] at *
          omega
        refine ⟨hlt, n + 1, ?_⟩
        rw [hn, UInt64.toNat_saturatingAdd_of_lt hstep, Nat.succ_mul]
        omega
    · rintro ⟨hlt, n, hn⟩
      cases n with
      | zero =>
        rw [Nat.zero_mul, Nat.add_zero] at hn
        exact Or.inl (UInt64.toNat_inj.mp hn)
      | succ n =>
        refine Or.inr ⟨hlt, n, ?_⟩
        have hstop := stop.toNat_lt
        rw [UInt64.lt_iff_toNat_lt] at hlt
        rw [Nat.succ_mul] at hn
        rw [UInt64.toNat_saturatingAdd, UInt64.size]
        omega
  | case2 address h =>
    simp only [List.not_mem_nil, false_iff, not_and]
    rintro hlt ⟨n, hn⟩
    rw [UInt64.lt_iff_toNat_lt] at *
    omega

theorem pairwise_lt_linesFrom (size : LineSize) (address stop : UInt64) :
    (size.linesFrom address stop).Pairwise (· < ·) := by
  fun_induction linesFrom size address stop with
  | case1 address h ih =>
    refine List.Pairwise.cons ?_ ih
    intro b hb
    obtain ⟨-, n, hn⟩ := mem_linesFrom_iff.mp hb
    have hstep := UInt64.lt_saturatingAdd size.bytes_pos h
    rw [UInt64.lt_iff_toNat_lt] at *
    omega
  | case2 address h => exact List.Pairwise.nil

/-- The lines of a range are the multiples of the line size below its end, from the one that
holds its start on. -/
theorem mem_lines_iff : a ∈ size.lines start stop ↔ size.bytes.toNat ∣ a.toNat ∧
    start.toNat / size.bytes.toNat * size.bytes.toNat ≤ a.toNat ∧ a < stop := by
  rw [lines, mem_linesFrom_iff, toNat_alignDown_bytes]
  constructor
  · rintro ⟨hlt, n, hn⟩
    refine ⟨?_, ?_, hlt⟩
    · rw [hn]
      exact Nat.dvd_add (Nat.dvd_mul_left ..) (Nat.dvd_mul_left ..)
    · omega
  · rintro ⟨⟨c, hc⟩, hle, hlt⟩
    refine ⟨hlt, c - start.toNat / size.bytes.toNat, ?_⟩
    rw [hc, Nat.mul_comm size.bytes.toNat] at *
    rw [Nat.sub_mul]
    omega

/-- The line that holds an address of the range is visited. -/
theorem alignDown_mem_lines (hstart : start ≤ x) (hstop : x < stop) :
    x.alignDown size.bytes ∈ size.lines start stop := by
  rw [mem_lines_iff, toNat_alignDown_bytes]
  refine ⟨Nat.dvd_mul_left .., ?_, UInt64.lt_of_le_of_lt (UInt64.alignDown_le ..) hstop⟩
  exact Nat.mul_le_mul_right _ (Nat.div_le_div_right (UInt64.le_iff_toNat_le.mp hstart))

/-- If a range has an address, its lines are the ones that hold one of its addresses. -/
theorem mem_lines_iff_holds (hrange : start < stop) :
    a ∈ size.lines start stop ↔ ∃ x, start ≤ x ∧ x < stop ∧ size.Holds a x := by
  constructor
  · intro h
    obtain ⟨hdvd, hle, hlt⟩ := mem_lines_iff.mp h
    rcases UInt64.le_total start a with hstart | hstart
    · exact ⟨a, hstart, hlt, hdvd, Nat.le_refl _, Nat.lt_add_of_pos_right size.bytes_pos⟩
    · -- only the line of the start begins before the range
      refine ⟨start, UInt64.le_refl start, hrange, hdvd, UInt64.le_iff_toNat_le.mp hstart, ?_⟩
      have hrest := Nat.lt_div_mul_add (a := start.toNat) size.bytes_pos
      omega
  · rintro ⟨x, hstart, hstop, hholds⟩
    rw [hholds.eq_alignDown]
    exact alignDown_mem_lines hstart hstop

/-- A range without addresses touches at most the line of its start. -/
theorem length_lines_le_one (h : stop ≤ start) : (size.lines start stop).length ≤ 1 := by
  rw [lines]
  by_cases hlt : start.alignDown size.bytes < stop
  · have hpast : stop ≤ (start.alignDown size.bytes).saturatingAdd size.bytes := by
      have hstop := stop.toNat_lt
      have hrest := Nat.lt_div_mul_add (a := start.toNat) size.bytes_pos
      rw [UInt64.le_iff_toNat_le] at *
      rw [UInt64.toNat_saturatingAdd, toNat_alignDown_bytes, UInt64.size]
      omega
    rw [linesFrom_of_lt hlt, linesFrom_of_le hpast]
    exact Nat.le_refl 1
  · rw [linesFrom_of_le (UInt64.not_lt.mp hlt)]
    exact Nat.zero_le 1

/-- The lines of a range, with what there is to know of them. -/
structure Visits (size : LineSize) (start stop : UInt64) (visited : List UInt64) : Prop where
  /-- The loop begins at the start of the range, rounded down to a multiple of the line size. -/
  first : (start.alignDown size.bytes).toNat = start.toNat / size.bytes.toNat * size.bytes.toNat
  /-- It ends, and these are the lines that it visits. -/
  walk_iff : ∀ others, Walk size stop (start.alignDown size.bytes) others ↔ others = visited
  /-- The lines are visited in the order of their addresses, -/
  increasing : visited.Pairwise (· < ·)
  /-- and none is visited twice. -/
  nodup : visited.Nodup
  /-- They are the multiples of the line size below the end of the range, from its start rounded
  down on. -/
  mem_iff : ∀ a, a ∈ visited ↔ size.bytes.toNat ∣ a.toNat ∧
    start.toNat / size.bytes.toNat * size.bytes.toNat ≤ a.toNat ∧ a.toNat < stop.toNat
  /-- If the range has an address, they are the lines that hold one of its addresses. -/
  mem_iff_holds : start < stop → ∀ a, a ∈ visited ↔ ∃ x, start ≤ x ∧ x < stop ∧ size.Holds a x
  /-- If it has none, at most one line is visited. -/
  length_le_one : stop ≤ start → visited.length ≤ 1
  /-- Behind each line the loop goes forward, and it goes to where the line ends unless it ends
  itself. -/
  step : ∀ a ∈ visited, a < a.saturatingAdd size.bytes ∧
    ((a.saturatingAdd size.bytes).toNat = a.toNat + size.bytes.toNat ∨
      stop ≤ a.saturatingAdd size.bytes)

/-- The lines of a range are the right ones. -/
theorem visits_lines (size : LineSize) (start stop : UInt64) :
    size.Visits start stop (size.lines start stop) where
  first := size.toNat_alignDown_bytes start
  walk_iff _ := walk_iff
  increasing := pairwise_lt_linesFrom ..
  nodup := (pairwise_lt_linesFrom ..).imp UInt64.ne_of_lt
  mem_iff _ := mem_lines_iff
  mem_iff_holds h _ := mem_lines_iff_holds h
  length_le_one := length_lines_le_one
  step a ha := by
    have hlt : a < stop := (mem_lines_iff.mp ha).2.2
    refine ⟨UInt64.lt_saturatingAdd size.bytes_pos hlt, ?_⟩
    by_cases hstep : a.saturatingAdd size.bytes < stop
    · exact Or.inl (UInt64.toNat_saturatingAdd_of_lt hstep)
    · exact Or.inr (UInt64.not_lt.mp hstep)

/-! ### The register in numbers -/

theorem toNat_bytes_ofField (field : UInt64) :
    (ofField field).bytes.toNat = 4 <<< (field.toNat % 16) := by
  have hfield : (field &&& 0xF).toNat = field.toNat % 16 := by
    rw [UInt64.toNat_and]
    exact Nat.and_two_pow_sub_one_eq_mod field.toNat 4
  have hlt : field.toNat % 16 < 16 := Nat.mod_lt _ (by decide)
  rw [bytes_ofField, UInt64.toNat_shiftLeft, hfield, Nat.mod_eq_of_lt (by omega : _ < 64)]
  apply Nat.mod_eq_of_lt
  rw [Nat.shiftLeft_eq]
  have hpow : 2 ^ (field.toNat % 16) ≤ 2 ^ 15 := Nat.pow_le_pow_right (by decide) (by omega)
  show 4 * 2 ^ (field.toNat % 16) < 2 ^ 64
  omega

end LineSize

namespace CacheType

theorem toNat_bytes_dataLine (type : CacheType) :
    type.dataLine.bytes.toNat = 4 <<< ((type.bits.toNat >>> 16) % 16) := by
  rw [dataLine, LineSize.toNat_bytes_ofField, UInt64.toNat_shiftRight]
  rfl

theorem toNat_bytes_instructionLine (type : CacheType) :
    type.instructionLine.bytes.toNat = 4 <<< (type.bits.toNat % 16) :=
  LineSize.toNat_bytes_ofField type.bits

/-- A flag of the register is one of its bits. -/
theorem flag_eq_testBit (type : CacheType) {n : UInt64} (hn : n.toNat < 64) :
    ((type.bits >>> n) &&& 1 == 1) = type.bits.toNat.testBit n.toNat := by
  rw [Bool.eq_iff_iff, beq_iff_eq, ← UInt64.toNat_inj, UInt64.toNat_and,
    UInt64.toNat_shiftRight, Nat.mod_eq_of_lt hn, Nat.testBit, Nat.and_comm]
  show 1 &&& _ = 1 ↔ _
  rw [bne_iff_ne, Nat.one_and_eq_mod_two]
  omega

theorem dataCoherent_eq_testBit (type : CacheType) :
    type.dataCoherent = type.bits.toNat.testBit 28 :=
  type.flag_eq_testBit (by decide : (28 : UInt64).toNat < 64)

theorem instructionCoherent_eq_testBit (type : CacheType) :
    type.instructionCoherent = type.bits.toNat.testBit 29 :=
  type.flag_eq_testBit (by decide : (29 : UInt64).toNat < 64)

end CacheType

/-! ### The lines of a maintenance -/

/-- The data line that a step cleans. -/
def CacheOp.cleaned? : CacheOp → Option UInt64
  | cleanData line => some line
  | _ => none

/-- The instruction line that a step discards. -/
def CacheOp.discarded? : CacheOp → Option UInt64
  | invalidateInstructions line => some line
  | _ => none

namespace CacheType

theorem cleaned_cleaning (type : CacheType) (start stop : UInt64) :
    (type.cleaning start stop).filterMap CacheOp.cleaned? =
      if type.dataCoherent then [] else type.dataLine.lines start stop := by
  unfold cleaning
  split
  · rfl
  · rw [List.filterMap_map]
    exact List.filterMap_some

theorem discarded_cleaning (type : CacheType) (start stop : UInt64) :
    (type.cleaning start stop).filterMap CacheOp.discarded? = [] := by
  unfold cleaning
  split
  · rfl
  · rw [List.filterMap_map]
    exact List.filterMap_eq_nil_iff.mpr fun _ _ => rfl

theorem cleaned_invalidation (type : CacheType) (start stop : UInt64) :
    (type.invalidation start stop).filterMap CacheOp.cleaned? = [] := by
  unfold invalidation
  split
  · rfl
  · rw [List.filterMap_append, List.filterMap_map, List.append_eq_nil_iff]
    exact ⟨List.filterMap_eq_nil_iff.mpr fun _ _ => rfl, rfl⟩

theorem discarded_invalidation (type : CacheType) (start stop : UInt64) :
    (type.invalidation start stop).filterMap CacheOp.discarded? =
      if type.instructionCoherent then [] else type.instructionLine.lines start stop := by
  unfold invalidation
  split
  · rfl
  · rw [List.filterMap_append, List.filterMap_map]
    show List.filterMap some _ ++ [] = _
    rw [List.filterMap_some, List.append_nil]

/-- The lines of a maintenance are the lines of its two phases. -/
theorem filterMap_of_flush {type : CacheType} {start stop : UInt64} {ops : List CacheOp}
    (h : (Backend.aarch64 type).flush start stop = .ok ops) {line? : CacheOp → Option UInt64}
    (hread : line? .readCacheType = none) (hdata : line? .dataBarrier = none)
    (hinstruction : line? .instructionBarrier = none) :
    ops.filterMap line? = (type.cleaning start stop).filterMap line? ++
      (type.invalidation start stop).filterMap line? := by
  cases h
  rw [List.filterMap_append, List.filterMap_append, List.filterMap_cons_none hread,
    List.filterMap_cons_none hdata, List.filterMap_cons_none hinstruction, List.filterMap_nil,
    List.append_nil]

/-- A maintenance by lines that visits the right ones. -/
structure VisitsLines (type : CacheType) (start stop : UInt64) : Prop where
  /-- Data lines have four bytes, doubled as often as bits 16 to 19 of the register say. -/
  data_bytes : type.dataLine.bytes.toNat = 4 <<< ((type.bits.toNat >>> 16) % 16)
  /-- Instruction lines have four bytes, doubled as often as bits 0 to 3 say. -/
  instruction_bytes : type.instructionLine.bytes.toNat = 4 <<< (type.bits.toNat % 16)
  /-- The loop over the data lines visits the lines of the range. -/
  data_lines : type.dataLine.Visits start stop (type.dataLine.lines start stop)
  /-- So does the loop over the instruction lines. -/
  instruction_lines :
    type.instructionLine.Visits start stop (type.instructionLine.lines start stop)
  /-- The maintenance is done, and the lines that it cleans and discards are the ones that the
  loops visit, unless bit 28 makes the first loop unnecessary or bit 29 the second one. -/
  issued : ∃ ops, (Backend.aarch64 type).flush start stop = .ok ops ∧
    ops.filterMap CacheOp.cleaned? =
      (if type.bits.toNat.testBit 28 then [] else type.dataLine.lines start stop) ∧
    ops.filterMap CacheOp.discarded? =
      (if type.bits.toNat.testBit 29 then [] else type.instructionLine.lines start stop)

/-- **Maintenance by lines visits the right lines.** -/
theorem visitsLines (type : CacheType) (start stop : UInt64) : type.VisitsLines start stop where
  data_bytes := type.toNat_bytes_dataLine
  instruction_bytes := type.toNat_bytes_instructionLine
  data_lines := type.dataLine.visits_lines start stop
  instruction_lines := type.instructionLine.visits_lines start stop
  issued := by
    have hflush := Backend.flush_aarch64 type start stop
    refine ⟨_, hflush, ?_, ?_⟩
    · rw [filterMap_of_flush hflush rfl rfl rfl, cleaned_cleaning, cleaned_invalidation,
        List.append_nil, dataCoherent_eq_testBit]
    · rw [filterMap_of_flush hflush rfl rfl rfl, discarded_cleaning, discarded_invalidation,
        List.nil_append, instructionCoherent_eq_testBit]

end CacheType

end JitSupport
