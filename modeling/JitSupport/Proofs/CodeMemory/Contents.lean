import JitSupport.Proofs.CodeMemory.Reachable

/-!
# The contents of code memory

Memory for code holds what was copied to it.  A write that succeeds copies its bytes, and
so does a patch once its pages are open, even if they cannot be closed again; nothing else
touches a byte.  Where copies overlap the latest one counts, where there is none the memory
holds the zeros that it was mapped with, and the written code ends where the farthest of
the copies ends.

## Main definitions

* `Copy` — bytes that were copied to an offset.
* `Copy.latest?`, `Copy.extent` — what a list of copies leaves behind.
* `CodeMemory.Operation.copy?` — the copy that an operation makes, if it makes one.
* `CodeMemory.copies` — the copies of a run.
* `CodeMemory.Holds` — memory that holds what some copies left in it.

## Main results

* `CodeMemory.Step.copied_or_kept` — an operation makes its copy or keeps everything.
* `CodeMemory.Holds.run` — a run adds its copies to what the memory holds.
* `CodeMemory.contents_run` — **the contents after any run.**
-/

namespace JitSupport

/-- Bytes that were copied to an offset. -/
structure Copy where
  /-- Where the first byte went. -/
  offset : UInt64
  /-- The bytes. -/
  bytes : ByteString
  deriving DecidableEq, Repr

namespace Copy

/-- The end of a copy. -/
def stop (c : Copy) : Nat := c.offset.toNat + c.bytes.length

/-- The byte that a copy put at an offset, if it covers the offset. -/
def byte? (c : Copy) (i : Nat) : Option UInt8 :=
  if c.offset.toNat ≤ i then c.bytes.toList[i - c.offset.toNat]? else none

/-- The byte that the latest copy to cover an offset put there. -/
def latest? (cs : List Copy) (i : Nat) : Option UInt8 := cs.reverse.findSome? (·.byte? i)

/-- The end of the copy that reaches farthest. -/
def extent (cs : List Copy) : Nat := cs.foldl (fun n c => max n c.stop) 0

theorem latest?_concat (cs : List Copy) (c : Copy) (i : Nat) :
    latest? (cs ++ [c]) i = (c.byte? i).or (latest? cs i) := by
  rw [latest?, List.reverse_concat, List.findSome?_cons, latest?]
  cases c.byte? i <;> rfl

theorem extent_concat (cs : List Copy) (c : Copy) :
    extent (cs ++ [c]) = max (extent cs) c.stop := by
  rw [extent, List.foldl_append, extent]
  rfl

/-- The cells after a copy hold its bytes, and what they held before elsewhere. -/
theorem get_write_eq (c : Copy) (cells : Cells) (i : Nat) :
    (cells.write c.offset.toNat c.bytes).get i = (c.byte? i).getD (cells.get i) := by
  rw [Cells.get_write, byte?]
  by_cases hfirst : c.offset.toNat ≤ i
  · by_cases hlast : i < c.offset.toNat + c.bytes.length
    · have hin : i - c.offset.toNat < c.bytes.toList.length := by
        rw [ByteString.length_toList]
        omega
      rw [if_pos ⟨hfirst, hlast⟩, if_pos hfirst, List.getD_eq_getElem?_getD,
        List.getElem?_eq_getElem hin]
      rfl
    · rw [if_neg (fun h => hlast h.2), if_pos hfirst, List.getElem?_eq_none, Option.getD_none]
      rw [ByteString.length_toList]
      omega
  · rw [if_neg (fun h => hfirst h.1), if_neg hfirst, Option.getD_none]

end Copy

namespace CodeMemory

variable {backend : Backend} {m : CodeMemory} {k : Kernel} {offset : UInt64} {bytes : ByteString}
  {cs : List Copy}

/-! ### The copies of a run -/

/-- The copy that an operation makes: a write makes one if it succeeds, and a patch makes one
if it is not turned down, has bytes to copy, and the operating system opens its pages, which
is the first thing it is asked for. -/
def Operation.copy? (m : CodeMemory) (k : Kernel) : Operation → Option Copy
  | write offset bytes =>
    if (CodeMemory.write offset bytes m k).result.isOk then some ⟨offset, bytes⟩ else none
  | publish => none
  | patch offset bytes =>
    if (patch offset bytes).refusal? m = none ∧ 0 < bytes.length ∧ k.protect = none then
      some ⟨offset, bytes⟩
    else none

/-- The copies that the operations of a run make, in order. -/
def copies (backend : Backend) : List Operation → CodeMemory → Kernel → List Copy
  | [], _, _ => []
  | op :: ops, m, k =>
    (op.copy? m k).toList ++
      copies backend ops (op.perform backend m k).state (op.perform backend m k).kernel

theorem isOk_write_iff :
    (write offset bytes m k).result.isOk = true ↔
      (Operation.write offset bytes).refusal? m = none := by
  -- a write makes nothing visible, so that any platform will do
  have hstep := step_write .coherent m k offset bytes
  generalize write offset bytes m k = o at hstep
  cases hstep with
  | refused h =>
    rw [h]
    exact iff_of_false nofun nofun
  | written hp hfit =>
    refine iff_of_true rfl ?_
    rw [Operation.refusal?, if_neg (by simp [hp]), if_pos hfit]

/-- **An operation makes its copy or keeps everything**: the bytes, and how far they were
written. -/
theorem Step.copied_or_kept {op : Operation} {o : Outcome CodeMemory Unit}
    (hstep : Step backend m k op o) :
    (op.copy? m k = none ∧ o.state.len = m.len ∧ o.state.mapping = m.mapping) ∨
      ∃ c, op.copy? m k = some c ∧ c.stop ≤ m.capacity.toNat ∧
        o.state.len = (m.copied c.offset c.bytes).len ∧
        o.state.mapping = (m.copied c.offset c.bytes).mapping := by
  cases hstep with
  | @refused op e h =>
    refine Or.inl ⟨?_, rfl, rfl⟩
    cases op with
    | write offset bytes => rw [Operation.copy?, if_neg (by simp [isOk_write_iff, h])]
    | publish => rfl
    | patch offset bytes => rw [Operation.copy?, if_neg (by simp [h])]
  | publishedEmpty | publishDenied | published => exact Or.inl ⟨rfl, rfl, rfl⟩
  | patchedNothing hp hfit hlen =>
    exact Or.inl ⟨by rw [Operation.copy?, if_neg (by simp [hlen])], rfl, rfl⟩
  | openDenied hp hfit hlen hpages hk =>
    exact Or.inl ⟨by rw [Operation.copy?, if_neg (by simp [hk])], rfl, rfl⟩
  | written hp hfit =>
    refine Or.inr ⟨⟨_, _⟩, ?_, hfit, rfl, rfl⟩
    rw [Operation.copy?, if_pos (by simp [isOk_write_iff, Operation.refusal?, hp, hfit])]
  | lost hp hfit hlen _ hk | overflowed hp hfit hlen _ hk | patched hp hfit hlen _ hk =>
    refine Or.inr ⟨⟨_, _⟩, ?_, hfit, rfl, rfl⟩
    rw [Operation.copy?, if_pos (by simp [Operation.refusal?, hp, hfit, hlen, hk])]

/-! ### What the memory holds -/

/-- Memory that holds what some copies left in it, and zeros elsewhere. -/
structure Holds (m : CodeMemory) (cs : List Copy) : Prop where
  /-- The written code ends where the farthest copy ends. -/
  len_eq : m.len.toNat = Copy.extent cs
  /-- Every byte is the one that was copied last. -/
  get_eq : ∀ i, m.mapping.cells.get i = (Copy.latest? cs i).getD 0

theorem holds_of_reserve {capacity : UInt64} (h : (reserve capacity () k).result = .ok m) :
    m.Holds [] := by
  obtain ⟨-, hlen, -, hcells, -⟩ := reserve_spec h
  refine ⟨?_, fun i => ?_⟩
  · rw [hlen]
    rfl
  · rw [hcells]
    rfl

theorem Holds.copied (h : m.Holds cs) {c : Copy} (hfit : c.stop ≤ m.capacity.toNat) :
    (m.copied c.offset c.bytes).Holds (cs ++ [c]) := by
  refine ⟨?_, fun i => ?_⟩
  · rw [toNat_len_copied hfit, h.len_eq, Copy.extent_concat]
    rfl
  · have hcells : (m.copied c.offset c.bytes).mapping.cells.get i =
        (c.byte? i).getD (m.mapping.cells.get i) := c.get_write_eq m.mapping.cells i
    rw [hcells, h.get_eq, Copy.latest?_concat, Option.getD_or]

/-- An operation adds its copy to what the memory holds. -/
theorem Step.holds {op : Operation} {o : Outcome CodeMemory Unit}
    (hstep : Step backend m k op o) (h : m.Holds cs) :
    o.state.Holds (cs ++ (op.copy? m k).toList) := by
  rcases hstep.copied_or_kept with ⟨hnone, hlen, hmapping⟩ | ⟨c, hsome, hfit, hlen, hmapping⟩
  · rw [hnone, Option.toList_none, List.append_nil]
    exact ⟨by rw [hlen, h.len_eq], fun i => by rw [hmapping, h.get_eq]⟩
  · have hcopied := h.copied hfit
    rw [hsome, Option.toList_some]
    exact ⟨by rw [hlen, hcopied.len_eq], fun i => by rw [hmapping, hcopied.get_eq]⟩

/-- A run adds its copies to what the memory holds. -/
theorem Holds.run (h : m.Holds cs) (hm : m.WellFormed) (backend : Backend) (ops : List Operation)
    (k : Kernel) : (run backend ops m k).state.Holds (cs ++ copies backend ops m k) := by
  induction ops generalizing m k cs with
  | nil =>
    rw [copies, List.append_nil]
    exact h
  | cons op ops ih =>
    -- the first copy joins what the memory holds, and the others come after it
    have hstep := step_perform hm backend k op
    rw [run_cons hm, copies, ← List.append_assoc]
    exact ih (hstep.holds h) (hstep.wellFormed hm) (op.perform backend m k).kernel

theorem Holds.text_eq (h : m.Holds cs) (hm : m.WellFormed) :
    ∃ text, m.text = .ok text ∧ text.length = m.len.toNat ∧
      ∀ i < m.len.toNat, text.toList[i]? = some ((Copy.latest? cs i).getD 0) := by
  refine ⟨_, hm.text_eq, ?_, fun i hi => ?_⟩
  · rw [Cells.length_read]
  · rw [Cells.getElem?_read, if_pos hi, Nat.zero_add, h.get_eq]

/-- **The contents after any run.**  The written code ends where the farthest copy of the run
ends; its text can be read, and each byte of it is the one that the latest copy to cover it
put there, or zero if there is none.  Whatever is done next changes neither a byte nor the
end of the code unless it makes a copy. -/
theorem contents_run {capacity : UInt64} {k₀ : Kernel}
    (h : (reserve capacity () k₀).result = .ok m) (backend : Backend) (ops : List Operation)
    (k : Kernel) :
    (run backend ops m k).state.len.toNat = Copy.extent (copies backend ops m k) ∧
    (∃ text, (run backend ops m k).state.text = .ok text ∧
      text.length = (run backend ops m k).state.len.toNat ∧
      ∀ i < text.length,
        text.toList[i]? = some ((Copy.latest? (copies backend ops m k) i).getD 0)) ∧
    ∀ op k', Operation.copy? (run backend ops m k).state k' op = none →
      (op.perform backend (run backend ops m k).state k').state.len =
        (run backend ops m k).state.len ∧
      (op.perform backend (run backend ops m k).state k').state.mapping =
        (run backend ops m k).state.mapping := by
  have hreach : Reachable backend m (reserve capacity () k₀).trace := .reserve h
  have hwell := (hreach.run ops k).wellFormed
  have hholds := (holds_of_reserve h).run hreach.wellFormed backend ops k
  rw [List.nil_append] at hholds
  refine ⟨hholds.len_eq, ?_, fun op k' hnone => ?_⟩
  · obtain ⟨text, htext, hlength, hbytes⟩ := hholds.text_eq hwell
    exact ⟨text, htext, hlength, fun i hi => hbytes i (hlength ▸ hi)⟩
  · rcases (step_perform hwell backend k' op).copied_or_kept with ⟨-, hkept⟩ | ⟨c, hsome, -⟩
    · exact hkept
    · rw [hnone] at hsome
      cases hsome

/-- Two overlapping writes that leave a gap, and a patch that could not be closed again. -/
theorem twoPages_contents :
    let ops : List Operation :=
      [.write 2 (.ofList [1, 2, 3]), .write 0 (.ofList [9]), .publish, .patch 3 (.ofList [7])]
    let o := run .coherent ops twoPages
      (answering [none, none, some .outOfMemory, some .outOfMemory])
    (reserve 5000 () (answering [])).result = .ok twoPages ∧ o.state.len.toNat = 5 ∧
      ∃ text, o.state.text = .ok text ∧ text.toList[1]? = some 0 ∧ text.toList[3]? = some 7 := by
  intro ops o
  obtain ⟨hlen, ⟨text, htext, hlength, hbytes⟩, -⟩ := contents_run
    (rfl : (reserve 5000 () (answering [])).result = .ok twoPages) .coherent ops
    (answering [none, none, some .outOfMemory, some .outOfMemory])
  refine ⟨rfl, hlen.trans (by decide), text, htext, ?_, ?_⟩
  · exact (hbytes 1 (by rw [hlength, hlen]; decide)).trans (by decide)
  · exact (hbytes 3 (by rw [hlength, hlen]; decide)).trans (by decide)

end CodeMemory

end JitSupport
