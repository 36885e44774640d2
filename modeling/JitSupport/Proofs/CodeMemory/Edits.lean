import JitSupport.Proofs.CodeMemory.Protection
import JitSupport.Proofs.CodeMemory.Safety

/-!
# Edits before and after publishing

Bytes come into memory for code by a write while it is not published, and by a patch once it
is.  When the operating system turns nothing down, an operation does what it says, and it makes
no difference on which side of the publication an edit is made: either way it is turned down
for the same reason, or it puts the same bytes into the memory.

Only the end of the written code can tell the two apart.  A write moves it to the end of its
bytes even if there are none, whereas a patch without bytes does nothing at all.  So an edit
without bytes that lies behind the written code, but fits, makes the code longer before
publishing and not after.

## Main definitions

* `Kernel.GrantsAll` — an operating system that turns down no change of protection.
* `CodeMemory.Operation.applied` — the memory after an operation that is not turned down.

## Main results

* `CodeMemory.perform_of_grantsAll` — an operation does what it says when nothing is turned
  down.
* `CodeMemory.map_text_eq_iff` — memories with the same bytes have the same text exactly if
  they were written equally far.
* `CodeMemory.Reachable.edit_publish_comm_iff` — **when an edit can be made on either side of
  the publication.**
-/

namespace JitSupport

namespace Kernel

/-- The operating system turns down no change of protection. -/
def GrantsAll (k : Kernel) : Prop := ∀ v ∈ k.protectVerdicts, v = none

theorem GrantsAll.protect_eq {k : Kernel} (h : k.GrantsAll) : k.protect = none := by
  cases hverdicts : k.protectVerdicts with
  | nil =>
    rw [protect, hverdicts]
    rfl
  | cons v verdicts =>
    rw [protect, hverdicts]
    apply h
    rw [hverdicts]
    exact List.mem_cons_self

theorem GrantsAll.afterProtect {k : Kernel} (h : k.GrantsAll) : k.afterProtect.GrantsAll :=
  fun v hv => h v (List.mem_of_mem_tail hv)

end Kernel

namespace CodeMemory

variable {backend : Backend} {m m' : CodeMemory} {t : Trace} {k : Kernel} {offset : UInt64}
  {bytes : ByteString} {pages : MemoryRange} {op : Operation} {o : Outcome CodeMemory Unit}

/-! ### Operations that nothing stands in the way of -/

/-- The memory after an operation that is not turned down. -/
def Operation.applied (m : CodeMemory) : Operation → CodeMemory
  | write offset bytes => m.copied offset bytes
  | publish => { m with published := true }
  | patch offset bytes => if bytes.length = 0 then m else m.copied offset bytes

theorem Closing.grantsAll {k' : Kernel} {closing : Trace} (h : Closing pages k k' closing)
    (hk : k.GrantsAll) : k'.GrantsAll := by
  cases h with
  | atOnce => exact hk.afterProtect
  | secondTry => exact hk.afterProtect.afterProtect

/-- An operation that is not turned down at once does what it says, and could only fail by
reaching behind the address space. -/
theorem Step.of_grantsAll (hstep : Step backend m k op o) (hk : k.GrantsAll)
    (hop : op.refusal? m = none) :
    o.state = op.applied m ∧ o.kernel.GrantsAll ∧ ∀ failure, o.result = .error failure →
      ∃ start len, failure = .error (.addressOverflow start len) := by
  cases hstep with
  | refused h =>
    rw [hop] at h
    cases h
  | written | publishedEmpty => exact ⟨rfl, hk, nofun⟩
  | published => exact ⟨rfl, hk.afterProtect, nofun⟩
  | patchedNothing hp hfit hlen => exact ⟨(if_pos hlen).symm, hk, nofun⟩
  | publishDenied _ _ hdenied | openDenied _ _ _ _ hdenied =>
    rw [hk.protect_eq] at hdenied
    cases hdenied
  | lost _ _ _ _ _ hdenied =>
    rw [hk.afterProtect.protect_eq] at hdenied
    cases hdenied
  | overflowed hp hfit hlen hpages _ hclosing =>
    refine ⟨(if_neg (by omega)).symm, hclosing.grantsAll hk.afterProtect, fun failure h => ?_⟩
    cases h
    exact ⟨_, _, rfl⟩
  | patched hp hfit hlen hpages _ hclosing =>
    exact ⟨(if_neg (by omega)).symm, hclosing.grantsAll hk.afterProtect, nofun⟩

/-- In memory that starts with a page, such an operation succeeds. -/
theorem perform_of_grantsAll (hm : m.WellFormed) (halign : m.mapping.PageAligned)
    (hk : k.GrantsAll) (hop : op.refusal? m = none) (backend : Backend) :
    (op.perform backend m k).result = .ok () ∧ (op.perform backend m k).state = op.applied m ∧
      (op.perform backend m k).kernel.GrantsAll := by
  have hstep := step_perform hm backend k op
  obtain ⟨hstate, hgrants, hoverflow⟩ := hstep.of_grantsAll hk hop
  refine ⟨?_, hstate, hgrants⟩
  cases hresult : (op.perform backend m k).result with
  | ok => rfl
  | error failure =>
    -- a failure would be one that does not come up
    obtain ⟨start, len, rfl⟩ := hoverflow failure hresult
    obtain ⟨e, he, hordinary⟩ := hstep.not_isDefensive hm halign hresult
    cases he
    exact absurd trivial hordinary

/-! ### Texts -/

/-- Memories with the same bytes have the same text exactly if they were written equally
far. -/
theorem map_text_eq_iff (hm : m.WellFormed) (hm' : m'.WellFormed)
    (hget : ∀ i, m.mapping.cells.get i = m'.mapping.cells.get i) :
    m.text.map ByteString.toList = m'.text.map ByteString.toList ↔ m.len = m'.len := by
  rw [hm.text_eq, hm'.text_eq]
  constructor
  · intro htext
    have hlength := congrArg List.length (Except.ok.inj htext)
    rw [ByteString.length_toList, ByteString.length_toList, Cells.length_read,
      Cells.length_read] at hlength
    exact UInt64.toNat_inj.mp hlength
  · intro hlen
    refine congrArg Except.ok (List.ext_getElem? fun i => ?_)
    rw [Cells.getElem?_read, Cells.getElem?_read, hlen, hget]

/-! ### Edits -/

/-- Two published memories of the same size with the same bytes in them. -/
structure AgreePublished (m m' : CodeMemory) : Prop where
  /-- They are of the same size. -/
  capacity_eq : m.capacity = m'.capacity
  /-- The first is published. -/
  published_left : m.published = true
  /-- So is the second. -/
  published_right : m'.published = true
  /-- They hold the same bytes. -/
  get_eq : ∀ i, m.mapping.cells.get i = m'.mapping.cells.get i

theorem AgreePublished.refl (hp : m.published = true) : m.AgreePublished m :=
  ⟨rfl, hp, hp, fun _ => rfl⟩

/-- Copying bytes before publishing and patching them after it differ in nothing but the end of
the written code, and in that only if there are no bytes. -/
theorem copied_agrees_applied (hfit : offset.toNat + bytes.length ≤ m.capacity.toNat) :
    let before : CodeMemory := { m.copied offset bytes with published := true }
    let after := (Operation.patch offset bytes).applied { m with published := true }
    before.AgreePublished after ∧
      (before.len = after.len ↔ 0 < bytes.length ∨ offset ≤ m.len) := by
  intro before after
  rcases Nat.eq_zero_or_pos bytes.length with hlen | hlen
  · have hafter : after = { m with published := true } := if_pos hlen
    rw [hafter]
    refine ⟨⟨rfl, rfl, rfl, fun i => ?_⟩, ?_⟩
    · -- a copy without bytes changes no byte
      have hget := Cells.get_write m.mapping.cells offset.toNat bytes i
      rwa [if_neg (by omega)] at hget
    · have hend : before.len.toNat = max m.len.toNat (offset.toNat + bytes.length) :=
        toNat_len_copied hfit
      change before.len = m.len ↔ _
      rw [← UInt64.toNat_inj, hend, UInt64.le_iff_toNat_le]
      omega
  · have hafter : after = before := if_neg (by omega)
    rw [hafter]
    exact ⟨.refl rfl, iff_of_true rfl (Or.inl hlen)⟩

/-- An edit that fits, on either side of the publication. -/
theorem edits_of_fits (hm : m.WellFormed) (halign : m.mapping.PageAligned)
    (hp : m.published = false) (hk : k.GrantsAll)
    (hfit : offset.toNat + bytes.length ≤ m.capacity.toNat) (backend : Backend) :
    let written := write offset bytes m k
    let before := publish backend written.state written.kernel
    let closed := publish backend m k
    let after := patch backend offset bytes closed.state closed.kernel
    (written.result = .ok () ∧ before.result = .ok () ∧
      before.state = { m.copied offset bytes with published := true }) ∧
    closed.result = .ok () ∧ after.result = .ok () ∧
      after.state = (Operation.patch offset bytes).applied { m with published := true } := by
  intro written before closed after
  have hclosable := Operation.refusal?_publish_eq_none_iff.mpr hp
  constructor
  · have hwritable := Operation.refusal?_write_eq_none_iff.mpr ⟨hp, hfit⟩
    obtain ⟨hwritten, hstate, hgrants⟩ := perform_of_grantsAll hm halign hk hwritable backend
    change written.state = m.copied offset bytes at hstate
    have hclosable' : Operation.publish.refusal? written.state = none := by
      rw [hstate]
      exact hclosable
    obtain ⟨hbefore, hstate', -⟩ := perform_of_grantsAll (m := written.state)
      (hstate ▸ hm.copied hfit) (hstate ▸ halign) hgrants hclosable' backend
    refine ⟨hwritten, hbefore, hstate'.trans ?_⟩
    rw [hstate]
    rfl
  · obtain ⟨hclosed, hstate, hgrants⟩ := perform_of_grantsAll hm halign hk hclosable backend
    change closed.state = { m with published := true } at hstate
    have hpatchable : (Operation.patch offset bytes).refusal? closed.state = none := by
      rw [hstate]
      exact if_pos hfit
    obtain ⟨hafter, hstate', -⟩ := perform_of_grantsAll (m := closed.state)
      (hstate ▸ hm.withPublished true) (hstate ▸ halign) hgrants hpatchable backend
    refine ⟨hclosed, hafter, hstate'.trans ?_⟩
    rw [hstate]

/-- An edit that does not fit, on either side of the publication. -/
theorem edits_of_not_fits (hm : m.WellFormed) (halign : m.mapping.PageAligned)
    (hp : m.published = false) (hk : k.GrantsAll)
    (hfit : ¬ offset.toNat + bytes.length ≤ m.capacity.toNat) (backend : Backend) :
    let written := write offset bytes m k
    let closed := publish backend m k
    let after := patch backend offset bytes closed.state closed.kernel
    (written.result = .error (.error (.outOfBounds offset bytes.length m.capacity)) ∧
      written.state = m ∧ written.kernel = k) ∧
    closed.result = .ok () ∧ closed.state.published = true ∧
      after.result = .error (.error (.outOfBounds offset bytes.length m.capacity)) ∧
      after.state = closed.state := by
  intro written closed after
  have hwritten : written = _ := run_write_of_not_fits hp hfit
  have hclosable := Operation.refusal?_publish_eq_none_iff.mpr hp
  obtain ⟨hclosed, hstate, -⟩ := perform_of_grantsAll hm halign hk hclosable backend
  change closed.state = { m with published := true } at hstate
  have hpublished : closed.state.published = true := by rw [hstate]
  have hcapacity : closed.state.capacity = m.capacity := by
    rw [hstate]
    rfl
  have hafter : after = _ := run_patch_of_not_fits hpublished (by rwa [hcapacity]) backend
  rw [hafter, hcapacity]
  exact ⟨by simp [hwritten], hclosed, hpublished, rfl, rfl⟩

/-- **When an edit can be made on either side of the publication.**  Unpublished memory is
written and then published, or published and then patched with the same bytes at the same
offset, while the operating system turns nothing down.  Either way the edit has the same
result, and the memory ends up published, of the same size and with the same bytes in it.  The
end of the written code, and with it the text, is the same exactly if the edit has bytes, or
does not lie behind the written code, or does not fit. -/
theorem Reachable.edit_publish_comm_iff (h : Reachable backend m t)
    (halign : m.mapping.PageAligned) (hp : m.published = false) (hk : k.GrantsAll)
    (offset : UInt64) (bytes : ByteString) :
    let written := write offset bytes m k
    let before := publish backend written.state written.kernel
    let closed := publish backend m k
    let after := patch backend offset bytes closed.state closed.kernel
    (written.result = after.result ∧ before.result = .ok () ∧ closed.result = .ok ()) ∧
    before.state.AgreePublished after.state ∧
    (before.state.len = after.state.len ↔
      0 < bytes.length ∨ offset ≤ m.len ∨ m.capacity < offset) ∧
    (before.state.text.map ByteString.toList = after.state.text.map ByteString.toList ↔
      0 < bytes.length ∨ offset ≤ m.len ∨ m.capacity < offset) := by
  intro written before closed after
  have hm := h.wellFormed
  have hwritten := (step_write backend m k offset bytes).wellFormed hm
  have hbefore := (step_publish hwritten backend written.kernel).wellFormed hwritten
  have hclosed := (step_publish hm backend k).wellFormed hm
  have hafter := (step_patch hclosed backend closed.kernel offset bytes).wellFormed hclosed
  -- the text follows from the bytes and the end of the code
  suffices hends :
      (written.result = after.result ∧ before.result = .ok () ∧ closed.result = .ok ()) ∧
      before.state.AgreePublished after.state ∧
      (before.state.len = after.state.len ↔
        0 < bytes.length ∨ offset ≤ m.len ∨ m.capacity < offset) by
    obtain ⟨hresults, hagree, hlen⟩ := hends
    exact ⟨hresults, hagree, hlen, (map_text_eq_iff hbefore hafter hagree.get_eq).trans hlen⟩
  by_cases hfit : offset.toNat + bytes.length ≤ m.capacity.toNat
  · obtain ⟨⟨hw, hb, hbstate⟩, hc, ha, hastate⟩ := edits_of_fits hm halign hp hk hfit backend
    have hinside : ¬ m.capacity < offset := by
      rw [UInt64.lt_iff_toNat_lt]
      omega
    change before.state = _ at hbstate
    change after.state = _ at hastate
    rw [hbstate, hastate]
    obtain ⟨hagree, hlen⟩ := copied_agrees_applied (m := m) hfit
    exact ⟨⟨hw.trans ha.symm, hb, hc⟩, hagree, hlen.trans (by simp [hinside])⟩
  · obtain ⟨⟨hw, hwstate, hwkernel⟩, hc, hpublished, ha, hastate⟩ :=
      edits_of_not_fits hm halign hp hk hfit backend
    -- nothing was edited, and what is left is the publication
    have hb : before = closed := by
      change publish backend written.state written.kernel = _
      rw [hwstate, hwkernel]
    have houtside : 0 < bytes.length ∨ offset ≤ m.len ∨ m.capacity < offset := by
      rw [UInt64.le_iff_toNat_le, UInt64.lt_iff_toNat_lt]
      omega
    change after.state = closed.state at hastate
    rw [hb, hastate]
    exact ⟨⟨hw.trans ha.symm, hc, hc⟩, .refl hpublished, iff_of_true rfl houtside⟩

theorem grantsAll_answering_nil : (answering []).GrantsAll :=
  fun _ hv => absurd hv List.not_mem_nil

/-- Two bytes across the border of two pages, behind the written code. -/
theorem twoPages_edit_publish_comm :
    let written := write 4095 (.ofList [3, 4]) twoPages (answering [])
    let before := publish .apple written.state written.kernel
    let closed := publish .apple twoPages (answering [])
    let after := patch .apple 4095 (.ofList [3, 4]) closed.state closed.kernel
    twoPages.mapping.PageAligned ∧ twoPages.published = false ∧ (answering []).GrantsAll ∧
      written.result = after.result ∧ before.state.AgreePublished after.state ∧
      before.state.len = after.state.len := by
  have halign : twoPages.mapping.PageAligned := Or.inr (by decide)
  have hends := (reachable_twoPages .apple).edit_publish_comm_iff halign rfl
    grantsAll_answering_nil 4095 (.ofList [3, 4])
  have hbytes : 0 < (ByteString.ofList [3, 4]).length := by decide
  exact ⟨halign, rfl, grantsAll_answering_nil, hends.1.1, hends.2.1,
    hends.2.2.1.mpr (Or.inl hbytes)⟩

/-- An edit without bytes cannot be made on either side of the publication: in two pages that
were just reserved, and can be written everywhere, a write without bytes makes the code sixteen
bytes long, and a patch without bytes leaves it empty. -/
theorem twoPages_emptyEdit_ne :
    let t : Trace := [.call (.map 8192 .readWrite) none, .event (.mapped 0x10000 8192)]
    let written := write 16 .empty twoPages (answering [])
    let before := publish .coherent written.state written.kernel
    let closed := publish .coherent twoPages (answering [])
    let after := patch .coherent 16 .empty closed.state closed.kernel
    (Reachable .coherent twoPages t ∧ twoPages.published = false ∧
      (∀ page, twoPages.HasPage page → t.protection? page = some .readWrite) ∧
      (answering []).GrantsAll) ∧
    written.result = .ok () ∧ after.result = .ok () ∧
      before.state.len = 16 ∧ after.state.len = 0 := by
  intro t written before closed after
  have hreach : Reachable .coherent twoPages t := reachable_twoPages .coherent
  have hfit : (16 : UInt64).toNat + ByteString.empty.length ≤ twoPages.capacity.toNat := by decide
  obtain ⟨⟨hwritten, -⟩, -, hafter, -⟩ := edits_of_fits hreach.wellFormed (Or.inr (by decide)) rfl
    grantsAll_answering_nil hfit .coherent
  refine ⟨⟨hreach, rfl, fun page hpage => ?_, grantsAll_answering_nil⟩, hwritten, hafter,
    by decide, by decide⟩
  -- no patch has lost a page yet
  have hopen : t.StillOpen page := nofun
  rw [hreach.protection?_of_unpublished rfl hpage, if_pos hopen]

end CodeMemory

end JitSupport
