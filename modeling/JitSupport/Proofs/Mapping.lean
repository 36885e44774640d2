import JitSupport.Mapping
import JitSupport.Proofs.Rounding
import JitSupport.System.PageRights

/-!
# What a mapping does when it is asked

A part of a mapping that is in order is read, written and protected without
anything else happening.  Only the operating system has a say in a change of
protection; both of its answers are spelled out, with what each leaves in the trace.

## Main definitions

* `Trace.granted`, `Trace.denied` — what a change of protection leaves in the trace.
* `Mapping.HoldsPages` — a part that is not empty and starts with a page.
* `Mapping.replaced` — the mapping with the bytes of a part replaced.

## Main results

* `Mapping.run_protect_of_inverted`, `Mapping.run_protect_of_outside`,
  `Mapping.run_protect_of_unaligned`, `Mapping.run_protect_of_eq` — parts that are out of
  order, and the empty part.
* `Mapping.run_protect_of_granted`, `Mapping.run_protect_of_denied` — the two ends of
  a change of protection.
* `Mapping.run_create_of_mapped`, `Mapping.run_create_of_null`, `Mapping.run_create_of_refused` —
  the ends of a mapping that is made: memory, memory that cannot be held, and none.
* `Mapping.size_mod_of_create` — whole pages.
* `Mapping.calls_release` — what it takes to give a mapping back.
-/

namespace JitSupport

namespace Trace

/-- What a change of protection leaves in the trace when it is carried out. -/
def granted (first last : UInt64) (protection : Protection) : Trace :=
  [.call (.protect first (last - first) protection) none,
    .event (.protectionChanged first last protection)]

/-- What a change of protection leaves in the trace when it is turned down. -/
def denied (first last : UInt64) (protection : Protection) (reason : Errno) : Trace :=
  [.call (.protect first (last - first) protection) (some reason)]

variable (first last : UInt64) (protection : Protection) (reason : Errno) (page : Nat)

@[simp] theorem protection?_granted :
    (granted first last protection).protection? page =
      if Page.Touches first (last - first) page then some protection else none := by
  simp [granted, Effect.protection?, SystemCall.protection?]

@[simp] theorem protection?_denied :
    (denied first last protection reason).protection? page = none := rfl

@[simp] theorem calls_granted :
    (granted first last protection).calls = [(.protect first (last - first) protection, none)] :=
  rfl

@[simp] theorem calls_denied :
    (denied first last protection reason).calls =
      [(.protect first (last - first) protection, some reason)] := rfl

end Trace

namespace MemoryRange

/-- A part in order is the part between two addresses. -/
theorem part_of_le {r : MemoryRange} {first last : UInt64} (h : first ≤ last)
    (hlast : last ≤ r.len) :
    r.part first last =
      .ok ⟨r.start + first, r.start + last, add_le_add_of_le_len h hlast⟩ := by
  rw [part, dif_pos h, dif_pos hlast]

theorem part_of_lt {r : MemoryRange} {first last : UInt64} (h : last < first) :
    r.part first last = .error .partInverted := by
  rw [part, dif_neg (UInt64.not_le.mpr h)]

theorem part_of_len_lt {r : MemoryRange} {first last : UInt64} (h : first ≤ last)
    (hlast : r.len < last) : r.part first last = .error .partOutside := by
  rw [part, dif_pos h, dif_neg (UInt64.not_le.mpr hlast)]

/-- An offset into a range does not wrap round. -/
theorem toNat_start_add {r : MemoryRange} {offset : UInt64} (h : offset ≤ r.len) :
    (r.start + offset).toNat = r.start.toNat + offset.toNat := by
  have hlen := r.toNat_len
  have hstop := r.stop.toNat_lt
  have hle := r.start_le_stop
  rw [UInt64.le_iff_toNat_le] at h hle
  rw [UInt64.toNat_add, Nat.mod_eq_of_lt (by omega)]

theorem start_of_take? {r region : MemoryRange} {len : UInt64} (h : r.take? len = some region) :
    region.start = r.start := by
  unfold take? at h
  split at h
  next =>
    cases h
    rfl
  next => cases h

theorem len_of_take? {r region : MemoryRange} {len : UInt64} (h : r.take? len = some region) :
    region.len = len := by
  unfold take? at h
  split at h
  next hle =>
    cases h
    rw [← UInt64.toNat_inj, toNat_len]
    simp only [toNat_start_add hle]
    omega
  next => cases h

theorem isEmpty_iff_len {r : MemoryRange} : r.isEmpty ↔ r.len = 0 := by
  rw [isEmpty_iff, ← UInt64.toNat_inj, ← UInt64.toNat_inj, toNat_len, UInt64.toNat_zero]
  have hle := r.start_le_stop
  rw [UInt64.le_iff_toNat_le] at hle
  omega

end MemoryRange

namespace Mapping

variable {σ : Type}

/-- The part from `first` up to `last` lies in the mapping, is not empty, and starts
with a page. -/
structure HoldsPages (m : Mapping) (first last : UInt64) : Prop where
  /-- The part starts with a page. -/
  aligned : first % Page.size = 0
  /-- The part is not empty. -/
  lt : first < last
  /-- The part ends in the mapping. -/
  le_size : last ≤ m.size

/-- The mapping with bytes replaced from an offset on. -/
def replaced (m : Mapping) (offset : UInt64) (bytes : ByteString) : Mapping :=
  { m with cells := m.cells.write offset.toNat bytes }

theorem HoldsPages.replaced {m : Mapping} {first last : UInt64} (h : m.HoldsPages first last)
    (offset : UInt64) (bytes : ByteString) : (m.replaced offset bytes).HoldsPages first last :=
  ⟨h.aligned, h.lt, h.le_size⟩

/-! ### Contents -/

theorem slice_of_le {m : Mapping} {first last : UInt64} (h : first ≤ last)
    (hlast : last ≤ m.size) :
    m.slice first last = .ok (m.cells.read first.toNat (last.toNat - first.toNat)) := by
  rw [slice, MemoryRange.part_of_le h hlast]
  rfl

/-- Bytes are copied to a part of their own length. -/
theorem run_store {m : Mapping} {first last : UInt64} {bytes : ByteString} (h : first ≤ last)
    (hlast : last ≤ m.size) (hlen : bytes.length = (last - first).toNat) (s : σ) (k : Kernel) :
    m.store first last bytes s k =
      ⟨.ok (m.replaced first bytes), s, k, [.store first bytes]⟩ := by
  rw [store, MemoryRange.part_of_le h hlast, if_neg (not_not_intro hlen)]
  rfl

/-! ### Protection -/

section Stopped

variable {m : Mapping} {first last : UInt64} (protection : Protection) (s : σ) (k : Kernel)

theorem run_protect_of_inverted (h : last < first) :
    m.protect first last protection s k = ⟨.error (.violation .partInverted), s, k, []⟩ := by
  rw [protect, MemoryRange.part_of_lt h]
  rfl

theorem run_protect_of_outside (h : first ≤ last) (hlast : m.size < last) :
    m.protect first last protection s k = ⟨.error (.violation .partOutside), s, k, []⟩ := by
  rw [protect, MemoryRange.part_of_len_lt h hlast]
  rfl

theorem run_protect_of_unaligned (h : first ≤ last) (hlast : last ≤ m.size)
    (halign : first % Page.size ≠ 0) :
    m.protect first last protection s k =
      ⟨.error (.violation (.protectionUnaligned (first % Page.size))), s, k, []⟩ := by
  rw [protect, MemoryRange.part_of_le h hlast, if_pos halign]
  rfl

/-- There is nothing to ask the operating system for when a part is empty. -/
theorem run_protect_of_eq (h : first = last) (hlast : last ≤ m.size)
    (halign : first % Page.size = 0) :
    m.protect first last protection s k = ⟨.ok (), s, k, []⟩ := by
  rw [protect, MemoryRange.part_of_le (UInt64.le_of_eq h) hlast, if_neg (by simp [halign]),
    if_pos h]
  rfl

end Stopped

theorem run_protect {m : Mapping} {first last : UInt64} (h : m.HoldsPages first last)
    (protection : Protection) (s : σ) (k : Kernel) :
    m.protect first last protection s k =
      (Action.protect first (last - first) protection >>= fun () =>
        Action.report (.protectionChanged first last protection)) s k := by
  rw [protect, MemoryRange.part_of_le (UInt64.le_of_lt h.lt) h.le_size,
    if_neg (by simp [h.aligned]), if_neg (UInt64.ne_of_lt h.lt)]
  rfl

/-- The operating system carries a change of protection out. -/
theorem run_protect_of_granted {m : Mapping} {first last : UInt64} (h : m.HoldsPages first last)
    (protection : Protection) (s : σ) {k : Kernel} (hk : k.protect = none) :
    m.protect first last protection s k =
      ⟨.ok (), s, k.afterProtect, .granted first last protection⟩ := by
  have hcall : Action.protect first (last - first) protection s k =
      ⟨.ok (), s, k.afterProtect, [.call (.protect first (last - first) protection) none]⟩ := by
    simp only [Action.protect, hk]
  rw [run_protect h, Action.run_bind_of_ok hcall]
  rfl

/-- The operating system turns a change of protection down. -/
theorem run_protect_of_denied {m : Mapping} {first last : UInt64} (h : m.HoldsPages first last)
    (protection : Protection) (s : σ) {k : Kernel} {reason : Errno}
    (hk : k.protect = some reason) :
    m.protect first last protection s k =
      ⟨.error (.error (.virtualMemory reason)), s, k.afterProtect,
        .denied first last protection reason⟩ := by
  have hcall : Action.protect first (last - first) protection s k =
      ⟨.error (.error (.virtualMemory reason)), s, k.afterProtect,
        .denied first last protection reason⟩ := by
    simp only [Action.protect, hk, Trace.denied]
  rw [run_protect h, Action.run_bind_of_error hcall]

/-! ### Beginning -/

/-- A region that the operating system maps is the beginning of what was free. -/
theorem take?_of_map {k : Kernel} {length : UInt64} {region : MemoryRange}
    (h : k.map length = .ok region) : k.free.take? length = some region := by
  unfold Kernel.map at h
  split at h
  next => cases h
  next =>
    split at h
    next r htake =>
      cases h
      exact htake
    next => cases h

/-- A region that the operating system maps is as long as it was asked to be. -/
theorem len_of_map {k : Kernel} {length : UInt64} {region : MemoryRange}
    (h : k.map length = .ok region) : region.len = length :=
  MemoryRange.len_of_take? (take?_of_map h)

theorem start_of_map {k : Kernel} {length : UInt64} {region : MemoryRange}
    (h : k.map length = .ok region) : region.start = k.free.start :=
  MemoryRange.start_of_take? (take?_of_map h)

section Create

variable {size : UInt64} {k : Kernel} {region : MemoryRange} {reason : Errno}

theorem run_map_of_mapped (s : σ) (hmap : k.map size = .ok region) :
    Action.map size s k = ⟨.ok region, s, k.afterMap, [.call (.map size .readWrite) none]⟩ := by
  simp only [Action.map, hmap]

/-- Memory is made of a region that the operating system maps. -/
theorem run_create_of_mapped (halign : size % Page.size = 0) (hzero : size ≠ 0) (s : σ)
    (hmap : k.map size = .ok region) (hstart : region.start ≠ 0) :
    create size s k =
      ⟨.ok ⟨region, .zero⟩, s, k.afterMap,
        [.call (.map size .readWrite) none, .event (.mapped region.start size)]⟩ := by
  rw [create, if_neg (not_not_intro halign), if_neg hzero,
    Action.run_bind_of_ok (run_map_of_mapped s hmap), if_neg hstart]
  rfl

/-- No memory is made of a region at the null address, and the region is not given back. -/
theorem run_create_of_null (halign : size % Page.size = 0) (hzero : size ≠ 0) (s : σ)
    (hmap : k.map size = .ok region) (hstart : region.start = 0) :
    create size s k =
      ⟨.error (.error (.virtualMemory .outOfMemory)), s, k.afterMap,
        [.call (.map size .readWrite) none]⟩ := by
  rw [create, if_neg (not_not_intro halign), if_neg hzero,
    Action.run_bind_of_ok (run_map_of_mapped s hmap), if_pos hstart]
  rfl

/-- No memory is made when the operating system maps none. -/
theorem run_create_of_refused (halign : size % Page.size = 0) (hzero : size ≠ 0) (s : σ)
    (hmap : k.map size = .error reason) :
    create size s k =
      ⟨.error (.error (.virtualMemory reason)), s, k.afterMap,
        [.call (.map size .readWrite) (some reason)]⟩ := by
  have hcall : Action.map size s k =
      ⟨.error (.error (.virtualMemory reason)), s, k.afterMap,
        [.call (.map size .readWrite) (some reason)]⟩ := by
    simp only [Action.map, hmap]
  rw [create, if_neg (not_not_intro halign), if_neg hzero, Action.run_bind_of_error hcall]

end Create

/-- Memory that is made is a whole number of pages. -/
theorem size_mod_of_create {size : UInt64} {s : σ} {k : Kernel} {m : Mapping}
    (h : (create size s k).result = .ok m) : m.size % Page.size = 0 := by
  by_cases halign : size % Page.size = 0
  · by_cases hzero : size = 0
    · rw [create, if_neg (by simp [halign]), if_pos hzero] at h
      cases h
      rfl
    · cases hmap : k.map size with
      | ok region =>
        by_cases hstart : region.start = 0
        · rw [run_create_of_null halign hzero s hmap hstart] at h
          cases h
        · rw [run_create_of_mapped halign hzero s hmap hstart] at h
          cases h
          show region.len % Page.size = 0
          rw [len_of_map hmap, halign]
      | error reason =>
        rw [run_create_of_refused halign hzero s hmap] at h
        cases h
  · rw [create, if_pos halign] at h
    cases h

/-! ### End -/

/-- Giving a mapping back takes one call for all of it, or none if there is nothing. -/
theorem calls_release (m : Mapping) (s : σ) (k : Kernel) :
    (m.release s k).trace.calls = if m.isEmpty then [] else [(.unmap 0 m.size, k.unmap)] := by
  have hcall : Action.unmap 0 m.size s k =
      ⟨.ok k.unmap, s, k.afterUnmap, [.call (.unmap 0 m.size) k.unmap]⟩ := rfl
  rw [release]
  split
  next hempty => rfl
  next hempty =>
    rw [Action.run_bind_of_ok hcall]
    cases k.unmap <;> rfl

end Mapping

end JitSupport
