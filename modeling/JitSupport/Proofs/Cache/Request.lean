import JitSupport.Proofs.Cache.Order
import JitSupport.Proofs.Invalidation

/-!
# Requests and the platform

A platform asks for little: a range must not end before it starts.  What it gets is more than
that.  There are four ways to ask for code to be made visible, each with a guard of its own, and
all of them call the platform at most once, with a range that has at least one address and holds
every address that was asked for.  So no platform ever computes a length below zero or goes over
lines for nothing, and each reaches all that it was to reach.

## Main definitions

* `MemoryRange.Obtained` — the ranges that can be made.
* `Cache.Request` — the ways to ask for code to be made visible.
* `Backend.Reaches` — what a platform has to do for an address.
* `Cache.Served` — a request that is served as the platform wants it.

## Main results

* `MemoryRange.ordered` — the ends of every range are in order.
* `Backend.reaches_of_flush` — a platform reaches all addresses of a range.
* `Cache.Request.served` — every request is served.
* `Cache.requests_served` — **ranges are in order, and requests meet the contract of every
  platform.**
-/

namespace JitSupport

/-! ### Ranges -/

namespace MemoryRange

/-- The ranges that can be made. -/
inductive Obtained : MemoryRange → Prop
  /-- Between two addresses, -/
  | ofBounds {start stop : UInt64} {r : MemoryRange} (h : ofBounds start stop = .ok r) : Obtained r
  /-- by a start and a length, -/
  | ofLength {start len : UInt64} {r : MemoryRange} (h : ofLength start len = .ok r) : Obtained r
  /-- as a part of memory that is there, -/
  | part {memory r : MemoryRange} {first last : UInt64} (h : memory.part first last = .ok r) :
    Obtained r
  /-- and by widening one of them to pages. -/
  | pageAligned {r widened : MemoryRange} {pageSize : UInt64} (hr : Obtained r)
    (h : r.pageAligned pageSize = .ok widened) : Obtained widened

/-- The ends of a range are in order, so that its length is how far they are apart. -/
structure Ordered (r : MemoryRange) : Prop where
  /-- The range does not end before it starts. -/
  start_le_stop : r.start ≤ r.stop
  /-- Its length leads from one end to the other. -/
  start_add_len : r.start.toNat + r.len.toNat = r.stop.toNat
  /-- It is empty exactly if it has no length. -/
  isEmpty_iff_len : r.isEmpty = true ↔ r.len = 0

/-- The ends of every range are in order.  Each way to make a range has to prove the order before
it has one, so that nothing need be known here of how `r` was made. -/
theorem ordered (r : MemoryRange) : r.Ordered := by
  have hlen := r.toNat_len
  have hle := UInt64.le_iff_toNat_le.mp r.start_le_stop
  refine ⟨r.start_le_stop, by omega, ?_⟩
  rw [isEmpty_iff, ← UInt64.toNat_inj, ← UInt64.toNat_inj, UInt64.toNat_zero]
  omega

end MemoryRange

/-! ### Platforms -/

/-- The steps of a platform reach an address. -/
def Backend.Reaches (backend : Backend) (ops : List CacheOp) (x : UInt64) : Prop :=
  match backend with
  | .coherent => True
  | .aarch64 type =>
    (type.bits.toNat.testBit 28 = false → type.Cleans ops x) ∧
      (type.bits.toNat.testBit 29 = false → type.Discards ops x)
  | .apple =>
    ∃ start len, ops = [.discardRange start len] ∧ start.toNat ≤ x.toNat ∧
      x.toNat < start.toNat + len.toNat
  | .clearCache => ∃ start stop, ops = [.clearRange start stop] ∧ start ≤ x ∧ x < stop

/-- A platform reaches all addresses of a range. -/
theorem Backend.reaches_of_flush {backend : Backend} {start stop x : UInt64}
    {ops : List CacheOp} (h : backend.flush start stop = .ok ops) (hstart : start ≤ x)
    (hstop : x < stop) : backend.Reaches ops x := by
  cases backend with
  | coherent => trivial
  | aarch64 type =>
    exact ⟨fun hbit => CacheType.cleans_of_flush h hbit hstart hstop,
      fun hbit => CacheType.discards_of_flush h hbit hstart hstop⟩
  | apple =>
    have hle : start ≤ stop := UInt64.le_of_lt (UInt64.lt_of_le_of_lt hstart hstop)
    rw [flush, if_pos hle] at h
    cases h
    refine ⟨start, stop - start, rfl, UInt64.le_iff_toNat_le.mp hstart, ?_⟩
    rw [UInt64.toNat_sub_of_le _ _ hle]
    rw [UInt64.le_iff_toNat_le] at hle
    rw [UInt64.lt_iff_toNat_lt] at hstop
    omega
  | clearCache =>
    cases h
    exact ⟨start, stop, rfl, hstart, hstop⟩

namespace Trace

/-- The calls to the platform, with the two ends and the steps of each. -/
def flushes (t : Trace) : List (UInt64 × UInt64 × List CacheOp) :=
  t.filterMap fun
    | .flush start stop ops => some (start, stop, ops)
    | _ => none

theorem flushes_append (t u : Trace) : flushes (t ++ u) = t.flushes ++ u.flushes :=
  List.filterMap_append

theorem flushes_invalidation (backend : Backend) (range : MemoryRange) :
    flushes (.invalidation backend range) =
      if range.isEmpty then [] else [(range.start, range.stop, backend.steps range)] := by
  unfold invalidation
  split
  · rfl
  · rfl

end Trace

namespace Cache

/-! ### Requests -/

/-- The ways to ask for code to be made visible. -/
inductive Request
  /-- The code in a range. -/
  | range (r : MemoryRange)
  /-- The code between two addresses in order. -/
  | between (start stop : UInt64)
  /-- The code in all pages that some bytes touch. -/
  | pages (start len : UInt64)
  /-- The code between two addresses from elsewhere, in whatever order they are. -/
  | foreign (start stop : UInt64)
  deriving DecidableEq, Repr

variable {σ : Type} {backend : Backend} {request : Request} {s : σ} {k : Kernel}

namespace Request

/-- Makes the code visible that a request asks for. -/
def perform (backend : Backend) : Request → Action σ Unit
  | range r => invalidate backend r
  | between start stop => invalidateBetween backend start stop
  | pages start len => invalidatePages backend start len
  | foreign start stop => flush backend start stop

/-- What the caller has to see to. -/
def Allowed : Request → Prop
  | range r => r.Obtained
  | between start stop => start ≤ stop
  | pages .. | foreign .. => True

/-- The addresses that a request asks for. -/
def Asks (x : UInt64) : Request → Prop
  | range r => x ∈ r
  | between start stop | foreign start stop => start ≤ x ∧ x < stop
  | pages start len => start ≤ x ∧ x.toNat < start.toNat + len.toNat

end Request

/-- A request that is served as the platform wants it. -/
structure Served (backend : Backend) (request : Request) (s : σ) (k : Kernel)
    (o : Outcome σ Unit) : Prop where
  /-- No precondition is broken. -/
  not_violation : ∀ v, o.result ≠ .error (.violation v)
  /-- The platform is called at most once, -/
  length_flushes_le_one : o.trace.flushes.length ≤ 1
  /-- with ends that are in order and apart, which it accepts. -/
  flush_eq : ∀ start stop ops, (start, stop, ops) ∈ o.trace.flushes →
    start < stop ∧ backend.flush start stop = .ok ops
  /-- It is called exactly if the request is met and asks for an address at all. -/
  flushes_ne_nil_iff : o.trace.flushes ≠ [] ↔ o.result = .ok () ∧ ∃ x, request.Asks x
  /-- The platform then reaches every address that the request asks for. -/
  reaches : ∀ start stop ops, (start, stop, ops) ∈ o.trace.flushes →
    ∀ x, request.Asks x → backend.Reaches ops x
  /-- Only pages behind the address space are turned down, and then nothing is done. -/
  refused : o.result ≠ .ok () → o.trace = [] ∧ ∃ start len, request = .pages start len ∧
    o.result = .error (.error (.addressOverflow start len)) ∧
    UInt64.size ≤ start.toNat + len.toNat + (Page.size.toNat - 1)
  /-- Two ends from elsewhere in the wrong order are warned of, and nothing else is done. -/
  inverted : ∀ start stop, request = .foreign start stop → stop < start →
    o.result = .ok () ∧ o.trace = [.event (.flushInverted start stop)] ∧
      o.trace.events.map Event.level = [.warning]
  /-- Nothing else changes. -/
  unchanged : o.state = s ∧ o.kernel = k

/-- Making a range visible serves a request for addresses of the range. -/
theorem served_of_invalidation {range : MemoryRange} (before : Trace)
    (hbefore : before.flushes = []) (hasks : ∀ x, request.Asks x → x ∈ range)
    (hsome : range.isEmpty = false → ∃ x, request.Asks x)
    (horder : ∀ start stop, request = .foreign start stop → start ≤ stop) :
    Served backend request s k ⟨.ok (), s, k, before ++ .invalidation backend range⟩ := by
  have hflushes : Trace.flushes (before ++ .invalidation backend range) =
      if range.isEmpty then [] else [(range.start, range.stop, backend.steps range)] := by
    rw [Trace.flushes_append, hbefore, Trace.flushes_invalidation]
    rfl
  have hmem : ∀ start stop ops,
      (start, stop, ops) ∈ Trace.flushes (before ++ .invalidation backend range) →
        range.isEmpty = false ∧
          (start, stop, ops) = (range.start, range.stop, backend.steps range) := by
    intro start stop ops hmem
    rw [hflushes] at hmem
    cases hempty : range.isEmpty with
    | true => simp [hempty] at hmem
    | false => exact ⟨rfl, by simpa [hempty] using hmem⟩
  constructor
  case not_violation => exact nofun
  case length_flushes_le_one =>
    rw [hflushes]
    split
    · exact Nat.zero_le 1
    · exact Nat.le_refl 1
  case flush_eq =>
    intro start stop ops h
    obtain ⟨hempty, heq⟩ := hmem start stop ops h
    cases heq
    exact ⟨MemoryRange.start_lt_stop_of_isEmpty_eq_false hempty, backend.flush_eq_steps range⟩
  case flushes_ne_nil_iff =>
    rw [hflushes]
    cases hempty : range.isEmpty with
    | true =>
      simp only [if_true, ne_eq, not_true_eq_false, true_and, false_iff, not_exists]
      exact fun x hx => MemoryRange.not_mem_of_isEmpty hempty x (hasks x hx)
    | false => simpa using hsome hempty
  case reaches =>
    intro start stop ops h x hx
    obtain ⟨-, heq⟩ := hmem start stop ops h
    cases heq
    obtain ⟨hfirst, hlast⟩ := MemoryRange.mem_def.mp (hasks x hx)
    exact Backend.reaches_of_flush (backend.flush_eq_steps range) hfirst hlast
  case refused => exact fun hresult => absurd rfl hresult
  case inverted =>
    exact fun start stop hrequest hlt =>
      absurd (horder start stop hrequest) (UInt64.not_le.mpr hlt)
  case unchanged => exact ⟨rfl, rfl⟩

/-- Pages behind the address space are turned down. -/
theorem served_of_overflow {start len : UInt64}
    (h : UInt64.size ≤ start.toNat + len.toNat + (Page.size.toNat - 1)) :
    Served backend (.pages start len) s k
      ⟨.error (.error (.addressOverflow start len)), s, k, []⟩ where
  not_violation := nofun
  length_flushes_le_one := Nat.zero_le 1
  flush_eq := nofun
  flushes_ne_nil_iff := ⟨fun h => absurd rfl h, fun h => nomatch h.1⟩
  reaches := nofun
  refused _ := ⟨rfl, start, len, rfl, rfl, h⟩
  inverted := nofun
  unchanged := ⟨rfl, rfl⟩

/-- Two ends from elsewhere in the wrong order are only warned of. -/
theorem served_of_inverted {start stop : UInt64} (h : stop < start) :
    Served backend (.foreign start stop) s k
      ⟨.ok (), s, k, [.event (.flushInverted start stop)]⟩ where
  not_violation := nofun
  length_flushes_le_one := Nat.zero_le 1
  flush_eq := nofun
  flushes_ne_nil_iff := by
    refine ⟨fun h => absurd rfl h, ?_⟩
    rintro ⟨-, x, hfirst, hlast⟩
    exact absurd (UInt64.lt_trans hlast h) (UInt64.not_lt.mpr hfirst)
  reaches := nofun
  refused hresult := absurd rfl hresult
  inverted := by
    rintro _ _ hrequest -
    cases hrequest
    exact ⟨rfl, rfl, rfl⟩
  unchanged := ⟨rfl, rfl⟩

/-- Two addresses in order serve a request for the addresses between them. -/
theorem served_between {start stop : UInt64} (h : start ≤ stop)
    (hasks : ∀ x, request.Asks x ↔ start ≤ x ∧ x < stop)
    (horder : ∀ first last, request = .foreign first last → first ≤ last) :
    Served backend request s k (invalidateBetween backend start stop s k) := by
  rw [invalidateBetween, dif_pos h, run_invalidate]
  refine served_of_invalidation [] rfl (fun x hx => (hasks x).mp hx) ?_ horder
  intro hne
  obtain ⟨x, hx⟩ := MemoryRange.exists_mem_of_isEmpty_eq_false hne
  exact ⟨x, (hasks x).mpr hx⟩

/-- The pages of some bytes serve a request for the bytes, unless they lie behind the address
space. -/
theorem served_pages (backend : Backend) (start len : UInt64) (s : σ) (k : Kernel) :
    Served backend (.pages start len) s k (invalidatePages backend start len s k) := by
  rcases touchedPages_ok_or_overflow start len with ⟨pages, hpages⟩ | herror
  · obtain ⟨hholds, hpos⟩ := touchedPages_spec hpages
    rw [run_invalidatePages_of_ok hpages]
    refine served_of_invalidation [.event (.pagesInvalidated pages)] rfl
      (fun x hx => hholds x hx.1 hx.2) ?_ nofun
    intro hne
    have hlen := hpos hne
    exact ⟨start, UInt64.le_refl _, by omega⟩
  · rw [run_invalidatePages_of_error herror]
    exact served_of_overflow (overflow_of_touchedPages herror)

/-- Every request is served. -/
theorem Request.served (hallowed : request.Allowed) :
    Served backend request s k (request.perform backend s k) := by
  cases request with
  | range r =>
    rw [perform, run_invalidate]
    exact served_of_invalidation [] rfl (fun x hx => hx)
      MemoryRange.exists_mem_of_isEmpty_eq_false nofun
  | between start stop => exact served_between hallowed (fun _ => Iff.rfl) nofun
  | pages start len => exact served_pages backend start len s k
  | foreign start stop =>
    rw [perform, flush]
    split
    next hlt => exact served_of_inverted hlt
    next hle =>
      have horder : start ≤ stop := UInt64.not_lt.mp hle
      refine served_between horder (fun _ => Iff.rfl) ?_
      intro first last hrequest
      cases hrequest
      exact horder

/-- **Requests meet the contract of every platform.**  However a range is made, its ends are in
order, so that its length never goes below zero.  However code is asked to be made visible, no
precondition of the platform is broken, it is called at most once and only for a range that has
an address, and it reaches every address that was asked for. -/
theorem requests_served (backend : Backend) :
    (∀ r : MemoryRange, r.Obtained → r.Ordered) ∧
      ∀ {σ : Type} (request : Request) (s : σ) (k : Kernel), request.Allowed →
        Served backend request s k (request.perform backend s k) :=
  ⟨fun r _ => r.ordered, fun _ _ _ hallowed => Request.served hallowed⟩

/-- The two pages that some bytes across their border touch. -/
def bordered : MemoryRange := ⟨0x1000, 0x3000, by decide⟩

/-- A processor whose lines have sixty-four bytes, and whose caches are not coherent. -/
def sixtyFourBytes : Backend := .aarch64 ⟨0x8444C004⟩

/-- Two pages that were found by widening are made visible line by line. -/
theorem bordered_served :
    let k : Kernel := ⟨bordered, [], [], []⟩
    let o := (Request.range bordered).perform sixtyFourBytes () k
    bordered.Obtained ∧ bordered.Ordered ∧ (Request.range bordered).Asks 0x2FFF ∧
      Served sixtyFourBytes (.range bordered) () k o ∧
        ∃ start stop ops, (start, stop, ops) ∈ o.trace.flushes ∧
          sixtyFourBytes.Reaches ops 0x2FFF := by
  intro k o
  have hbytes : MemoryRange.ofLength 0x1FFE 4 = .ok ⟨0x1FFE, 0x2002, by decide⟩ := rfl
  have hpages : MemoryRange.pageAligned ⟨0x1FFE, 0x2002, by decide⟩ Page.size = .ok bordered := rfl
  have hobtained : bordered.Obtained := .pageAligned (.ofLength hbytes) hpages
  obtain ⟨hordered, hserved⟩ := requests_served sixtyFourBytes
  have hasks : (Request.range bordered).Asks 0x2FFF := ⟨by decide, by decide⟩
  have hthis := hserved (.range bordered) () k hobtained
  refine ⟨hobtained, hordered bordered hobtained, hasks, hthis, ?_⟩
  obtain ⟨⟨start, stop, ops⟩, hmem⟩ :=
    List.exists_mem_of_ne_nil _ (hthis.flushes_ne_nil_iff.mpr ⟨rfl, 0x2FFF, hasks⟩)
  exact ⟨start, stop, ops, hmem, hthis.reaches start stop ops hmem 0x2FFF hasks⟩

end Cache

end JitSupport
