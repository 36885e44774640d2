import JitSupport.ByteString
import JitSupport.Cache.Backend
import JitSupport.Event
import JitSupport.System.Kernel

/-!
# Actions

An action works on a state, may call the operating system, and leaves a trace of
everything that can be seen from outside, in order.  An action that fails keeps
what it did until then: its state, the verdicts it used up, and its trace.

## Main definitions

* `Effect`, `Trace` — what can be seen from outside, one by one and in order.
* `Outcome` — what an action comes to.
* `Action` — actions, a monad.
* `Action.attempt` — an action whose errors become results.
-/

namespace JitSupport

/-- Something that can be seen from outside. -/
inductive Effect
  /-- A call to the operating system and its fate. -/
  | call (c : SystemCall) (fate : Verdict)
  /-- An event. -/
  | event (e : Event)
  /-- Bytes copied to an offset of a mapping. -/
  | store (offset : UInt64) (bytes : ByteString)
  /-- Cache maintenance for the addresses from `start` up to `stop`. -/
  | flush (start stop : UInt64) (ops : List CacheOp)
  deriving DecidableEq, Repr

/-- What could be seen from outside, in order. -/
abbrev Trace := List Effect

namespace Trace

/-- The calls to the operating system. -/
def calls (t : Trace) : List (SystemCall × Verdict) :=
  t.filterMap fun
    | .call c fate => some (c, fate)
    | _ => none

/-- The events. -/
def events (t : Trace) : List Event :=
  t.filterMap fun
    | .event e => some e
    | _ => none

@[simp] theorem calls_nil : calls [] = [] := rfl

@[simp] theorem calls_append (t u : Trace) : calls (t ++ u) = t.calls ++ u.calls :=
  List.filterMap_append

@[simp] theorem events_append (t u : Trace) : events (t ++ u) = t.events ++ u.events :=
  List.filterMap_append

end Trace

/-- What an action comes to. -/
structure Outcome (σ α : Type) where
  /-- The result, or the reason why there is none. -/
  result : Except Failure α
  /-- The state afterwards. -/
  state : σ
  /-- The operating system afterwards. -/
  kernel : Kernel
  /-- What could be seen meanwhile. -/
  trace : Trace

/-- Something to do from a state, with the help of the operating system. -/
def Action (σ α : Type) : Type := σ → Kernel → Outcome σ α

namespace Action

variable {σ α β : Type}

/-- Does one action and then the next; an action that fails is the last one. -/
def andThen (x : Action σ α) (f : α → Action σ β) : Action σ β := fun s k =>
  let first := x s k
  match first.result with
  | .ok a =>
    let second := f a first.state first.kernel
    { second with trace := first.trace ++ second.trace }
  | .error failure => ⟨.error failure, first.state, first.kernel, first.trace⟩

instance : Monad (Action σ) where
  pure a := fun s k => ⟨.ok a, s, k, []⟩
  bind := andThen

instance : MonadStateOf σ (Action σ) where
  get := fun s k => ⟨.ok s, s, k, []⟩
  set := fun s _ k => ⟨.ok ⟨⟩, s, k, []⟩
  modifyGet := fun f s k => ⟨.ok (f s).1, (f s).2, k, []⟩

/-- Leaves an entry in the trace. -/
def emit (e : Effect) : Action σ Unit := fun s k => ⟨.ok (), s, k, [e]⟩

/-- Reports an event. -/
def report (e : Event) : Action σ Unit := emit (.event e)

/-- Gives up. -/
def fail (failure : Failure) : Action σ α := fun s k => ⟨.error failure, s, k, []⟩

/-- Turns the request down. -/
def refuse (e : Error) : Action σ α := fail (.error e)

/-- Stops at a broken precondition. -/
def stop (v : Violation) : Action σ α := fail (.violation v)

/-- Makes an error a result.  A broken precondition stays what it is. -/
def attempt (x : Action σ α) : Action σ (Except Error α) := fun s k =>
  let o := x s k
  match o.result with
  | .ok a => { o with result := .ok (.ok a) }
  | .error (.error e) => { o with result := .ok (.error e) }
  | .error (.violation v) => { o with result := .error (.violation v) }

/-- A second try after an error. -/
def twice (x : Action σ α) : Action σ α := do
  match ← attempt x with
  | .ok a => pure a
  | .error _ => x

/-- The result of a computation that may fail. -/
def ofExcept : Except Failure α → Action σ α
  | .ok a => pure a
  | .error failure => fail failure

instance : MonadLift (Except Failure) (Action σ) := ⟨ofExcept⟩

instance : MonadLift (Except Error) (Action σ) := ⟨fun x => ofExcept (x.mapError .error)⟩

instance : MonadLift (Except Violation) (Action σ) := ⟨fun x => ofExcept (x.mapError .violation)⟩

/-! ### Calls -/

/-- Maps fresh memory for reading and writing. -/
def map (length : UInt64) : Action σ MemoryRange := fun s k =>
  let call := SystemCall.map length .readWrite
  match k.map length with
  | .ok region => ⟨.ok region, s, k.afterMap, [.call call none]⟩
  | .error reason =>
    ⟨.error (.error (.virtualMemory reason)), s, k.afterMap, [.call call (some reason)]⟩

/-- Changes the protection of a part of a mapping. -/
def protect (offset length : UInt64) (protection : Protection) : Action σ Unit := fun s k =>
  let call := SystemCall.protect offset length protection
  match k.protect with
  | none => ⟨.ok (), s, k.afterProtect, [.call call none]⟩
  | some reason =>
    ⟨.error (.error (.virtualMemory reason)), s, k.afterProtect, [.call call (some reason)]⟩

/-- Gives memory back, and tells why that failed if it did. -/
def unmap (offset length : UInt64) : Action σ Verdict := fun s k =>
  ⟨.ok k.unmap, s, k.afterUnmap, [.call (.unmap offset length) k.unmap]⟩

/-! ### Equations -/

@[simp] theorem run_pure (a : α) (s : σ) (k : Kernel) :
    (pure a : Action σ α) s k = ⟨.ok a, s, k, []⟩ := rfl

theorem run_bind (x : Action σ α) (f : α → Action σ β) (s : σ) (k : Kernel) :
    (x >>= f) s k =
      match (x s k).result with
      | .ok a =>
        { f a (x s k).state (x s k).kernel with
          trace := (x s k).trace ++ (f a (x s k).state (x s k).kernel).trace }
      | .error failure => ⟨.error failure, (x s k).state, (x s k).kernel, (x s k).trace⟩ := rfl

theorem run_bind_of_ok {x : Action σ α} {s s' : σ} {k k' : Kernel} {a : α} {t : Trace}
    (h : x s k = ⟨.ok a, s', k', t⟩) (f : α → Action σ β) :
    (x >>= f) s k = { f a s' k' with trace := t ++ (f a s' k').trace } := by
  rw [run_bind, h]

theorem run_bind_of_error {x : Action σ α} {s s' : σ} {k k' : Kernel} {e : Failure}
    {t : Trace} (h : x s k = ⟨.error e, s', k', t⟩) (f : α → Action σ β) :
    (x >>= f) s k = ⟨.error e, s', k', t⟩ := by
  rw [run_bind, h]

theorem run_attempt_of_ok {x : Action σ α} {s s' : σ} {k k' : Kernel} {a : α} {t : Trace}
    (h : x s k = ⟨.ok a, s', k', t⟩) : attempt x s k = ⟨.ok (.ok a), s', k', t⟩ := by
  simp only [attempt, h]

theorem run_attempt_of_error {x : Action σ α} {s s' : σ} {k k' : Kernel} {e : Error}
    {t : Trace} (h : x s k = ⟨.error (.error e), s', k', t⟩) :
    attempt x s k = ⟨.ok (.error e), s', k', t⟩ := by
  simp only [attempt, h]

theorem run_twice_of_ok {x : Action σ α} {s s' : σ} {k k' : Kernel} {a : α} {t : Trace}
    (h : x s k = ⟨.ok a, s', k', t⟩) : twice x s k = ⟨.ok a, s', k', t⟩ := by
  rw [twice, run_bind_of_ok (run_attempt_of_ok h)]
  simp

theorem run_twice_of_error {x : Action σ α} {s s' : σ} {k k' : Kernel} {e : Error}
    {t : Trace} (h : x s k = ⟨.error (.error e), s', k', t⟩) :
    twice x s k = { x s' k' with trace := t ++ (x s' k').trace } := by
  rw [twice, run_bind_of_ok (run_attempt_of_error h)]

@[simp] theorem run_get (s : σ) (k : Kernel) : (get : Action σ σ) s k = ⟨.ok s, s, k, []⟩ := rfl

@[simp] theorem run_set (s s' : σ) (k : Kernel) :
    (set s' : Action σ PUnit) s k = ⟨.ok ⟨⟩, s', k, []⟩ := rfl

@[simp] theorem run_emit (e : Effect) (s : σ) (k : Kernel) :
    emit e s k = ⟨.ok (), s, k, [e]⟩ := rfl

@[simp] theorem run_report (e : Event) (s : σ) (k : Kernel) :
    report e s k = ⟨.ok (), s, k, [.event e]⟩ := rfl

@[simp] theorem run_fail (failure : Failure) (s : σ) (k : Kernel) :
    (fail failure : Action σ α) s k = ⟨.error failure, s, k, []⟩ := rfl

@[simp] theorem run_refuse (e : Error) (s : σ) (k : Kernel) :
    (refuse e : Action σ α) s k = ⟨.error (.error e), s, k, []⟩ := rfl

@[simp] theorem run_stop (v : Violation) (s : σ) (k : Kernel) :
    (stop v : Action σ α) s k = ⟨.error (.violation v), s, k, []⟩ := rfl

@[simp] theorem run_ofExcept (x : Except Failure α) (s : σ) (k : Kernel) :
    (ofExcept x : Action σ α) s k = ⟨x, s, k, []⟩ := by cases x <;> rfl

@[simp] theorem run_liftM_failure (x : Except Failure α) (s : σ) (k : Kernel) :
    (liftM x : Action σ α) s k = ⟨x, s, k, []⟩ := run_ofExcept x s k

@[simp] theorem run_liftM_error (x : Except Error α) (s : σ) (k : Kernel) :
    (liftM x : Action σ α) s k = ⟨x.mapError .error, s, k, []⟩ := run_ofExcept _ s k

@[simp] theorem run_liftM_violation (x : Except Violation α) (s : σ) (k : Kernel) :
    (liftM x : Action σ α) s k = ⟨x.mapError .violation, s, k, []⟩ := run_ofExcept _ s k

end Action

end JitSupport
