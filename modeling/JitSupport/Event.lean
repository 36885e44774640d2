import JitSupport.Protection
import JitSupport.Text.Address

/-!
# Diagnostics

Operations report what they do as events.  An event has a level, a message that
names its kind, and named fields.

## Main definitions

* `Event` — the kinds of events with what they tell.
* `Event.level`, `Event.message`, `Event.fields` — the three parts of an event.
* `Logged` — a value together with the events on the way to it.
-/

namespace JitSupport

open Text

/-- How urgent an event is. -/
inductive Level
  | trace
  | debug
  | warning
  | error
  deriving DecidableEq, Repr

/-- The name of a level. -/
def Level.name : Level → String
  | trace => "TRACE"
  | debug => "DEBUG"
  | warning => "WARN"
  | error => "ERROR"

/-- Something that happened on the way. -/
inductive Event
  /-- A key was looked up, and was there or not. -/
  | resolved (key : UInt64) (hit : Bool)
  /-- A key was to be looked up in no table. -/
  | tableMissing (key : UInt64)
  /-- A flush was asked for with its two ends in the wrong order. -/
  | flushInverted (start stop : UInt64)
  /-- A range was made visible to instruction fetch. -/
  | invalidated (range : MemoryRange) (flushes : Bool)
  /-- The pages that a range touches were found. -/
  | pagesInvalidated (range : MemoryRange)
  /-- Memory was mapped. -/
  | mapped (address size : UInt64)
  /-- The bytes from `first` up to `last` of a mapping got another protection. -/
  | protectionChanged (first last : UInt64) (protection : Protection)
  /-- Memory without code is about to be published. -/
  | nothingToPublish
  /-- Code was published. -/
  | published (code : MemoryRange)
  /-- Published code was changed in place. -/
  | patched (offset : UInt64) (len : Nat)
  /-- Pages that were opened for a patch could not be closed again. -/
  | protectionLost (reason : Error) (pages : MemoryRange)
  /-- Memory could not be given back. -/
  | unmapFailed (reason : Errno)
  deriving DecidableEq, Repr

namespace Event

/-- How urgent the event is. -/
def level : Event → Level
  | resolved .. | tableMissing .. | invalidated .. | pagesInvalidated ..
  | protectionChanged .. => .trace
  | mapped .. | published .. | patched .. => .debug
  | flushInverted .. | nothingToPublish => .warning
  | protectionLost .. | unmapFailed .. => .error

/-- The kind of the event, in words. -/
def message : Event → String
  | resolved .. => "resolve module handle"
  | tableMissing .. => "get_module_handle called without a table"
  | flushInverted .. => "flush_cache called with an inverted range"
  | invalidated .. => "invalidate icache"
  | pagesInvalidated .. => "invalidate icache pages"
  | mapped .. => "mapped code memory"
  | protectionChanged .. => "changed code memory protection"
  | nothingToPublish => "code memory has no code to publish"
  | published .. => "published code memory"
  | patched .. => "patched code memory"
  | protectionLost .. => "failed to restore code memory protection"
  | unmapFailed .. => "failed to unmap code memory"

/-- What the event tells, by name.  Addresses follow the given style; offsets into a
mapping are not addresses. -/
def fields (style : AddressStyle) : Event → List (String × String)
  | resolved key hit => [("key", Decimal.encode key), ("hit", toString hit)]
  | tableMissing key => [("key", Decimal.encode key)]
  | flushInverted start stop => [("begin", style.address start), ("end", style.address stop)]
  | invalidated range flushes => [("range", style.range range), ("flushes", toString flushes)]
  | pagesInvalidated range => [("range", style.range range)]
  | mapped address size => [("ptr", style.address address), ("size", Decimal.encode size)]
  | protectionChanged first last protection =>
    [("range", Decimal.encode first ++ ".." ++ Decimal.encode last), ("flags", protection.text)]
  | nothingToPublish => []
  | published code => [("code", style.range code)]
  | patched offset len => [("offset", Decimal.encode offset), ("len", toString len)]
  | protectionLost reason pages =>
    [("err", reason.message), ("pages", AddressStyle.absolute.range pages)]
  | unmapFailed reason => [("err", reason.message)]

end Event

/-! ### Values with events -/

/-- A value together with the events on the way to it. -/
structure Logged (α : Type) where
  /-- The value. -/
  value : α
  /-- The events, in order. -/
  events : List Event

namespace Logged

instance : Monad Logged where
  pure a := ⟨a, []⟩
  bind x f := ⟨(f x.value).value, x.events ++ (f x.value).events⟩

/-- Reports one event. -/
def report (e : Event) : Logged Unit := ⟨(), [e]⟩

@[simp] theorem value_pure {α : Type} (a : α) : (pure a : Logged α).value = a := rfl

@[simp] theorem events_pure {α : Type} (a : α) : (pure a : Logged α).events = [] := rfl

@[simp] theorem value_bind {α β : Type} (x : Logged α) (f : α → Logged β) :
    (x >>= f).value = (f x.value).value := rfl

@[simp] theorem events_bind {α β : Type} (x : Logged α) (f : α → Logged β) :
    (x >>= f).events = x.events ++ (f x.value).events := rfl

@[simp] theorem value_map {α β : Type} (f : α → β) (x : Logged α) :
    (f <$> x).value = f x.value := rfl

@[simp] theorem events_map {α β : Type} (f : α → β) (x : Logged α) :
    (f <$> x).events = x.events :=
  List.append_nil _

@[simp] theorem events_report (e : Event) : (report e).events = [e] := rfl

end Logged

end JitSupport
