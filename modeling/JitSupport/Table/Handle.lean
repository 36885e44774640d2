import JitSupport.Text.Doc
import JitSupport.Text.Hex

/-!
# Module handles

A handle stands for a loaded module.  It is the address of something that belongs
to the module, is never looked behind, and is never the null address: zero is left
over to say that there is no handle.

## Main definitions

* `ModuleHandle` — an address that is not null.
* `ModuleHandle.ofAddress?`, `ModuleHandle.toAddress` — handles and plain addresses, where
  zero stands for none.
-/

namespace JitSupport

open Text

/-- The address that stands for a loaded module. -/
structure ModuleHandle where
  /-- The address. -/
  address : UInt64
  /-- The null address is no handle. -/
  address_ne_zero : address ≠ 0
  deriving DecidableEq, Repr

namespace ModuleHandle

/-- The handle at an address, or none for the null address. -/
def ofAddress? (address : UInt64) : Option ModuleHandle :=
  if h : address ≠ 0 then some ⟨address, h⟩ else none

/-- The address of a handle, or the null address for none. -/
def toAddress : Option ModuleHandle → UInt64
  | some h => h.address
  | none => 0

@[simp] theorem ofAddress?_zero : ofAddress? 0 = none := rfl

@[simp] theorem ofAddress?_address (h : ModuleHandle) : ofAddress? h.address = some h :=
  dif_pos h.address_ne_zero

@[simp] theorem ofAddress?_toAddress (h : Option ModuleHandle) : ofAddress? (toAddress h) = h := by
  cases h with
  | none => rfl
  | some h => exact ofAddress?_address h

@[simp] theorem toAddress_ofAddress? (address : UInt64) :
    toAddress (ofAddress? address) = address := by
  unfold ofAddress?
  split
  next h => rfl
  next h => exact (Decidable.not_not.mp h).symm

/-- An answer is the null address exactly if there is no handle to answer with. -/
theorem toAddress_eq_zero_iff {handle : Option ModuleHandle} :
    toAddress handle = 0 ↔ handle = none := by
  cases handle with
  | none => exact ⟨fun _ => rfl, fun _ => rfl⟩
  | some h => exact ⟨fun hzero => absurd hzero h.address_ne_zero, nofun⟩

theorem ofAddress?_eq_some_iff {address : UInt64} {handle : ModuleHandle} :
    ofAddress? address = some handle ↔ handle.address = address := by
  constructor
  · intro h
    rw [← toAddress_ofAddress? address, h]
    rfl
  · rintro rfl
    exact ofAddress?_address handle

theorem ofAddress?_eq_none_iff {address : UInt64} : ofAddress? address = none ↔ address = 0 := by
  rw [← toAddress_eq_zero_iff, toAddress_ofAddress?]

/-- The handle in words: its address, with all digits where there is room. -/
def doc (h : ModuleHandle) : Doc :=
  .wrapped "ModuleHandle" ⟨hex h.address, [paddedHex h.address]⟩

end ModuleHandle

end JitSupport
