/-!
# Strings of bytes

A string of bytes is kept as runs.  A run is some bytes over and over, so that a long
stretch of equal bytes takes no more room than a short one.

## Main definitions

* `ByteString` — runs, one after another.
* `ByteString.toList` — the bytes they stand for.
* `ByteString.repeated`, `ByteString.ofList`, `ByteString.fill` — strings of a single run.
* `ByteString.append`, `ByteString.take`, `ByteString.drop` — joining and cutting.
* `ByteString.rightpad` — a string made longer by a byte.

## Main results

* `ByteString.toList_append`, `ByteString.toList_take`, `ByteString.toList_drop` — strings
  are joined and cut as the lists of their bytes are.
-/

namespace JitSupport

/-- A string of bytes, run by run. -/
inductive ByteString
  /-- No bytes. -/
  | empty
  /-- Some bytes over and over, and what follows them. -/
  | run (pattern : List UInt8) (times : Nat) (rest : ByteString)
  deriving DecidableEq, Repr

namespace ByteString

/-- The bytes, one by one. -/
def toList : ByteString → List UInt8
  | empty => []
  | run pattern times rest => (List.replicate times pattern).flatten ++ rest.toList

/-- The number of bytes. -/
def length : ByteString → Nat
  | empty => 0
  | run pattern times rest => times * pattern.length + rest.length

@[simp] theorem toList_empty : empty.toList = [] := rfl

@[simp] theorem toList_run (pattern : List UInt8) (times : Nat) (rest : ByteString) :
    (run pattern times rest).toList = (List.replicate times pattern).flatten ++ rest.toList := rfl

@[simp] theorem length_toList (s : ByteString) : s.toList.length = s.length := by
  induction s with
  | empty => rfl
  | run pattern times rest ih => simp [length, ih]

/-- Whether there are no bytes. -/
def isEmpty (s : ByteString) : Bool := s.length == 0

theorem isEmpty_iff {s : ByteString} : s.isEmpty = true ↔ s.toList = [] := by
  rw [isEmpty, beq_iff_eq, ← length_toList, List.length_eq_zero_iff]

/-! ### Single runs -/

/-- A string with a run put before it; a run without bytes is left out. -/
def prepend (pattern : List UInt8) (times : Nat) (rest : ByteString) : ByteString :=
  if pattern = [] ∨ times = 0 then rest else run pattern times rest

@[simp] theorem toList_prepend (pattern : List UInt8) (times : Nat) (rest : ByteString) :
    (prepend pattern times rest).toList =
      (List.replicate times pattern).flatten ++ rest.toList := by
  rw [prepend]
  split
  next h =>
    rcases h with rfl | rfl
    · simp
    · rfl
  next h => rfl

/-- Some bytes over and over. -/
def repeated (pattern : List UInt8) (times : Nat) : ByteString := prepend pattern times empty

/-- Bytes given one by one. -/
def ofList (bytes : List UInt8) : ByteString := repeated bytes 1

/-- The same byte `count` times. -/
def fill (count : Nat) (byte : UInt8) : ByteString := repeated [byte] count

@[simp] theorem toList_repeated (pattern : List UInt8) (times : Nat) :
    (repeated pattern times).toList = (List.replicate times pattern).flatten := by
  simp [repeated]

@[simp] theorem toList_ofList (bytes : List UInt8) : (ofList bytes).toList = bytes := by
  simp [ofList]

@[simp] theorem toList_fill (count : Nat) (byte : UInt8) :
    (fill count byte).toList = List.replicate count byte := by
  simp [fill]

/-! ### Joining and cutting -/

/-- One string after another. -/
def append : ByteString → ByteString → ByteString
  | empty, t => t
  | run pattern times rest, t => run pattern times (rest.append t)

instance : Append ByteString := ⟨append⟩

@[simp] theorem toList_append (s t : ByteString) : (s ++ t).toList = s.toList ++ t.toList := by
  change (s.append t).toList = _
  induction s with
  | empty => rfl
  | run pattern times rest ih => simp [append, ih]

/-- The first `n` bytes, or all of them if there are fewer. -/
def take : ByteString → Nat → ByteString
  | empty, _ => empty
  | run pattern times rest, n =>
    if times * pattern.length ≤ n then
      run pattern times (rest.take (n - times * pattern.length))
    else prepend pattern (n / pattern.length) (ofList (pattern.take (n % pattern.length)))

/-- The bytes behind the first `n`. -/
def drop : ByteString → Nat → ByteString
  | empty, _ => empty
  | run pattern times rest, n =>
    if times * pattern.length ≤ n then rest.drop (n - times * pattern.length)
    else prepend (pattern.drop (n % pattern.length)) 1
      (prepend pattern (times - n / pattern.length - 1) rest)

/-- A repetition falls into whole patterns before, around and behind one of its bytes. -/
theorem flatten_replicate_split (pattern : List UInt8) {times n : Nat}
    (h : n < times * pattern.length) :
    (List.replicate times pattern).flatten =
      (List.replicate (n / pattern.length) pattern).flatten ++
        (pattern ++ (List.replicate (times - n / pattern.length - 1) pattern).flatten) := by
  have hlt : n / pattern.length < times := Nat.div_lt_of_lt_mul (by rwa [Nat.mul_comm])
  rw [← List.flatten_cons, ← List.replicate_succ, ← List.flatten_append,
    List.replicate_append_replicate]
  congr 2
  omega

/-- The bytes behind the whole patterns of a position. -/
theorem sub_whole_patterns (pattern : List UInt8) (n : Nat) :
    n - (List.replicate (n / pattern.length) pattern).flatten.length = n % pattern.length := by
  have := Nat.div_add_mod' n pattern.length
  simp
  omega

theorem mod_length_le {pattern : List UInt8} {times n : Nat} (h : n < times * pattern.length) :
    n % pattern.length ≤ pattern.length :=
  Nat.le_of_lt (Nat.mod_lt n (Nat.pos_of_mul_pos_left (Nat.zero_lt_of_lt h)))

theorem take_flatten_replicate {pattern : List UInt8} {times n : Nat}
    (h : n < times * pattern.length) :
    (List.replicate times pattern).flatten.take n =
      (List.replicate (n / pattern.length) pattern).flatten ++
        pattern.take (n % pattern.length) := by
  rw [flatten_replicate_split pattern h, List.take_append, sub_whole_patterns,
    List.take_append_of_le_length (mod_length_le h), List.take_of_length_le]
  simp [Nat.div_mul_le_self]

theorem drop_flatten_replicate {pattern : List UInt8} {times n : Nat}
    (h : n < times * pattern.length) :
    (List.replicate times pattern).flatten.drop n =
      pattern.drop (n % pattern.length) ++
        (List.replicate (times - n / pattern.length - 1) pattern).flatten := by
  rw [flatten_replicate_split pattern h, List.drop_append, sub_whole_patterns,
    List.drop_append_of_le_length (mod_length_le h), List.drop_eq_nil_of_le, List.nil_append]
  simp [Nat.div_mul_le_self]

@[simp] theorem toList_take (s : ByteString) (n : Nat) : (s.take n).toList = s.toList.take n := by
  induction s generalizing n with
  | empty => simp [take]
  | run pattern times rest ih =>
    have hlen : (List.replicate times pattern).flatten.length = times * pattern.length := by simp
    rw [take, toList_run]
    split
    next h =>
      rw [← hlen] at h
      rw [toList_run, ih, List.take_append, List.take_of_length_le h, hlen]
    next h =>
      rw [toList_prepend, toList_ofList, List.take_append_of_le_length (by omega),
        take_flatten_replicate (by omega)]

@[simp] theorem toList_drop (s : ByteString) (n : Nat) : (s.drop n).toList = s.toList.drop n := by
  induction s generalizing n with
  | empty => simp [drop]
  | run pattern times rest ih =>
    have hlen : (List.replicate times pattern).flatten.length = times * pattern.length := by simp
    rw [drop, toList_run]
    split
    next h =>
      rw [← hlen] at h
      rw [ih, List.drop_append, List.drop_eq_nil_of_le h, hlen, List.nil_append]
    next h =>
      rw [toList_prepend, toList_prepend, List.drop_append_of_le_length (by omega),
        drop_flatten_replicate (by omega)]
      simp

/-- The string with a byte put behind it until there are `n` bytes. -/
def rightpad (s : ByteString) (n : Nat) (byte : UInt8) : ByteString :=
  s ++ fill (n - s.length) byte

@[simp] theorem toList_rightpad (s : ByteString) (n : Nat) (byte : UInt8) :
    (s.rightpad n byte).toList = s.toList.rightpad n byte := by
  simp [rightpad, List.rightpad]

@[simp] theorem length_append (s t : ByteString) : (s ++ t).length = s.length + t.length := by
  simp [← length_toList]

@[simp] theorem length_take (s : ByteString) (n : Nat) : (s.take n).length = min n s.length := by
  simp [← length_toList]

@[simp] theorem length_drop (s : ByteString) (n : Nat) : (s.drop n).length = s.length - n := by
  simp [← length_toList]

end ByteString

end JitSupport
