import Mathlib

/-!
# Rust vectors with a capacity

Every witness column of the o1vm trace builder is a `Vec`, and the row guard of `push_row`
reads the column's *capacity*: a value is written to column `i` only while
`cols[i].len() < cols[i].capacity()`.  The model of a column therefore keeps the capacity
next to the contents.

A `RustVec α` is a list of elements together with the capacity of its buffer, and it carries
the invariant the standard library keeps for every vector, `len ≤ capacity`.  The operations
the trace builder uses are those of `alloc::vec::Vec`:

* `withCapacity n`: `Vec::with_capacity(n)`, empty with capacity `n`;
* `extend xs`: `Vec::extend` from an exact-size iterator, one `reserve` and then the elements;
* `push x`: `Vec::push`, which grows the buffer exactly as `extend [x]` does;
* `clear`: `Vec::clear`, which drops the elements and keeps the allocation.

Growth follows `RawVec::grow_amortized`: the new capacity is the largest of twice the old one,
the required length, and the minimal non-zero capacity `4` (elements of at most 1 KiB).  Only
the capacities of columns that never grow are read by the trace builder, so no result depends
on this choice.
-/

namespace ProofSystems

/-- A Rust `Vec<α>`: its elements and the capacity of its buffer. -/
structure RustVec (α : Type) where
  data : List α
  capacity : Nat
  length_le : data.length ≤ capacity

namespace RustVec

variable {α : Type}

@[ext] theorem ext {v w : RustVec α} (hd : v.data = w.data) (hc : v.capacity = w.capacity) :
    v = w := by
  cases v; cases w; cases hd; cases hc; rfl

instance [DecidableEq α] : DecidableEq (RustVec α) := fun v w =>
  decidable_of_iff (v.data = w.data ∧ v.capacity = w.capacity)
    ⟨fun h => ext h.1 h.2, fun h => h ▸ ⟨rfl, rfl⟩⟩

/-- `Vec::len`. -/
def len (v : RustVec α) : Nat := v.data.length

/-- `Vec::with_capacity(n)`. -/
def withCapacity (n : Nat) : RustVec α := ⟨[], n, Nat.zero_le n⟩

/-- The capacity after `reserve(additional)` (`RawVec::grow_amortized`). -/
def grownCapacity (v : RustVec α) (additional : Nat) : Nat :=
  if v.len + additional ≤ v.capacity then v.capacity
  else max 4 (max (2 * v.capacity) (v.len + additional))

theorem le_grownCapacity (v : RustVec α) (additional : Nat) :
    v.len + additional ≤ v.grownCapacity additional := by
  unfold grownCapacity
  split <;> omega

/-- `Vec::extend` with the elements `xs`. -/
def extend (v : RustVec α) (xs : List α) : RustVec α :=
  ⟨v.data ++ xs, v.grownCapacity xs.length, by
    simpa [len] using v.le_grownCapacity xs.length⟩

/-- `Vec::push`: the buffer grows as for `extend [x]`. -/
def push (v : RustVec α) (x : α) : RustVec α := v.extend [x]

/-- `Vec::clear`: the allocation is kept. -/
def clear (v : RustVec α) : RustVec α := ⟨[], v.capacity, Nat.zero_le _⟩

@[simp] theorem data_withCapacity (n : Nat) : (withCapacity n : RustVec α).data = [] := rfl

@[simp] theorem capacity_withCapacity (n : Nat) :
    (withCapacity n : RustVec α).capacity = n := rfl

@[simp] theorem data_extend (v : RustVec α) (xs : List α) : (v.extend xs).data = v.data ++ xs :=
  rfl

@[simp] theorem data_push (v : RustVec α) (x : α) : (v.push x).data = v.data ++ [x] := rfl

@[simp] theorem data_clear (v : RustVec α) : v.clear.data = [] := rfl

@[simp] theorem capacity_clear (v : RustVec α) : v.clear.capacity = v.capacity := rfl

@[simp] theorem len_eq (v : RustVec α) : v.len = v.data.length := rfl

/-- A vector extended within its capacity keeps its buffer. -/
theorem capacity_extend_of_le {v : RustVec α} {xs : List α}
    (h : v.data.length + xs.length ≤ v.capacity) : (v.extend xs).capacity = v.capacity := by
  simp [extend, grownCapacity, h]

theorem capacity_push_of_lt {v : RustVec α} {x : α} (h : v.data.length < v.capacity) :
    (v.push x).capacity = v.capacity :=
  capacity_extend_of_le (by simpa using h)

/-- Extending by nothing changes nothing, whatever the vector. -/
@[simp] theorem extend_nil (v : RustVec α) : v.extend [] = v :=
  ext (by simp) (capacity_extend_of_le (by simpa using v.length_le))

end RustVec

end ProofSystems
