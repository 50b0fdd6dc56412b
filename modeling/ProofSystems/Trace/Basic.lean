import ProofSystems.RustVec

/-!
# O1vm traces: the sub-trace of one selector

This module models `Trace<N, C>` of `o1vm/src/legacy/trace.rs` and the four operations of
its `Tracer` implementations, which are textually the same for `KeccakTrace` and for
`MIPSTrace`.

**Layout.**  A trace has `N = N_REL + N_SEL` columns: the relation columns come first and the
selector columns last.  Column `0` is a relation column; its length is the row count read by
`number_of_rows` and by the padding functions.

**Operations.**  A `Trace` stores its columns as `RustVec`s, so the capacity guard of
`push_row` is modelled as written.  A function that may panic returns an `Option`, `none`
being the panic:

* `pushRow`: pushes `row[i]` to relation column `i` while that column has room;
* `padWithRow`: asserts `len ≤ domain_size`, then calls `push_row` `domain_size - len` times;
* `padWithZeros`: asserts the same, then extends *every* column with zeros;
* `padDummy`: reads row `0` of every relation column and pads with it;
* `clearWitness`, `extendSelectorColumns`: the in-place bodies of `DecomposedTrace::reset`
  and `DecomposedTrace::set_selector_column`.

**Results.**
* `iterate_pushIfRoom`: pushes past the capacity are dropped, silently.
* `iterate_pushRow_rel`: `k` calls of `push_row` on relation columns of equal length `n`
  with room for `k` more rows append `row[i]` `k` times to every one of them.
-/

namespace ProofSystems
namespace O1vm

/-- The column layout of a trace: `N_REL` relation columns followed by `N_SEL` selector
columns, `N = N_REL + N_SEL`.  Column `0` is a relation column. -/
structure Layout where
  nRel : Nat
  nSel : Nat
  nRel_pos : 0 < nRel

namespace Layout

variable (L : Layout)

/-- Relation column `i`, that is `cols[i]` with `i < N_REL`. -/
def rel (i : Fin L.nRel) : Fin (L.nRel + L.nSel) := Fin.castAdd L.nSel i

/-- Selector column `j`, that is `cols[N_REL + j]`. -/
def sel (j : Fin L.nSel) : Fin (L.nRel + L.nSel) := Fin.natAdd L.nRel j

/-- Relation column `0`. -/
def first : Fin L.nRel := ⟨0, L.nRel_pos⟩

@[simp] theorem val_rel (i : Fin L.nRel) : (L.rel i).val = i.val := rfl

@[simp] theorem val_sel (j : Fin L.nSel) : (L.sel j).val = L.nRel + j.val := rfl

@[simp] theorem val_first : L.first.val = 0 := rfl

/-- Every column is a relation column or a selector column. -/
theorem rel_or_sel (c : Fin (L.nRel + L.nSel)) : (∃ i, c = L.rel i) ∨ ∃ j, c = L.sel j := by
  by_cases h : c.val < L.nRel
  · exact .inl ⟨⟨c.val, h⟩, Fin.ext rfl⟩
  · exact .inr ⟨⟨c.val - L.nRel, by omega⟩, Fin.ext (by simp; omega)⟩

end Layout

/-- `Trace<N, C>`: the witness columns of one selector, its constraints and its lookups.
`E` is the type of constraint expressions and `Lk` that of lookup arguments. -/
@[ext] structure Trace (L : Layout) (F E Lk : Type) where
  domainSize : Nat
  witness : Fin (L.nRel + L.nSel) → RustVec F
  constraints : List E
  lookups : List Lk

/-- `array::from_fn(f)` for a closure `f` that may panic: the array when no call panics. -/
def arrayFromFn {n : Nat} {α : Type} (f : Fin n → Option α) : Option (Fin n → α) :=
  if h : ∀ i, (f i).isSome then some fun i => (f i).get (h i) else none

theorem arrayFromFn_eq_some_iff {n : Nat} {α : Type} {f : Fin n → Option α} {g : Fin n → α} :
    arrayFromFn f = some g ↔ ∀ i, f i = some (g i) := by
  unfold arrayFromFn
  split
  · rename_i h
    simp only [Option.some.injEq]
    constructor
    · rintro rfl i; simp
    · intro hg; funext i; simp [hg i]
  · rename_i h
    simp only [reduceCtorEq, false_iff]
    exact fun hg => h fun i => by simp [hg i]

theorem arrayFromFn_eq_none_iff {n : Nat} {α : Type} {f : Fin n → Option α} :
    arrayFromFn f = none ↔ ∃ i, f i = none := by
  unfold arrayFromFn
  split
  · rename_i h
    simp only [reduceCtorEq, false_iff, not_exists]
    exact fun i hi => by simpa [hi] using h i
  · rename_i h
    simpa [Option.isSome_iff_ne_none] using h

/-- The guard of `push_row` on one column: `if col.len() < col.capacity() { col.push(x) }`. -/
def pushIfRoom {F : Type} (col : RustVec F) (x : F) : RustVec F :=
  if col.len < col.capacity then col.push x else col

/-- `k` guarded pushes append `x` until the capacity is reached; the others are dropped. -/
theorem iterate_pushIfRoom {F : Type} (x : F) (col : RustVec F) (k : Nat) :
    (pushIfRoom · x)^[k] col =
      col.extend (List.replicate (min k (col.capacity - col.data.length)) x) := by
  induction k with
  | zero => simp
  | succ k ih =>
    rw [Function.iterate_succ_apply', ih]
    have hle := col.length_le
    set m := min k (col.capacity - col.data.length)
    have hcap : (col.extend (List.replicate m x)).capacity = col.capacity :=
      RustVec.capacity_extend_of_le (by simp; omega)
    unfold pushIfRoom
    by_cases h : col.data.length + m < col.capacity
    · have hm : min (k + 1) (col.capacity - col.data.length) = m + 1 := by omega
      have hlt : (col.extend (List.replicate m x)).data.length <
          (col.extend (List.replicate m x)).capacity := by simpa [hcap] using h
      rw [if_pos (by simpa using hlt), hm]
      ext1
      · simp [List.replicate_succ']
      · rw [RustVec.capacity_push_of_lt hlt, hcap,
          RustVec.capacity_extend_of_le (by simp; omega)]
    · have hm : min (k + 1) (col.capacity - col.data.length) = m := by omega
      rw [if_neg (by simpa [hcap] using h), hm]

namespace Trace

variable {L : Layout} {F E Lk : Type}

/-- The body shared by `KeccakTrace::init` and `MIPSTrace::init`: every column is
`Vec::with_capacity(domain_size)`; the constraints and lookups are the interpreter's. -/
def init (domainSize : Nat) (constraints : List E) (lookups : List Lk) : Trace L F E Lk where
  domainSize := domainSize
  witness := fun _ => RustVec.withCapacity domainSize
  constraints := constraints
  lookups := lookups

/-- The contents of every column. -/
def columns (t : Trace L F E Lk) : Fin (L.nRel + L.nSel) → List F := fun c => (t.witness c).data

/-- `self.witness.cols[0].len()`. -/
def numberOfRows (t : Trace L F E Lk) : Nat := (t.witness (L.rel L.first)).len

/-- `push_row`: `row[i]` is pushed to relation column `i` when that column has room.  The
iterations of the Rust loop touch distinct columns, so the loop is a pointwise update. -/
def pushRow (t : Trace L F E Lk) (row : Fin L.nRel → F) : Trace L F E Lk :=
  { t with witness := fun c =>
      if h : c.val < L.nRel then pushIfRoom (t.witness c) (row ⟨c.val, h⟩) else t.witness c }

/-- `pad_with_row`: `assert!(len <= domain_size)`, then `domain_size - len` calls of
`push_row`; returns the number of calls. -/
def padWithRow (t : Trace L F E Lk) (row : Fin L.nRel → F) : Option (Trace L F E Lk × Nat) :=
  if t.numberOfRows ≤ t.domainSize then
    some ((fun t => t.pushRow row)^[t.domainSize - t.numberOfRows] t,
      t.domainSize - t.numberOfRows)
  else none

/-- `pad_with_zeros`: `assert!(len <= domain_size)`, then every one of the `N` columns is
extended with `domain_size - len` zeros. -/
def padWithZeros [Zero F] (t : Trace L F E Lk) : Option (Trace L F E Lk × Nat) :=
  if t.numberOfRows ≤ t.domainSize then
    some ({ t with witness := fun c =>
        (t.witness c).extend (List.replicate (t.domainSize - t.numberOfRows) 0) },
      t.domainSize - t.numberOfRows)
  else none

/-- Relation row `r`: `array::from_fn(|i| self.witness.cols[i][r])`, `none` when the index
is out of bounds in some relation column. -/
def relRow (t : Trace L F E Lk) (r : Nat) : Option (Fin L.nRel → F) :=
  arrayFromFn fun i => (t.witness (L.rel i)).data[r]?

/-- The row `pad_dummy` reads, `array::from_fn(|i| self.witness.cols[i][0])`. -/
def firstRow (t : Trace L F E Lk) : Option (Fin L.nRel → F) := t.relRow 0

/-- `pad_dummy`: `pad_with_row` with the first row. -/
def padDummy (t : Trace L F E Lk) : Option (Trace L F E Lk × Nat) :=
  t.firstRow.bind t.padWithRow

/-- `Vec::clear` on every column: the body of `DecomposedTrace::reset`. -/
def clearWitness (t : Trace L F E Lk) : Trace L F E Lk :=
  { t with witness := fun c => (t.witness c).clear }

/-- The body of `set_selector_column::<N_REL>` on the selector's trace: every column `i` with
`N_REL ≤ i < N` is extended with `number_of_rows` ones if `i` is the selector's index and
with `number_of_rows` zeros otherwise. -/
def extendSelectorColumns [Zero F] [One F] (nRel index numberOfRows : Nat)
    (t : Trace L F E Lk) : Trace L F E Lk :=
  { t with witness := fun c =>
      if nRel ≤ c.val then
        (t.witness c).extend (List.replicate numberOfRows (if c.val = index then 1 else 0))
      else t.witness c }

section Lemmas

variable (t : Trace L F E Lk) (row : Fin L.nRel → F)

@[simp] theorem pushRow_witness_rel (i : Fin L.nRel) :
    (t.pushRow row).witness (L.rel i) = pushIfRoom (t.witness (L.rel i)) (row i) := by
  simp [pushRow]

@[simp] theorem pushRow_witness_sel (j : Fin L.nSel) :
    (t.pushRow row).witness (L.sel j) = t.witness (L.sel j) := by
  simp [pushRow]

@[simp] theorem domainSize_pushRow : (t.pushRow row).domainSize = t.domainSize := rfl

@[simp] theorem constraints_pushRow : (t.pushRow row).constraints = t.constraints := rfl

@[simp] theorem lookups_pushRow : (t.pushRow row).lookups = t.lookups := rfl

/-- `k` calls of `push_row` act on every relation column as `k` guarded pushes. -/
theorem iterate_pushRow_rel (k : Nat) (i : Fin L.nRel) :
    ((fun t => t.pushRow row)^[k] t).witness (L.rel i) =
      (pushIfRoom · (row i))^[k] (t.witness (L.rel i)) := by
  induction k with
  | zero => rfl
  | succ k ih => simp only [Function.iterate_succ_apply', pushRow_witness_rel, ih]

@[simp] theorem iterate_pushRow_sel (k : Nat) (j : Fin L.nSel) :
    ((fun t => t.pushRow row)^[k] t).witness (L.sel j) = t.witness (L.sel j) := by
  induction k with
  | zero => rfl
  | succ k ih => simp only [Function.iterate_succ_apply', pushRow_witness_sel, ih]

/-- `push_row` never touches the domain size, the constraints or the lookups. -/
theorem iterate_pushRow_fields (k : Nat) :
    ((fun t => t.pushRow row)^[k] t).domainSize = t.domainSize ∧
    ((fun t => t.pushRow row)^[k] t).constraints = t.constraints ∧
    ((fun t => t.pushRow row)^[k] t).lookups = t.lookups := by
  induction k with
  | zero => exact ⟨rfl, rfl, rfl⟩
  | succ k ih => simpa only [Function.iterate_succ_apply'] using ih

theorem padWithRow_of_le (h : t.numberOfRows ≤ t.domainSize) :
    t.padWithRow row = some ((fun t => t.pushRow row)^[t.domainSize - t.numberOfRows] t,
      t.domainSize - t.numberOfRows) := by
  simp [padWithRow, h]

theorem padWithZeros_of_le [Zero F] (h : t.numberOfRows ≤ t.domainSize) :
    t.padWithZeros = some (
      { t with
        witness := fun c =>
          (t.witness c).extend (List.replicate (t.domainSize - t.numberOfRows) 0) },
      t.domainSize - t.numberOfRows) := by
  simp [padWithZeros, h]

theorem relRow_eq_some_iff {r : Nat} {x : Fin L.nRel → F} :
    t.relRow r = some x ↔ ∀ i, (t.witness (L.rel i)).data[r]? = some (x i) :=
  arrayFromFn_eq_some_iff

/-- A relation row exists below the length shared by the relation columns. -/
theorem relRow_isSome {r : Nat} (h : ∀ i, r < (t.witness (L.rel i)).data.length) :
    (t.relRow r).isSome := by
  simp only [relRow, arrayFromFn, h, List.getElem?_eq_getElem, Option.isSome_some,
    implies_true, ↓reduceDIte]

theorem firstRow_eq_none (h : t.numberOfRows = 0) : t.firstRow = none :=
  arrayFromFn_eq_none_iff.mpr ⟨L.first, by
    simp only [numberOfRows, RustVec.len_eq, List.length_eq_zero] at h
    simp [h]⟩

section SelectorColumns

variable [Zero F] [One F] {nRel index numberOfRows : Nat}

/-- With the layout's `N_REL` or more, `set_selector_column` leaves the relation columns. -/
theorem extendSelectorColumns_witness_rel (h : L.nRel ≤ nRel) (i : Fin L.nRel) :
    (t.extendSelectorColumns nRel index numberOfRows).witness (L.rel i) = t.witness (L.rel i) := by
  have := i.isLt
  simp only [extendSelectorColumns, Layout.val_rel]
  rw [if_neg (by omega)]

/-- With the layout's `N_REL` or less, every selector column is extended. -/
theorem extendSelectorColumns_witness_sel (h : nRel ≤ L.nRel) (j : Fin L.nSel) :
    (t.extendSelectorColumns nRel index numberOfRows).witness (L.sel j) =
      (t.witness (L.sel j)).extend
        (List.replicate numberOfRows (if L.nRel + j.val = index then 1 else 0)) := by
  simp only [extendSelectorColumns, Layout.val_sel]
  rw [if_pos (by omega)]

@[simp] theorem domainSize_extendSelectorColumns :
    (t.extendSelectorColumns nRel index numberOfRows).domainSize = t.domainSize := rfl

@[simp] theorem constraints_extendSelectorColumns :
    (t.extendSelectorColumns nRel index numberOfRows).constraints = t.constraints := rfl

@[simp] theorem lookups_extendSelectorColumns :
    (t.extendSelectorColumns nRel index numberOfRows).lookups = t.lookups := rfl

end SelectorColumns

@[simp] theorem clearWitness_witness (c : Fin (L.nRel + L.nSel)) :
    t.clearWitness.witness c = (t.witness c).clear := rfl

@[simp] theorem domainSize_clearWitness : t.clearWitness.domainSize = t.domainSize := rfl

@[simp] theorem constraints_clearWitness : t.clearWitness.constraints = t.constraints := rfl

@[simp] theorem lookups_clearWitness : t.clearWitness.lookups = t.lookups := rfl

end Lemmas

end Trace

end O1vm
end ProofSystems
