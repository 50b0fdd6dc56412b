import Mathlib

/-!
# The combined data of a storage proof

`prove` in `saffron/src/storage_proof.rs` folds the `k` chunks of a blob's data, of
`SRS_SIZE` field elements each, into one chunk `combined_data`, with
`combined_data[idx] = ∑_j challenge^j * data[j * SRS_SIZE + idx]`.  It starts from the last
chunk and, for `chunk_ix` from `k - 2` down to `0`, multiplies every entry by the challenge and
adds chunk `chunk_ix`: Horner's rule, one chunk at a time.

**Machine arithmetic.**  Lengths and indices are `usize`, 64 bits wide.  The model follows a
build with overflow checks: an arithmetic overflow panics, as an index or a slice out of
bounds does, and the code returns `Except Panic`.  A build without the checks wraps around
instead, and the slice that follows then panics.

**Proof.**  One round of the loop is a pointwise multiply-and-add of the accumulator and a
chunk (`hornerRound_eq`), so the loop computes `horner`, the same recursion on pure lists
(`foldlM_hornerRound`), whose entries have a closed form (`horner_getD`).

**Results.**
* `combinedData_spec`: with `k ≥ 1` chunks, the block returns `SRS_SIZE` entries, each the
  sum of the chunks' entries at its index weighted by the powers of the challenge.
-/

namespace ProofSystems
namespace Saffron

/-- The panics of the storage prover. -/
inductive Panic
  | divideByZero
  | remainderByZero
  | subtractOverflow
  | addOverflow
  | multiplyOverflow
  | assertionFailed
  | indexOutOfBounds
  | sliceIndexOutOfBounds
  deriving DecidableEq, Repr

/-- `usize::MAX + 1` on the 64-bit targets. -/
def usizeBound : Nat := 2 ^ 64

namespace Usize

/-- `a / b` on `usize`. -/
def div (a b : Nat) : Except Panic Nat := if b = 0 then .error .divideByZero else .ok (a / b)

/-- `a % b` on `usize`. -/
def rem (a b : Nat) : Except Panic Nat := if b = 0 then .error .remainderByZero else .ok (a % b)

/-- `a - b` on `usize`, which panics below zero. -/
def sub (a b : Nat) : Except Panic Nat := if b ≤ a then .ok (a - b) else .error .subtractOverflow

/-- `a + b` on `usize`, which panics past `usize::MAX`. -/
def add (a b : Nat) : Except Panic Nat :=
  if a + b < usizeBound then .ok (a + b) else .error .addOverflow

/-- `a * b` on `usize`, which panics past `usize::MAX`. -/
def mul (a b : Nat) : Except Panic Nat :=
  if a * b < usizeBound then .ok (a * b) else .error .multiplyOverflow

theorem div_of_pos {a b : Nat} (h : 0 < b) : div a b = .ok (a / b) := if_neg (by omega)

theorem rem_of_pos {a b : Nat} (h : 0 < b) : rem a b = .ok (a % b) := if_neg (by omega)

theorem sub_of_le {a b : Nat} (h : b ≤ a) : sub a b = .ok (a - b) := if_pos h

theorem sub_of_lt {a b : Nat} (h : a < b) : sub a b = .error .subtractOverflow := if_neg (by omega)

theorem add_of_lt {a b : Nat} (h : a + b < usizeBound) : add a b = .ok (a + b) := if_pos h

theorem mul_of_lt {a b : Nat} (h : a * b < usizeBound) : mul a b = .ok (a * b) := if_pos h

end Usize

/-- `v[i]` on a `Vec`. -/
def index {α : Type} (v : List α) (i : Nat) : Except Panic α :=
  match v[i]? with
  | some a => .ok a
  | none => .error .indexOutOfBounds

/-- `v[lo..hi].to_vec()`. -/
def slice {α : Type} (v : List α) (lo hi : Nat) : Except Panic (List α) :=
  if lo ≤ hi ∧ hi ≤ v.length then .ok ((v.drop lo).take (hi - lo))
  else .error .sliceIndexOutOfBounds

theorem index_of_lt {α : Type} {v : List α} {i : Nat} (h : i < v.length) :
    index v i = .ok v[i] := by
  simp [index, h]

theorem slice_of_le {α : Type} {v : List α} {lo hi : Nat} (h₁ : lo ≤ hi) (h₂ : hi ≤ v.length) :
    slice v lo hi = .ok ((v.drop lo).take (hi - lo)) :=
  if_pos ⟨h₁, h₂⟩

/-- `mapM` in `Except` with a step that never fails. -/
theorem mapM_eq_ok {α β ε : Type} {f : α → Except ε β} {g : α → β} :
    ∀ l : List α, (∀ x ∈ l, f x = .ok (g x)) → l.mapM f = .ok (l.map g)
  | [], _ => rfl
  | x :: l, h => by
    rw [List.mapM_cons, h x (List.mem_cons_self x l),
      mapM_eq_ok l fun y hy => h y (List.mem_cons_of_mem x hy)]
    rfl

/-- The fields of `FieldBlob` that the storage proof reads: the commitments of the chunks and
the data, a `Vec` whose length is a `usize`. -/
structure FieldBlob (F G : Type) where
  commitments : List G
  data : List F
  length_lt : data.length < usizeBound

variable {F G : Type}

/-- Chunk `j` of the data: `data[j * SRS_SIZE .. (j + 1) * SRS_SIZE]`. -/
def chunk (data : List F) (srsSize j : Nat) : List F := (data.drop (j * srsSize)).take srsSize

theorem length_chunk {data : List F} {srsSize j : Nat} (h : (j + 1) * srsSize ≤ data.length) :
    (chunk data srsSize j).length = srsSize := by
  simp only [chunk, List.length_take, List.length_drop]
  rw [Nat.succ_mul] at h
  omega

/-- The chunks before a whole chunk `m` lie in the data. -/
theorem mul_le_of_succ_mul_le {m srsSize n : Nat} (h : (m + 1) * srsSize ≤ n) : m * srsSize ≤ n :=
  (Nat.mul_le_mul_right srsSize (Nat.le_succ m)).trans h

theorem getD_chunk [Zero F] {data : List F} {srsSize j idx : Nat} (hidx : idx < srsSize) :
    (chunk data srsSize j).getD idx 0 = data.getD (j * srsSize + idx) 0 := by
  simp [chunk, List.getD_eq_getElem?_getD, List.getElem?_take_of_lt hidx]

theorem getElem_chunk [Zero F] {data : List F} {srsSize j idx : Nat}
    (h : idx < (chunk data srsSize j).length) :
    (chunk data srsSize j)[idx] = data.getD (j * srsSize + idx) 0 := by
  rw [← List.getD_eq_getElem _ 0 h]
  exact getD_chunk (by simp only [chunk, List.length_take] at h; omega)

variable [CommRing F]

/-- One iteration of the loop over `chunk_ix`: the entry `acc` at `idx` becomes
`acc * challenge + data[chunk_ix * SRS_SIZE + idx]`. -/
def hornerRound (data : List F) (srsSize : Nat) (challenge : F) (acc : List F) (chunkIx : Nat) :
    Except Panic (List F) :=
  acc.enum.mapM fun (idx, a) => do
    let i ← Usize.add (← Usize.mul chunkIx srsSize) idx
    let x ← index data i
    pure (a * challenge + x)

/-- The block that computes `combined_data` from `final_chunk`: the last chunk, then one round
for every `chunk_ix` in `(0..final_chunk).rev()`. -/
def combinedData (data : List F) (srsSize finalChunk : Nat) (challenge : F) :
    Except Panic (List F) := do
  let lo ← Usize.mul finalChunk srsSize
  let hi ← Usize.mul (← Usize.add finalChunk 1) srsSize
  let initial ← slice data lo hi
  (List.range finalChunk).reverse.foldlM (hornerRound data srsSize challenge) initial

/-- The loop on pure lists: the rounds for chunk indices `m - 1` down to `0`. -/
def horner (data : List F) (srsSize : Nat) (challenge : F) : Nat → List F → List F
  | 0, acc => acc
  | m + 1, acc => horner data srsSize challenge m
      (List.zipWith (· + ·) (acc.map (· * challenge)) (chunk data srsSize m))

section Loop

variable {data : List F} {srsSize : Nat} {challenge : F}

/-- The entries of one round on pure lists. -/
theorem getD_round {acc : List F} (hacc : acc.length = srsSize) {m : Nat}
    (hm : (m + 1) * srsSize ≤ data.length) {idx : Nat} (hidx : idx < srsSize) :
    (List.zipWith (· + ·) (acc.map (· * challenge)) (chunk data srsSize m)).getD idx 0 =
      acc.getD idx 0 * challenge + data.getD (m * srsSize + idx) 0 := by
  have hc := length_chunk (j := m) hm
  rw [List.getD_eq_getElem _ 0 (by simp [hacc, hc, hidx]), List.getElem_zipWith,
    List.getElem_map, getElem_chunk, List.getD_eq_getElem acc 0 (by omega)]

/-- Inside the data, a round multiplies the accumulator by the challenge and adds the chunk,
entry by entry, without a panic. -/
theorem hornerRound_eq (hlen : data.length < usizeBound) {acc : List F}
    (hacc : acc.length = srsSize)
    {m : Nat} (hm : (m + 1) * srsSize ≤ data.length) :
    hornerRound data srsSize challenge acc m =
      .ok (List.zipWith (· + ·) (acc.map (· * challenge)) (chunk data srsSize m)) := by
  have hms : m * srsSize + srsSize ≤ data.length := by rwa [Nat.succ_mul] at hm
  rw [hornerRound, mapM_eq_ok (g := fun p => p.2 * challenge + data.getD (m * srsSize + p.1) 0)]
  · congr 1
    refine List.ext_getElem (by simp [hacc, length_chunk hm]) fun i h₁ h₂ => ?_
    have hi : i < srsSize := by simpa [hacc] using h₁
    rw [← List.getD_eq_getElem _ 0 h₂, getD_round hacc hm hi, List.getElem_map, List.getElem_enum,
      List.getD_eq_getElem acc 0 (by omega)]
  · rintro ⟨idx, a⟩ hmem
    have hidx : idx < srsSize := hacc ▸ List.fst_lt_of_mem_enum hmem
    have hi : m * srsSize + idx < data.length := by omega
    simp only [bind, Except.bind, Usize.mul_of_lt (show m * srsSize < usizeBound by omega),
      Usize.add_of_lt (show m * srsSize + idx < usizeBound by omega), index_of_lt hi, pure,
      Except.pure, List.getD_eq_getElem _ 0 hi]

theorem length_horner {m : Nat} (hm : m * srsSize ≤ data.length) {acc : List F}
    (hacc : acc.length = srsSize) : (horner data srsSize challenge m acc).length = srsSize := by
  induction m generalizing acc with
  | zero => exact hacc
  | succ m ih =>
    refine ih (mul_le_of_succ_mul_le hm) ?_
    simp [hacc, length_chunk hm]

/-- The loop of `prove` computes `horner`. -/
theorem foldlM_hornerRound (hlen : data.length < usizeBound) {m : Nat}
    (hm : m * srsSize ≤ data.length) {acc : List F} (hacc : acc.length = srsSize) :
    (List.range m).reverse.foldlM (hornerRound data srsSize challenge) acc =
      .ok (horner data srsSize challenge m acc) := by
  induction m generalizing acc with
  | zero => rfl
  | succ m ih =>
    rw [List.range_succ, List.reverse_append, List.reverse_singleton, List.singleton_append,
      List.foldlM_cons, hornerRound_eq hlen hacc hm]
    exact ih (mul_le_of_succ_mul_le hm) (by simp [hacc, length_chunk hm])

/-- The entries of `horner`: the accumulator's, weighted by `challenge ^ m`, plus the first
`m` chunks', weighted by the powers of the challenge. -/
theorem horner_getD {m : Nat} (hm : m * srsSize ≤ data.length) {acc : List F}
    (hacc : acc.length = srsSize) {idx : Nat} (hidx : idx < srsSize) :
    (horner data srsSize challenge m acc).getD idx 0 =
      challenge ^ m * acc.getD idx 0 +
        ((List.range m).map fun j => challenge ^ j * data.getD (j * srsSize + idx) 0).sum := by
  induction m generalizing acc with
  | zero => simp [horner]
  | succ m ih =>
    rw [horner, ih (mul_le_of_succ_mul_le hm) (by simp [hacc, length_chunk hm]),
      getD_round hacc hm hidx,
      List.range_succ, List.map_append, List.sum_append, List.map_singleton, List.sum_singleton]
    ring

/-- With `m + 1` whole chunks, the block runs from the last chunk without a panic and computes
`horner`. -/
theorem combinedData_eq (hS : 0 < srsSize) (hbound : data.length < usizeBound) {m : Nat}
    (hlen : data.length = (m + 1) * srsSize) :
    combinedData data srsSize m challenge =
      .ok (horner data srsSize challenge m (chunk data srsSize m)) := by
  have hsucc : m + 1 < usizeBound :=
    lt_of_le_of_lt (Nat.le_mul_of_pos_right _ hS) (hlen ▸ hbound)
  have hslice : slice data (m * srsSize) ((m + 1) * srsSize) = .ok (chunk data srsSize m) := by
    rw [slice_of_le (Nat.mul_le_mul_right srsSize (Nat.le_succ m)) hlen.ge,
      show (m + 1) * srsSize - m * srsSize = srsSize by rw [Nat.succ_mul]; omega]
    rfl
  simp only [combinedData, bind, Except.bind,
    Usize.mul_of_lt ((mul_le_of_succ_mul_le hlen.ge).trans_lt hbound),
    Usize.add_of_lt hsucc, Usize.mul_of_lt (hlen ▸ hbound), hslice]
  exact foldlM_hornerRound hbound (mul_le_of_succ_mul_le hlen.ge) (length_chunk hlen.ge)

end Loop

/-- **The combined data.**  For a blob of `k ≥ 1` chunks, the block of `prove` that computes
`combined_data`, run from the `final_chunk` that `prove` computes, returns `SRS_SIZE` entries,
and the entry at `idx` is `∑_{j < k} challenge^j * data[j * SRS_SIZE + idx]`. -/
theorem combinedData_spec (srsSize : Nat) (hS : 0 < srsSize) (blob : FieldBlob F G) (k : Nat)
    (hk : 1 ≤ k) (hlen : blob.data.length = k * srsSize) (challenge : F) :
    ∃ v, combinedData blob.data srsSize (blob.data.length / srsSize - 1) challenge = .ok v ∧
      v.length = srsSize ∧ ∀ idx < srsSize, v[idx]? =
        some (((List.range k).map fun j =>
          challenge ^ j * blob.data.getD (j * srsSize + idx) 0).sum) := by
  obtain ⟨m, rfl⟩ : ∃ m, k = m + 1 := ⟨k - 1, by omega⟩
  have hdiv : blob.data.length / srsSize - 1 = m := by rw [hlen, Nat.mul_div_cancel _ hS]; rfl
  have hm : m * srsSize ≤ blob.data.length := mul_le_of_succ_mul_le hlen.ge
  have hchunk := length_chunk (j := m) hlen.ge
  refine ⟨_, by rw [hdiv]; exact combinedData_eq hS blob.length_lt hlen, length_horner hm hchunk,
    fun idx hidx => ?_⟩
  rw [List.getElem?_eq_getElem (by rw [length_horner hm hchunk]; exact hidx),
    ← List.getD_eq_getElem _ 0, horner_getD hm hchunk hidx, getD_chunk hidx, List.range_succ,
    List.map_append, List.sum_append, List.map_singleton, List.sum_singleton, add_comm]

/-- Two chunks of two entries and the challenge `10`: the combined data is `[31, 42]`. -/
theorem combinedData_spec_two_chunks :
    let blob : FieldBlob ℤ Unit := ⟨[], [1, 2, 3, 4], by decide⟩
    0 < 2 ∧ 1 ≤ 2 ∧ blob.data.length = 2 * 2 ∧
    ∃ v, combinedData blob.data 2 (blob.data.length / 2 - 1) 10 = .ok v ∧ v.length = 2 ∧
      ∀ idx < 2, v[idx]? =
        some (((List.range 2).map fun j => 10 ^ j * blob.data.getD (j * 2 + idx) 0).sum) :=
  ⟨by decide, by decide, rfl,
    combinedData_spec 2 (by decide) ⟨[], [1, 2, 3, 4], by decide⟩ 2 (by decide) rfl 10⟩

end Saffron
end ProofSystems
