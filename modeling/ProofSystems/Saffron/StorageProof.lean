import ProofSystems.Saffron.Combine
import ProofSystems.Sponge

/-!
# Storage proofs

`prove` and `verify` in `saffron/src/storage_proof.rs`.  A blob of `k` chunks comes with one
commitment per chunk.  The prover combines the chunks with the powers of a challenge
(`combinedData`) and opens the combined polynomial at a point drawn from a sponge that has
absorbed the combined commitment `∑_j challenge^j • C_j`.  The verifier recomputes the combined
commitment from the chunk commitments, draws the same point and checks the opening.

**Interfaces.**  The polynomial commitment scheme is an `OpeningScheme`: `commit`, the
non-hiding commitment of evaluations over the domain of size `SRS_SIZE`; `evaluate`, the value
at a point of the polynomial that interpolates them; `open` and `verify`, the calls of
`srs.open` and `srs.verify` on one evaluation that `prove` and `verify` make.  Its laws are the
facts the two functions rely on: `commit` is linear, and `verify` accepts an opening made by
`open` for the same polynomial, point, value and sponge state.  `aggregate_commitments` lives
in saffron's `utils`, outside these sources; it enters as the interface fact that it computes
`∑_j challenge^j • C_j`.  The curve sponge is an `FqSponge` whose `challenge` is `squeeze(2)`.
The scalar sponge that both functions feed is never read, and is left out.

**Order of the checks.**  `prove` computes `final_chunk = data.len() / SRS_SIZE - 1` before it
asserts that the length is a multiple of `SRS_SIZE`: a blob shorter than `SRS_SIZE` panics at
the subtraction, the empty blob included, whose length passes the assertion.

**Results.**
* `verify_prove`: for a blob of `k ≥ 1` chunks that carries the commitments of its chunks,
  `verify` accepts the proof that `prove` returns, for every challenge.
* `verify_eq_opening_check`: for such a blob, `verify` is the opening check of the combined
  data's commitment at the point drawn from it, for every proof.
* `prove_empty`: `prove` on a blob without data panics at the subtraction.
* `prove_of_le_length`: from `SRS_SIZE` entries on, `prove` fails its assertion exactly when the
  length is not a multiple of `SRS_SIZE`, and returns a proof otherwise.
-/

namespace ProofSystems
namespace Saffron

/-- The polynomial commitment scheme over the domain of size `SRS_SIZE`, as `prove` and `verify`
call it, with the facts they rely on. -/
structure OpeningScheme (F G S P : Type) [CommRing F] [AddCommGroup G] [Module F G] where
  /-- `commit_evaluations_non_hiding`: the commitment of the polynomial with these evaluations. -/
  commit : List F → G
  /-- `Evaluations::from_vec_and_domain(evals, domain).interpolate().evaluate(x)`. -/
  evaluate : List F → F → F
  /-- `srs.open` on one polynomial, blinding `0`, at one point, `polyscale = evalscale = 1`. -/
  «open» : List F → F → S → P
  /-- `srs.verify` on one evaluation of a one-chunk commitment. -/
  verify : G → F → F → S → P → Bool
  commit_add : ∀ a b : List F, a.length = b.length →
    commit (List.zipWith (· + ·) a b) = commit a + commit b
  commit_mul : ∀ (a : List F) (c : F), commit (a.map (· * c)) = c • commit a
  verify_open : ∀ evals x st,
    verify (commit evals) x (evaluate evals x) st («open» evals x st) = true

/-- `StorageProof`. -/
structure StorageProof (F P : Type) where
  combinedDataEval : F
  openingProof : P

variable {F G S P : Type} [CommRing F] [AddCommGroup G] [Module F G]

/-- `utils::aggregate_commitments(challenge, commitments)`, whose source is outside these files:
modelled by the interface fact that it computes `∑_j challenge^j • commitments[j]`. -/
def aggregateCommitments (challenge : F) (commitments : List G) : G :=
  (commitments.mapIdx fun j c => challenge ^ j • c).sum

/-- `prove`, from the fresh curve sponge `CurveSponge::new(..)`. -/
def prove (sch : OpeningScheme F G S P) (sp : FqSponge S G F) (curveSpongeNew : S)
    (srsSize : Nat) (blob : FieldBlob F G) (challenge : F) : Except Panic (StorageProof F P) := do
  let finalChunk ← Usize.sub (← Usize.div blob.data.length srsSize) 1
  if (← Usize.rem blob.data.length srsSize) ≠ 0 then throw .assertionFailed
  let combinedDataCommitment := aggregateCommitments challenge blob.commitments
  let combinedData ← combinedData blob.data srsSize finalChunk challenge
  let (evaluationPoint, curveSponge) :=
    sp.challenge (sp.absorbG curveSpongeNew [combinedDataCommitment])
  let combinedDataEval := sch.evaluate combinedData evaluationPoint
  pure ⟨combinedDataEval, sch.open combinedData evaluationPoint curveSponge⟩

/-- `verify_wrt_combined_data_commitment`. -/
def verifyWrtCombinedDataCommitment (sch : OpeningScheme F G S P) (sp : FqSponge S G F)
    (curveSpongeNew : S) (combinedDataCommitment : G) (proof : StorageProof F P) : Bool :=
  let (evaluationPoint, curveSponge) :=
    sp.challenge (sp.absorbG curveSpongeNew [combinedDataCommitment])
  sch.verify combinedDataCommitment evaluationPoint proof.combinedDataEval curveSponge
    proof.openingProof

/-- `verify`. -/
def verify (sch : OpeningScheme F G S P) (sp : FqSponge S G F) (curveSpongeNew : S)
    (commitments : List G) (challenge : F) (proof : StorageProof F P) : Bool :=
  verifyWrtCombinedDataCommitment sch sp curveSpongeNew
    (aggregateCommitments challenge commitments) proof

theorem aggregateCommitments_map_range (challenge : F) (k : Nat) (f : Nat → G) :
    aggregateCommitments challenge ((List.range k).map f) =
      ((List.range k).map fun j => challenge ^ j • f j).sum := by
  unfold aggregateCommitments
  congr 1
  exact List.ext_getElem (by simp) fun i h₁ h₂ => by simp [List.getElem_mapIdx]

/-- The commitment of `horner`: the accumulator's, weighted by `challenge ^ m`, plus the first
`m` chunks', weighted by the powers of the challenge. -/
theorem commit_horner (sch : OpeningScheme F G S P) {data : List F} {srsSize : Nat} {challenge : F}
    {m : Nat} (hm : m * srsSize ≤ data.length) {acc : List F} (hacc : acc.length = srsSize) :
    sch.commit (horner data srsSize challenge m acc) = challenge ^ m • sch.commit acc +
      ((List.range m).map fun j => challenge ^ j • sch.commit (chunk data srsSize j)).sum := by
  induction m generalizing acc with
  | zero => simp [horner]
  | succ m ih =>
    have hchunk := length_chunk (j := m) hm
    rw [horner, ih (mul_le_of_succ_mul_le hm) (by simp [hacc, hchunk]),
      sch.commit_add _ _ (by simp [hacc, hchunk]), sch.commit_mul, List.range_succ,
      List.map_append, List.sum_append, List.map_singleton, List.sum_singleton, smul_add,
      smul_smul, ← pow_succ, add_assoc, add_comm (challenge ^ m • _)]

/-- The combined commitment of the chunk commitments is the commitment of the combined data:
the powers of the challenge in `aggregate_commitments` line up, chunk for chunk, with those of
the combination loop. -/
theorem aggregateCommitments_chunks (sch : OpeningScheme F G S P) {data : List F}
    {srsSize m : Nat} (hlen : data.length = (m + 1) * srsSize) (challenge : F) :
    aggregateCommitments challenge
        ((List.range (m + 1)).map fun j => sch.commit (chunk data srsSize j)) =
      sch.commit (horner data srsSize challenge m (chunk data srsSize m)) := by
  rw [commit_horner sch (mul_le_of_succ_mul_le hlen.ge) (length_chunk hlen.ge),
    aggregateCommitments_map_range, List.range_succ, List.map_append, List.sum_append,
    List.map_singleton, List.sum_singleton, add_comm]

/-- `prove` up to the combination: with `m + 1` whole chunks it draws the point from the
combined commitment and opens the combined data there. -/
theorem prove_eq (sch : OpeningScheme F G S P) (sp : FqSponge S G F) (curveSpongeNew : S)
    {srsSize : Nat} (hS : 0 < srsSize) (blob : FieldBlob F G) {m : Nat}
    (hlen : blob.data.length = (m + 1) * srsSize) (challenge : F) :
    prove sch sp curveSpongeNew srsSize blob challenge =
      let v := horner blob.data srsSize challenge m (chunk blob.data srsSize m)
      let r := sp.challenge
        (sp.absorbG curveSpongeNew [aggregateCommitments challenge blob.commitments])
      .ok ⟨sch.evaluate v r.1, sch.open v r.1 r.2⟩ := by
  have hdiv : blob.data.length / srsSize = m + 1 := by rw [hlen, Nat.mul_div_cancel _ hS]
  have hrem : blob.data.length % srsSize = 0 := by rw [hlen, Nat.mul_mod_left]
  simp only [prove, bind, Except.bind, Usize.div_of_pos hS, hdiv,
    Usize.sub_of_le (Nat.le_add_left 1 m),
    Nat.add_sub_cancel, Usize.rem_of_pos hS, hrem, ne_eq, not_true_eq_false, ↓reduceIte, pure,
    Except.pure, combinedData_eq hS blob.length_lt hlen]

/-- **Completeness of the storage proof.**  For a blob of `k ≥ 1` chunks of `SRS_SIZE` entries
whose commitments are those of its chunks, and every challenge, `prove` returns a proof and
`verify` accepts it. -/
theorem verify_prove (sch : OpeningScheme F G S P) (sp : FqSponge S G F) (curveSpongeNew : S)
    (srsSize : Nat) (hS : 0 < srsSize) (blob : FieldBlob F G) (k : Nat) (hk : 1 ≤ k)
    (hlen : blob.data.length = k * srsSize)
    (hcomm : blob.commitments = (List.range k).map fun j => sch.commit (chunk blob.data srsSize j))
    (challenge : F) :
    ∃ proof, prove sch sp curveSpongeNew srsSize blob challenge = .ok proof ∧
      verify sch sp curveSpongeNew blob.commitments challenge proof = true := by
  obtain ⟨m, rfl⟩ : ∃ m, k = m + 1 := ⟨k - 1, by omega⟩
  refine ⟨_, prove_eq sch sp curveSpongeNew hS blob hlen challenge, ?_⟩
  simp only [verify, verifyWrtCombinedDataCommitment]
  rw [hcomm, aggregateCommitments_chunks sch hlen]
  exact sch.verify_open _ _ _

/-- A scheme over the integers that commits to the sum of the evaluations, evaluates them as the
coefficients of a polynomial, and opens by revealing them. -/
def revealScheme : OpeningScheme ℤ ℤ (List ℤ) (List ℤ) where
  commit := List.sum
  evaluate evals x := evals.foldr (fun a acc => a + x * acc) 0
  «open» evals _ _ := evals
  verify g x y _ p := p.sum == g && p.foldr (fun a acc => a + x * acc) 0 == y
  commit_add a b h := (List.sum_add_sum_eq_sum_zipWith_of_length_eq a b h).symm
  commit_mul a c := by simpa [mul_comm c] using List.sum_map_mul_right a id c
  verify_open _ _ _ := by simp

/-- The sponge that records what it absorbs and squeezes the sum of its record. -/
def sumSponge : FqSponge (List ℤ) ℤ ℤ := ⟨fun st gs => st ++ gs, fun st => (st.sum, st)⟩

/-- Two chunks `[1, 2]` and `[3, 4]` with their commitments `3` and `7`. -/
theorem verify_prove_two_chunks :
    let blob : FieldBlob ℤ ℤ := ⟨[3, 7], [1, 2, 3, 4], by decide⟩
    0 < 2 ∧ 1 ≤ 2 ∧ blob.data.length = 2 * 2 ∧
    blob.commitments = (List.range 2).map (fun j => revealScheme.commit (chunk blob.data 2 j)) ∧
    ∃ proof, prove revealScheme sumSponge [] 2 blob 10 = .ok proof ∧
      verify revealScheme sumSponge [] blob.commitments 10 proof = true :=
  ⟨by decide, by decide, rfl, rfl,
    verify_prove revealScheme sumSponge [] 2 (by decide) ⟨[3, 7], [1, 2, 3, 4], by decide⟩ 2
      (by decide) rfl rfl 10⟩

/-- **The verifier's check is an opening check of the combined data.**  For a blob of `k ≥ 1`
chunks of `SRS_SIZE` entries whose commitments are those of its chunks, every challenge and
every proof, `verify` on the chunk commitments accepts exactly when the opening check accepts
the proof's evaluation for the commitment of the data that `prove` combines, at the point
drawn from that commitment: whatever the opening scheme guarantees about an accepted opening
holds of the combined data. -/
theorem verify_eq_opening_check (sch : OpeningScheme F G S P) (sp : FqSponge S G F)
    (curveSpongeNew : S) (srsSize : Nat) (hS : 0 < srsSize) (blob : FieldBlob F G) (k : Nat)
    (hk : 1 ≤ k) (hlen : blob.data.length = k * srsSize)
    (hcomm : blob.commitments = (List.range k).map fun j => sch.commit (chunk blob.data srsSize j))
    (challenge : F) (proof : StorageProof F P) :
    ∃ v, combinedData blob.data srsSize (blob.data.length / srsSize - 1) challenge = .ok v ∧
      verify sch sp curveSpongeNew blob.commitments challenge proof =
        let r := sp.challenge (sp.absorbG curveSpongeNew [sch.commit v])
        sch.verify (sch.commit v) r.1 proof.combinedDataEval r.2 proof.openingProof := by
  obtain ⟨m, rfl⟩ : ∃ m, k = m + 1 := ⟨k - 1, by omega⟩
  have hdiv : blob.data.length / srsSize - 1 = m := by rw [hlen, Nat.mul_div_cancel _ hS]; rfl
  refine ⟨_, by rw [hdiv]; exact combinedData_eq hS blob.length_lt hlen, ?_⟩
  rw [verify, verifyWrtCombinedDataCommitment, hcomm, aggregateCommitments_chunks sch hlen]

/-- The chunks `[1, 2]` and `[3, 4]` with the challenge `10`, and a proof that reveals `[5]`. -/
theorem verify_eq_opening_check_two_chunks :
    let blob : FieldBlob ℤ ℤ := ⟨[3, 7], [1, 2, 3, 4], by decide⟩
    0 < 2 ∧ 1 ≤ 2 ∧ blob.data.length = 2 * 2 ∧
    blob.commitments = (List.range 2).map (fun j => revealScheme.commit (chunk blob.data 2 j)) ∧
    ∃ v, combinedData blob.data 2 (blob.data.length / 2 - 1) 10 = .ok v ∧
      verify revealScheme sumSponge [] blob.commitments 10 ⟨0, [5]⟩ =
        let r := sumSponge.challenge (sumSponge.absorbG [] [revealScheme.commit v])
        revealScheme.verify (revealScheme.commit v) r.1 0 r.2 [5] :=
  ⟨by decide, by decide, rfl, rfl,
    verify_eq_opening_check revealScheme sumSponge [] 2 (by decide)
      ⟨[3, 7], [1, 2, 3, 4], by decide⟩ 2 (by decide) rfl rfl 10 ⟨0, [5]⟩⟩

/-- `prove` panics at `data.len() / SRS_SIZE - 1` on every blob shorter than `SRS_SIZE`. -/
theorem prove_of_length_lt (sch : OpeningScheme F G S P) (sp : FqSponge S G F)
    (curveSpongeNew : S) {srsSize : Nat} {blob : FieldBlob F G} (h : blob.data.length < srsSize)
    (challenge : F) :
    prove sch sp curveSpongeNew srsSize blob challenge = .error .subtractOverflow := by
  simp only [prove, bind, Except.bind, Usize.div_of_pos (Nat.zero_lt_of_lt h),
    Nat.div_eq_of_lt h, Usize.sub_of_lt Nat.zero_lt_one]

/-- **`prove` on a blob without data.**  For every `SRS_SIZE > 0`, commitments and challenge,
`prove` on a blob with no data panics at `data.len() / SRS_SIZE - 1`, before its assertion,
which the length `0` passes. -/
theorem prove_empty (sch : OpeningScheme F G S P) (sp : FqSponge S G F) (curveSpongeNew : S)
    (n : Nat) (commitments : List G) (challenge : F) :
    prove sch sp curveSpongeNew (n + 1) ⟨commitments, [], by simp [usizeBound]⟩ challenge =
      .error .subtractOverflow :=
  prove_of_length_lt sch sp curveSpongeNew (Nat.succ_pos n) challenge

/-- **`prove` from `SRS_SIZE` entries on.**  On a blob with at least `SRS_SIZE > 0` entries,
`final_chunk` does not underflow; `prove` panics at its assertion when the length is not a
multiple of `SRS_SIZE`, and otherwise computes the slice and every index of the combination
loop in bounds and without overflow, and returns a proof. -/
theorem prove_of_le_length (sch : OpeningScheme F G S P) (sp : FqSponge S G F)
    (curveSpongeNew : S) (srsSize : Nat) (hS : 0 < srsSize) (blob : FieldBlob F G)
    (h : srsSize ≤ blob.data.length) (challenge : F) :
    (blob.data.length % srsSize ≠ 0 →
      prove sch sp curveSpongeNew srsSize blob challenge = .error .assertionFailed) ∧
    (blob.data.length % srsSize = 0 →
      ∃ proof, prove sch sp curveSpongeNew srsSize blob challenge = .ok proof) := by
  have hdiv : 1 ≤ blob.data.length / srsSize := (Nat.one_le_div_iff hS).mpr h
  refine ⟨fun hrem => ?_, fun hrem => ⟨_, prove_eq sch sp curveSpongeNew hS blob
    (m := blob.data.length / srsSize - 1) ?_ challenge⟩⟩
  · simp only [prove, bind, Except.bind, Usize.div_of_pos hS, Usize.sub_of_le hdiv,
      Usize.rem_of_pos hS, hrem, ne_eq, not_false_eq_true, ↓reduceIte, throw, throwThe,
      MonadExceptOf.throw]
  · rw [Nat.sub_add_cancel hdiv, Nat.div_mul_cancel (Nat.dvd_of_mod_eq_zero hrem)]

/-- Three entries and `SRS_SIZE = 2`: the assertion fails. -/
theorem prove_of_le_length_three :
    let blob : FieldBlob ℤ ℤ := ⟨[], [1, 2, 3], by decide⟩
    0 < 2 ∧ 2 ≤ blob.data.length ∧
    (blob.data.length % 2 ≠ 0 →
      prove revealScheme sumSponge [] 2 blob 10 = .error .assertionFailed) ∧
    (blob.data.length % 2 = 0 → ∃ proof, prove revealScheme sumSponge [] 2 blob 10 = .ok proof) :=
  ⟨by decide, by decide,
    prove_of_le_length revealScheme sumSponge [] 2 (by decide) ⟨[], [1, 2, 3], by decide⟩
      (by decide) 10⟩

end Saffron
end ProofSystems
