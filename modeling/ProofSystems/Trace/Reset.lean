import ProofSystems.Trace.Invariant

/-!
# `reset` and fresh sub-traces

`reset(s)` clears every column of the sub-trace of `s` with `Vec::clear`, which keeps the
allocation.  A sub-trace fresh from `init` has empty columns of capacity `domain_size`.  The
two differ only in the capacities of the selector columns, which `set_selector_column` and
`pad_with_zeros` may have grown, and no call reads those: `push_row` reads the capacity of
relation columns only, and `Vec::extend` reads none.

`Trace.Sim` states this: two traces agree on the domain size, the constraints, the lookups,
the relation columns (contents and capacity) and the contents of the selector columns.  Every
call of the protocol, on either machine, maps `Sim`-related decomposed traces to related ones
and returns the same value on both (`DecomposedTrace.Sim.stepOut`), so whole runs do too.  In
a reachable state the relation columns of every sub-trace keep the capacity `domain_size`
(`Trace.WF`), so the cleared sub-trace is `Sim` to the fresh one.

**Results.**
* `reset_fresh`: after `reset(s)` in any reachable state, every later run returns the same
  values and leaves the same columns as from the state with a fresh sub-trace for `s`.
-/

namespace ProofSystems

section OptionRel

variable {α β γ δ : Type} {R : α → β → Prop} {x : Option α} {y : Option β}

theorem optionRel_map {S : γ → δ → Prop} (h : Option.Rel R x y) {f : α → γ} {g : β → δ}
    (hfg : ∀ a b, R a b → S (f a) (g b)) : Option.Rel S (x.map f) (y.map g) := by
  cases h with
  | none => exact .none
  | some h => exact .some (hfg _ _ h)

theorem optionRel_bind {S : γ → δ → Prop} (h : Option.Rel R x y) {f : α → Option γ}
    {g : β → Option δ} (hfg : ∀ a b, R a b → Option.Rel S (f a) (g b)) :
    Option.Rel S (x.bind f) (y.bind g) := by
  cases h with
  | none => exact .none
  | some h => exact hfg _ _ h

theorem map_eq_of_optionRel (h : Option.Rel R x y) {f : α → γ} {g : β → γ}
    (hfg : ∀ a b, R a b → f a = g b) : x.map f = y.map g := by
  cases h with
  | none => rfl
  | some h => exact congrArg some (hfg _ _ h)

/-- Two fallible left folds whose steps map related states to related results map related
starting points to related results. -/
theorem optionRel_foldlM {ε : Type} {R : α → β → Prop} {g : α → ε → Option α}
    {g' : β → ε → Option β} (hg : ∀ a b e, R a b → Option.Rel R (g a e) (g' b e)) :
    ∀ (l : List ε) (a : α) (b : β), R a b → Option.Rel R (l.foldlM g a) (l.foldlM g' b)
  | [], _, _, h => .some h
  | e :: l, a, b, h => by
    simp only [List.foldlM_cons, Option.bind_eq_bind]
    exact optionRel_bind (hg a b e h) fun a' b' h' => optionRel_foldlM hg l a' b' h'

/-- Related results that return the same value. -/
def SameOut {ε : Type} (R : α → β → Prop) (a : α × ε) (b : β × ε) : Prop := R a.1 b.1 ∧ a.2 = b.2

/-- Related calls that return a number return it as the same `some`. -/
theorem optionRel_sameOut_some {ε : Type} {x : Option (α × ε)} {y : Option (β × ε)}
    (h : Option.Rel (SameOut R) x y) :
    Option.Rel (SameOut R) (x.map fun r => (r.1, some r.2)) (y.map fun r => (r.1, some r.2)) :=
  optionRel_map h fun _ _ hp => ⟨hp.1, congrArg some hp.2⟩

/-- Related calls that return nothing return the same `none`. -/
theorem optionRel_sameOut_none {ε : Type} (h : Option.Rel R x y) :
    Option.Rel (SameOut R) (x.map fun a => (a, (none : Option ε))) (y.map fun b => (b, none)) :=
  optionRel_map h fun _ _ hp => ⟨hp, rfl⟩

end OptionRel

namespace O1vm

variable {L : Layout} {Sel F E Lk Env : Type}

namespace Trace

variable {t t₁ t₂ : Trace L F E Lk}

/-- Two traces that no call can tell apart: they differ at most in the capacities of their
selector columns. -/
structure Sim (t₁ t₂ : Trace L F E Lk) : Prop where
  domainSize_eq : t₁.domainSize = t₂.domainSize
  rel_eq : ∀ i, t₁.witness (L.rel i) = t₂.witness (L.rel i)
  sel_data_eq : ∀ j, (t₁.witness (L.sel j)).data = (t₂.witness (L.sel j)).data
  constraints_eq : t₁.constraints = t₂.constraints
  lookups_eq : t₁.lookups = t₂.lookups

theorem Sim.refl (t : Trace L F E Lk) : t.Sim t := ⟨rfl, fun _ => rfl, fun _ => rfl, rfl, rfl⟩

theorem Sim.columns_eq (h : t₁.Sim t₂) : t₁.columns = t₂.columns := by
  funext c
  rcases L.rel_or_sel c with ⟨i, rfl⟩ | ⟨j, rfl⟩
  · exact congrArg RustVec.data (h.rel_eq i)
  · exact h.sel_data_eq j

theorem Sim.numberOfRows_eq (h : t₁.Sim t₂) : t₁.numberOfRows = t₂.numberOfRows := by
  rw [numberOfRows, numberOfRows, h.rel_eq]

/-- Rewriting every column by one function, that keeps equal contents equal in selector
columns, keeps traces related. -/
theorem Sim.map (h : t₁.Sim t₂) (g : Fin (L.nRel + L.nSel) → RustVec F → RustVec F)
    (hg : ∀ j v w, v.data = w.data → (g (L.sel j) v).data = (g (L.sel j) w).data) :
    ({ t₁ with witness := fun c => g c (t₁.witness c) } : Trace L F E Lk).Sim
      { t₂ with witness := fun c => g c (t₂.witness c) } :=
  ⟨h.domainSize_eq, fun i => congrArg (g _) (h.rel_eq i), fun j => hg j _ _ (h.sel_data_eq j),
    h.constraints_eq, h.lookups_eq⟩

theorem Sim.pushRow (h : t₁.Sim t₂) (row : Fin L.nRel → F) :
    (t₁.pushRow row).Sim (t₂.pushRow row) :=
  h.map (fun c v => if hc : c.val < L.nRel then pushIfRoom v (row ⟨c.val, hc⟩) else v)
    fun j v w hvw => by simpa only [Layout.val_sel, Nat.not_lt.mpr (Nat.le_add_right _ _),
      dite_false] using hvw

theorem Sim.iterate_pushRow (h : t₁.Sim t₂) (row : Fin L.nRel → F) (k : Nat) :
    ((fun t => t.pushRow row)^[k] t₁).Sim ((fun t => t.pushRow row)^[k] t₂) := by
  induction k with
  | zero => exact h
  | succ k ih => simpa only [Function.iterate_succ_apply'] using ih.pushRow row

theorem Sim.padWithRow (h : t₁.Sim t₂) (row : Fin L.nRel → F) :
    Option.Rel (SameOut Sim) (t₁.padWithRow row) (t₂.padWithRow row) := by
  unfold Trace.padWithRow
  rw [h.numberOfRows_eq, h.domainSize_eq]
  split
  · exact .some ⟨h.iterate_pushRow row _, rfl⟩
  · exact .none

theorem Sim.padWithZeros [Zero F] (h : t₁.Sim t₂) :
    Option.Rel (SameOut Sim) t₁.padWithZeros t₂.padWithZeros := by
  have hle : t₁.numberOfRows ≤ t₁.domainSize ↔ t₂.numberOfRows ≤ t₂.domainSize := by
    rw [h.numberOfRows_eq, h.domainSize_eq]
  have hk : t₁.domainSize - t₁.numberOfRows = t₂.domainSize - t₂.numberOfRows := by
    rw [h.numberOfRows_eq, h.domainSize_eq]
  unfold Trace.padWithZeros
  by_cases h₂ : t₂.numberOfRows ≤ t₂.domainSize
  · rw [if_pos (hle.mpr h₂), if_pos h₂, hk]
    exact .some ⟨h.map (fun _ v => v.extend _) fun j v w hvw => by simp [hvw], rfl⟩
  · rw [if_neg (mt hle.mp h₂), if_neg h₂]
    exact .none

theorem Sim.padDummy (h : t₁.Sim t₂) : Option.Rel (SameOut Sim) t₁.padDummy t₂.padDummy := by
  unfold Trace.padDummy Trace.firstRow Trace.relRow
  simp only [h.rel_eq]
  cases arrayFromFn fun i => (t₂.witness (L.rel i)).data[0]? with
  | none => exact .none
  | some x => exact h.padWithRow x

theorem Sim.clearWitness (h : t₁.Sim t₂) : t₁.clearWitness.Sim t₂.clearWitness :=
  h.map (fun _ v => v.clear) fun _ _ _ _ => rfl

theorem Sim.extendSelectorColumns [Zero F] [One F] (h : t₁.Sim t₂) (nRel index k : Nat) :
    (t₁.extendSelectorColumns nRel index k).Sim (t₂.extendSelectorColumns nRel index k) :=
  h.map (fun c v => if nRel ≤ c.val then v.extend _ else v) fun j v w hvw => by
    dsimp only
    split <;> simp [hvw]

/-- In a reachable state a cleared sub-trace cannot be told apart from a fresh one. -/
theorem WF.sim_clearWitness (h : t.WF d) :
    t.clearWitness.Sim (Trace.init d t.constraints t.lookups) :=
  ⟨h.domainSize_eq, fun i => RustVec.ext rfl (h.capacity_rel i), fun _ => rfl, rfl, rfl⟩

end Trace

namespace DecomposedTrace

variable {dt₁ dt₂ : DecomposedTrace L Sel F E Lk}

/-- The contents of every column of every sub-trace. -/
def columns (dt : DecomposedTrace L Sel F E Lk) : Sel → Option (Fin (L.nRel + L.nSel) → List F) :=
  fun s => (dt.trace s).map Trace.columns

/-- Two decomposed traces whose sub-traces are pairwise related. -/
structure Sim (dt₁ dt₂ : DecomposedTrace L Sel F E Lk) : Prop where
  domainSize_eq : dt₁.domainSize = dt₂.domainSize
  trace_rel : ∀ s, Option.Rel Trace.Sim (dt₁.trace s) (dt₂.trace s)

theorem Sim.refl (dt : DecomposedTrace L Sel F E Lk) : dt.Sim dt :=
  ⟨rfl, fun s => by cases dt.trace s <;> constructor; exact Trace.Sim.refl _⟩

theorem Sim.columns_eq (h : dt₁.Sim dt₂) : dt₁.columns = dt₂.columns :=
  funext fun s => map_eq_of_optionRel (h.trace_rel s) fun _ _ ht => ht.columns_eq

theorem Sim.inCircuit_eq (h : dt₁.Sim dt₂) (s : Sel) : dt₁.inCircuit s = dt₂.inCircuit s := by
  simp only [inCircuit, numberOfRows, Option.map_map]
  exact map_eq_of_optionRel (h.trace_rel s) fun _ _ ht => by simp [ht.numberOfRows_eq]

variable [DecidableEq Sel]

theorem Sim.insert (h : dt₁.Sim dt₂) (s : Sel) {t₁ t₂ : Trace L F E Lk} (ht : t₁.Sim t₂) :
    (dt₁.insert s t₁).Sim (dt₂.insert s t₂) := by
  refine ⟨h.domainSize_eq, fun s' => ?_⟩
  by_cases hs : s' = s
  · subst hs; simpa using Option.Rel.some ht
  · simpa only [insert_trace_of_ne _ _ _ hs] using h.trace_rel s'

theorem Sim.update (h : dt₁.Sim dt₂) (s : Sel) {g : Trace L F E Lk → Trace L F E Lk}
    (hg : ∀ t₁ t₂ : Trace L F E Lk, t₁.Sim t₂ → (g t₁).Sim (g t₂)) :
    Option.Rel Sim (dt₁.update s g) (dt₂.update s g) :=
  optionRel_map (h.trace_rel s) fun _ _ ht => h.insert s (hg _ _ ht)

theorem Sim.modify {α : Type} (h : dt₁.Sim dt₂) (s : Sel)
    {f : Trace L F E Lk → Option (Trace L F E Lk × α)}
    (hf : ∀ t₁ t₂ : Trace L F E Lk, t₁.Sim t₂ → Option.Rel (SameOut Trace.Sim) (f t₁) (f t₂)) :
    Option.Rel (SameOut Sim) (dt₁.modify s f) (dt₂.modify s f) :=
  optionRel_bind (h.trace_rel s) fun _ _ ht =>
    optionRel_bind (hf _ _ ht) fun _ _ hp => .some ⟨h.insert s hp.1, hp.2⟩

theorem Sim.padIfInCircuit (h : dt₁.Sim dt₂) (s : Sel)
    {f : Trace L F E Lk → Option (Trace L F E Lk × Nat)}
    (hf : ∀ t₁ t₂ : Trace L F E Lk, t₁.Sim t₂ → Option.Rel (SameOut Trace.Sim) (f t₁) (f t₂)) :
    Option.Rel (SameOut Sim) (dt₁.padIfInCircuit s f) (dt₂.padIfInCircuit s f) := by
  unfold DecomposedTrace.padIfInCircuit
  rw [h.inCircuit_eq s]
  cases dt₂.inCircuit s with
  | none => exact .none
  | some b =>
    cases b
    · exact .some ⟨h, rfl⟩
    · exact h.modify s hf

theorem Sim.padDummyStep (h : dt₁.Sim dt₂) (s : Sel) :
    Option.Rel Sim ((dt₁.modify s Trace.padDummy).map Prod.fst)
      ((dt₂.modify s Trace.padDummy).map Prod.fst) :=
  optionRel_map (h.modify s fun _ _ ht => ht.padDummy) fun _ _ hp => hp.1

theorem Sim.padWitnesses (h : dt₁.Sim dt₂) (m : Machine Sel E Lk Env) (sels : List Sel) :
    Option.Rel Sim (m.padWitnesses sels dt₁) (m.padWitnesses sels dt₂) := by
  cases m with
  | keccak =>
    refine optionRel_foldlM (fun dt₁ dt₂ s h => ?_) sels dt₁ dt₂ h
    unfold DecomposedKeccakTrace.padStep
    rw [h.inCircuit_eq s]
    cases dt₂.inCircuit s with
    | none => exact .none
    | some b =>
      cases b
      · exact .some h
      · exact h.padDummyStep s
  | mips => exact optionRel_foldlM (fun _ _ s h => h.padDummyStep s) sels dt₁ dt₂ h

variable [Zero F] [One F]

/-- **Every call respects `Sim`**, and returns the same value on related states. -/
theorem Sim.stepOut (h : dt₁.Sim dt₂) (m : Machine Sel E Lk Env) (sels : List Sel)
    (selIdx : Sel → Nat) (op : Op L Sel F) :
    Option.Rel (SameOut Sim) (stepOut m sels selIdx dt₁ op) (stepOut m sels selIdx dt₂ op) := by
  cases op with
  | pushRow s row => exact optionRel_sameOut_none (h.update s fun _ _ ht => ht.pushRow row)
  | padWithRow s row =>
    exact optionRel_sameOut_some (h.padIfInCircuit s fun _ _ ht => ht.padWithRow row)
  | padWithZeros s =>
    exact optionRel_sameOut_some (h.padIfInCircuit s fun _ _ ht => ht.padWithZeros)
  | padDummy s => exact optionRel_sameOut_some (h.padIfInCircuit s fun _ _ ht => ht.padDummy)
  | reset s => exact optionRel_sameOut_none (h.update s fun _ _ ht => ht.clearWitness)
  | setSelectorColumn s k =>
    refine optionRel_sameOut_none ?_
    show Option.Rel Sim (setSelectorColumn _ _ _ _ _) (setSelectorColumn _ _ _ _ _)
    unfold setSelectorColumn
    split
    · exact h.update s fun _ _ ht => ht.extendSelectorColumns _ _ _
    · exact .some h
  | padWitnesses => exact optionRel_sameOut_none (h.padWitnesses m sels)

theorem Sim.runOut (m : Machine Sel E Lk Env) (sels : List Sel) (selIdx : Sel → Nat) :
    ∀ (ops : List (Op L Sel F)) {dt₁ dt₂ : DecomposedTrace L Sel F E Lk}, dt₁.Sim dt₂ →
      Option.Rel (SameOut Sim) (runOut m sels selIdx dt₁ ops) (runOut m sels selIdx dt₂ ops)
  | [], _, _, h => .some ⟨h, rfl⟩
  | op :: ops, _, _, h =>
    optionRel_bind (h.stepOut m sels selIdx op) fun _ _ hp =>
      optionRel_bind (Sim.runOut m sels selIdx ops hp.1) fun _ _ hq =>
        .some ⟨hq.1, by rw [hp.2, hq.2]⟩

/-- **`reset` gives a fresh sub-trace.**  In every state reached from `new`, `reset(s)` on a
key `s` clears the sub-trace of `s`, keeps its constraints and lookups and every other
sub-trace, and the state it leaves cannot be told apart from the one with a sub-trace fresh
from `init` in place of `s`'s: every later sequence of calls, on any selectors, returns the
same values and leaves the same columns, with the same entries, in every sub-trace. -/
theorem reset_fresh (m : Machine Sel E Lk Env) (sels : List Sel) (selIdx : Sel → Nat) (d : Nat)
    (env : Env) (ops₀ : List (Op L Sel F)) (dt : DecomposedTrace L Sel F E Lk)
    (hrun : run m sels selIdx (m.new sels d env).1 ops₀ = some dt) (s : Sel) (hs : s ∈ sels) :
    ∃ t, dt.trace s = some t ∧ dt.reset s = some (dt.insert s t.clearWitness) ∧
      t.clearWitness.constraints = t.constraints ∧ t.clearWitness.lookups = t.lookups ∧
      (∀ s' ≠ s, (dt.insert s t.clearWitness).trace s' = dt.trace s') ∧
      ∀ ops : List (Op L Sel F),
        (runOut m sels selIdx (dt.insert s t.clearWitness) ops).map (fun r => (r.1.columns, r.2)) =
          (runOut m sels selIdx (dt.insert s (Trace.init d t.constraints t.lookups)) ops).map
            (fun r => (r.1.columns, r.2)) := by
  have hinv := (Inv.new m sels d env).after_run m selIdx hrun
  obtain ⟨t, ht⟩ := hinv.trace_of_mem hs
  refine ⟨t, ht, update_of_trace _ _ _ ht, rfl, rfl, fun s' hs' => insert_trace_of_ne _ _ _ hs',
    fun ops => ?_⟩
  exact map_eq_of_optionRel
    (Sim.runOut m sels selIdx ops ((Sim.refl dt).insert s (hinv.wf s t ht).sim_clearWitness))
    fun _ _ hp => by rw [hp.1.columns_eq, hp.2]

/-- Two selectors, one row pushed to the first. -/
theorem reset_fresh_one_push :
    let m : Machine Bool Unit Unit Unit := .keccak (fun _ => []) (fun _ => []) id
    let selIdx : Bool → Nat := fun b => if b then 2 else 1
    let t : Trace ⟨1, 1, Nat.one_pos⟩ Nat Unit Unit := (Trace.init 2 [] []).pushRow fun _ => 3
    let dt : DecomposedTrace ⟨1, 1, Nat.one_pos⟩ Bool Nat Unit Unit :=
      (m.new [false, true] 2 ()).1.insert false t
    run m [false, true] selIdx (m.new [false, true] 2 ()).1 [.pushRow false fun _ => 3] =
      some dt ∧ false ∈ [false, true] ∧
    ∃ t, dt.trace false = some t ∧ dt.reset false = some (dt.insert false t.clearWitness) ∧
      t.clearWitness.constraints = t.constraints ∧ t.clearWitness.lookups = t.lookups ∧
      (∀ s' ≠ false, (dt.insert false t.clearWitness).trace s' = dt.trace s') ∧
      ∀ ops : List (Op ⟨1, 1, Nat.one_pos⟩ Bool Nat),
        (runOut m [false, true] selIdx (dt.insert false t.clearWitness) ops).map
            (fun r => (r.1.columns, r.2)) =
          (runOut m [false, true] selIdx (dt.insert false (Trace.init 2 t.constraints t.lookups))
            ops).map (fun r => (r.1.columns, r.2)) :=
  ⟨rfl, by decide,
    reset_fresh (.keccak (fun _ => []) (fun _ => []) id : Machine Bool Unit Unit Unit)
    [false, true] (fun b => if b then 2 else 1) 2 () [.pushRow false fun _ => 3]
    (((Machine.keccak (fun _ => []) (fun _ => []) id : Machine Bool Unit Unit Unit).new
      [false, true] 2 ()).1.insert false ((Trace.init 2 [] []).pushRow fun _ => 3))
    (by rfl) false (by decide)⟩

end DecomposedTrace

end O1vm
end ProofSystems
