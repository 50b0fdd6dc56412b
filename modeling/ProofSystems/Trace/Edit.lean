import ProofSystems.Trace.Decomposed

/-!
# What a call can do to a decomposed trace

Every call of the protocol changes a decomposed trace by replacing sub-traces, one key at a
time, with the result of one of the six operations of `Trace` that the implementations call:
`push_row`, `pad_with_row`, `pad_with_zeros`, `pad_dummy`, the `Vec::clear` of `reset`, and
the extension of the selector columns `N_REL..N` in `set_selector_column`.  `pad_witnesses`
makes one replacement per selector it pads; every other call makes at most one.

None of the six operations touches the part of a sub-trace that describes its circuit: the
domain size, the constraints and the lookups (`Trace.circuit`).  A replacement at a key keeps
the key set and the shared domain size.  So every property of a run that depends only on
these fields follows from one induction over chains of edits, whatever the calls were.

**Results.**
* `step_edits`, `run_edits`: every call, and every run, is a chain of edits.
* `edits_circuit`: along a chain of edits the shared domain size is kept, and every key keeps
  the circuit of its sub-trace; no key is added or removed.
* `run_circuit`: the same for every run.
-/

namespace ProofSystems
namespace O1vm

variable {L : Layout} {Sel F E Lk Env : Type}

namespace Trace

/-- The part of a trace that describes its circuit: `domain_size`, `constraints` and
`lookups`. -/
def circuit (t : Trace L F E Lk) : Nat × List E × List Lk :=
  (t.domainSize, t.constraints, t.lookups)

@[simp] theorem circuit_pushRow (t : Trace L F E Lk) (row : Fin L.nRel → F) :
    (t.pushRow row).circuit = t.circuit := rfl

theorem circuit_iterate_pushRow (t : Trace L F E Lk) (row : Fin L.nRel → F) (k : Nat) :
    ((fun t => t.pushRow row)^[k] t).circuit = t.circuit := by
  induction k with
  | zero => rfl
  | succ k ih => rw [Function.iterate_succ_apply', circuit_pushRow, ih]

theorem circuit_of_padWithRow {t t' : Trace L F E Lk} {row : Fin L.nRel → F} {k : Nat}
    (h : t.padWithRow row = some (t', k)) : t'.circuit = t.circuit := by
  unfold padWithRow at h
  split at h
  · cases h
    exact circuit_iterate_pushRow t row _
  · cases h

variable [Zero F] [One F]

/-- The operations of `Trace` that the protocol applies to a sub-trace, as a relation between
the trace before and after. -/
inductive Edit : Trace L F E Lk → Trace L F E Lk → Prop
  | pushRow (t : Trace L F E Lk) (row : Fin L.nRel → F) : Edit t (t.pushRow row)
  | padWithRow {t t' : Trace L F E Lk} {row : Fin L.nRel → F} {k : Nat}
      (h : t.padWithRow row = some (t', k)) : Edit t t'
  | padWithZeros {t t' : Trace L F E Lk} {k : Nat} (h : t.padWithZeros = some (t', k)) : Edit t t'
  | padDummy {t t' : Trace L F E Lk} {k : Nat} (h : t.padDummy = some (t', k)) : Edit t t'
  | clearWitness (t : Trace L F E Lk) : Edit t t.clearWitness
  | extendSelectorColumns (t : Trace L F E Lk) (index numberOfRows : Nat) :
      Edit t (t.extendSelectorColumns L.nRel index numberOfRows)

/-- No edit changes the circuit of a trace. -/
theorem Edit.circuit_eq {t t' : Trace L F E Lk} (h : t.Edit t') : t'.circuit = t.circuit := by
  cases h with
  | pushRow => rfl
  | padWithRow h => exact circuit_of_padWithRow h
  | padWithZeros h =>
    unfold Trace.padWithZeros at h
    split at h
    · cases h; rfl
    · cases h
  | padDummy h =>
    obtain ⟨row, -, h⟩ := Option.bind_eq_some.mp h
    exact circuit_of_padWithRow h
  | clearWitness => rfl
  | extendSelectorColumns => rfl

end Trace

namespace DecomposedTrace

variable [DecidableEq Sel] [Zero F] [One F]

/-- One edit of a decomposed trace: the sub-trace of a key replaced by an edit of it. -/
def Edit (dt dt' : DecomposedTrace L Sel F E Lk) : Prop :=
  ∃ s t t', dt.trace s = some t ∧ t.Edit t' ∧ dt' = dt.insert s t'

variable {dt dt' : DecomposedTrace L Sel F E Lk} {s : Sel}

/-- An edit keeps the domain size and the circuit at every key. -/
theorem Edit.circuit_eq (h : dt.Edit dt') :
    dt'.domainSize = dt.domainSize ∧
      ∀ s', (dt'.trace s').map Trace.circuit = (dt.trace s').map Trace.circuit := by
  obtain ⟨s, t, t', ht, he, rfl⟩ := h
  refine ⟨rfl, fun s' => ?_⟩
  by_cases hs : s' = s
  · subst hs
    rw [insert_trace_self, ht, Option.map_some', Option.map_some', he.circuit_eq]
  · rw [insert_trace_of_ne _ _ _ hs]

/-- **Chains of edits.**  Along any chain of edits the shared domain size is kept, and every
key keeps the circuit of its sub-trace; in particular no key is added or removed. -/
theorem edits_circuit (h : Relation.ReflTransGen Edit dt dt') :
    dt'.domainSize = dt.domainSize ∧
      ∀ s', (dt'.trace s').map Trace.circuit = (dt.trace s').map Trace.circuit := by
  induction h with
  | refl => exact ⟨rfl, fun _ => rfl⟩
  | tail _ he ih =>
    obtain ⟨hd, hc⟩ := he.circuit_eq
    exact ⟨hd.trans ih.1, fun s' => (hc s').trans (ih.2 s')⟩

theorem edits_of_update {g : Trace L F E Lk → Trace L F E Lk} (hg : ∀ t, Trace.Edit t (g t))
    (h : dt.update s g = some dt') : Relation.ReflTransGen Edit dt dt' := by
  obtain ⟨t, ht, rfl⟩ := (update_eq_some_iff dt s).mp h
  exact .single ⟨s, t, _, ht, hg t, rfl⟩

theorem edits_of_modify {α : Type} {f : Trace L F E Lk → Option (Trace L F E Lk × α)}
    (hf : ∀ t t' a, f t = some (t', a) → t.Edit t') {a : α} (h : dt.modify s f = some (dt', a)) :
    Relation.ReflTransGen Edit dt dt' := by
  obtain ⟨t, t', ht, hft, rfl⟩ := (modify_eq_some_iff dt s).mp h
  exact .single ⟨s, t, t', ht, hf t t' a hft, rfl⟩

theorem edits_of_padIfInCircuit {f : Trace L F E Lk → Option (Trace L F E Lk × Nat)}
    (hf : ∀ t t' k, f t = some (t', k) → t.Edit t') {k : Nat}
    (h : dt.padIfInCircuit s f = some (dt', k)) : Relation.ReflTransGen Edit dt dt' := by
  obtain ⟨t, ht, ⟨-, rfl, -⟩ | ⟨-, t', hft, rfl⟩⟩ := (padIfInCircuit_eq_some_iff dt s).mp h
  · exact .refl
  · exact .single ⟨s, t, t', ht, hf t t' k hft, rfl⟩

theorem edits_of_padDummy_step {opcode : Sel}
    (h : (dt.modify opcode Trace.padDummy).map Prod.fst = some dt') :
    Relation.ReflTransGen Edit dt dt' := by
  obtain ⟨⟨_, _⟩, hm, rfl⟩ := Option.map_eq_some'.mp h
  exact edits_of_modify (fun _ _ _ => .padDummy) hm

theorem edits_of_keccakPadWitnesses {steps : List Sel}
    (h : DecomposedKeccakTrace.padWitnesses steps dt = some dt') :
    Relation.ReflTransGen Edit dt dt' := by
  refine foldlM_invariant (Relation.ReflTransGen Edit dt) (fun dt₁ opcode dt₂ h₁ h₂ => ?_) steps
    dt dt' .refl h
  obtain ⟨b, -, hb⟩ := Option.bind_eq_some.mp h₂
  cases b
  · cases hb; exact h₁
  · exact h₁.trans (edits_of_padDummy_step hb)

theorem edits_of_mipsPadWitnesses {instrs : List Sel}
    (h : DecomposedMIPSTrace.padWitnesses instrs dt = some dt') :
    Relation.ReflTransGen Edit dt dt' :=
  foldlM_invariant (Relation.ReflTransGen Edit dt)
    (fun _ _ _ h₁ h₂ => h₁.trans (edits_of_padDummy_step h₂)) instrs dt dt' .refl h

/-- **Every call is a chain of edits.** -/
theorem step_edits (m : Machine Sel E Lk Env) (sels : List Sel) (selIdx : Sel → Nat)
    {op : Op L Sel F} (h : step m sels selIdx dt op = some dt') :
    Relation.ReflTransGen Edit dt dt' := by
  cases op with
  | pushRow s row => exact edits_of_update (fun t => .pushRow t row) h
  | padWithRow s row =>
    obtain ⟨⟨_, _⟩, hp, rfl⟩ := Option.map_eq_some'.mp h
    exact edits_of_padIfInCircuit (fun _ _ _ => .padWithRow) hp
  | padWithZeros s =>
    obtain ⟨⟨_, _⟩, hp, rfl⟩ := Option.map_eq_some'.mp h
    exact edits_of_padIfInCircuit (fun _ _ _ => .padWithZeros) hp
  | padDummy s =>
    obtain ⟨⟨_, _⟩, hp, rfl⟩ := Option.map_eq_some'.mp h
    exact edits_of_padIfInCircuit (fun _ _ _ => .padDummy) hp
  | reset s => exact edits_of_update .clearWitness h
  | setSelectorColumn s k =>
    simp only [O1vm.step, DecomposedTrace.setSelectorColumn] at h
    split at h
    · exact edits_of_update (fun t => Trace.Edit.extendSelectorColumns t _ _) h
    · cases h; exact .refl
  | padWitnesses =>
    cases m with
    | keccak => exact edits_of_keccakPadWitnesses h
    | mips => exact edits_of_mipsPadWitnesses h

/-- **Every run is a chain of edits.** -/
theorem run_edits (m : Machine Sel E Lk Env) (sels : List Sel) (selIdx : Sel → Nat)
    {ops : List (Op L Sel F)} (h : run m sels selIdx dt ops = some dt') :
    Relation.ReflTransGen Edit dt dt' :=
  foldlM_invariant (Relation.ReflTransGen Edit dt)
    (fun _ _ _ h₁ h₂ => h₁.trans (step_edits m sels selIdx h₂)) ops dt dt' .refl h

/-- **What no call changes.**  Every run of calls, from any decomposed trace and on either
machine, keeps the shared domain size, the key set, and the domain size, constraints and
lookups of every sub-trace. -/
theorem run_circuit (m : Machine Sel E Lk Env) (sels : List Sel) (selIdx : Sel → Nat)
    (dt : DecomposedTrace L Sel F E Lk) (ops : List (Op L Sel F))
    (dt' : DecomposedTrace L Sel F E Lk)
    (h : run m sels selIdx dt ops = some dt') :
    dt'.domainSize = dt.domainSize ∧
      ∀ s', (dt'.trace s').map Trace.circuit = (dt.trace s').map Trace.circuit :=
  edits_circuit (run_edits m sels selIdx h)

/-- A row pushed to a Keccak step, which is then reset. -/
theorem run_circuit_push_reset :
    let m : Machine Bool Unit Unit Unit := .keccak (fun _ => [()]) (fun _ => []) id
    let dt : DecomposedTrace ⟨1, 1, Nat.one_pos⟩ Bool Nat Unit Unit := (m.new [false, true] 2 ()).1
    ∃ dt', run m [false, true] (fun b => if b then 2 else 1) dt
        [.pushRow false fun _ => 3, .reset false] = some dt' ∧
      dt'.domainSize = dt.domainSize ∧
      ∀ s', (dt'.trace s').map Trace.circuit = (dt.trace s').map Trace.circuit := by
  intro m dt
  exact ⟨_, rfl, run_circuit m [false, true] (fun b => if b then 2 else 1) dt
    [.pushRow false fun _ => 3, .reset false] _ (by rfl)⟩

end DecomposedTrace

end O1vm
end ProofSystems
