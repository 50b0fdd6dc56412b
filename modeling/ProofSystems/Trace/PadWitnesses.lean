import ProofSystems.Trace.SelectorColumns

/-!
# `pad_witnesses`

Both instantiations call `pad_dummy` on every selector of the enumeration, one after the
other.  The Keccak loop asks `in_circuit` first and leaves a selector without rows alone; the
MIPS loop does not ask, and `pad_dummy` on a trace without rows reads row `0` of an empty
column.

**Keccak.**  One iteration replaces the step's trace by `dummyPadded`: the trace itself when
it has no row, its padding with its first row otherwise.  On well-formed traces `dummyPadded`
is idempotent, so the loop pads every enumerated selector once, whatever the order and the
repetitions of the enumeration, and a second call changes nothing.  The MIPS loop body does
the same on a trace with a row, so `Inv.foldlM_padStep` serves both loops.

**MIPS.**  One selector without rows makes the loop panic, since the iterations before it
leave its trace alone; right after `new` no selector has a row.

**Results.**
* `keccak_padWitnesses_spec`: after any run of filling calls, Keccak `pad_witnesses` returns;
  it fills every selector that has a row, leaves every other one empty, and a second call
  changes nothing.
* `mips_padWitnesses_spec`: in the same states, MIPS `pad_witnesses` returns exactly when
  every instruction has a row, and then returns what the Keccak loop returns.
* `mips_padWitnesses_new_eq_none`: MIPS `pad_witnesses` right after `new` panics.
-/

namespace ProofSystems
namespace O1vm

variable {L : Layout} {Sel F E Lk Env : Type}

namespace Trace

variable {d : Nat} {t : Trace L F E Lk}

/-- The trace after one iteration of the Keccak loop: unchanged without a row, padded by
`pad_dummy` otherwise. -/
def dummyPadded (t : Trace L F E Lk) : Trace L F E Lk :=
  if t.numberOfRows = 0 then t else (t.padDummy.map Prod.fst).getD t

theorem dummyPadded_of_zero (h : t.numberOfRows = 0) : t.dummyPadded = t := if_pos h

theorem WF.padDummy_eq (h : t.WF d) (hn : t.numberOfRows ≠ 0) :
    t.padDummy = some (t.dummyPadded, d - t.numberOfRows) := by
  obtain ⟨x, -, -, hpad⟩ := padDummy_of_room h.room (Nat.one_le_iff_ne_zero.mpr hn)
  rw [dummyPadded, if_neg hn, hpad, padWithRow_of_room h.room]
  simp only [Option.map_some', Option.getD_some, h.domainSize_eq]

theorem WF.dummyPadded (h : t.WF d) : t.dummyPadded.WF d := by
  by_cases hn : t.numberOfRows = 0
  · rwa [dummyPadded_of_zero hn]
  · exact h.padDummy (h.padDummy_eq hn)

theorem WF.numberOfRows_dummyPadded (h : t.WF d) (hn : t.numberOfRows ≠ 0) :
    t.dummyPadded.numberOfRows = d :=
  h.numberOfRows_of_padDummy (h.padDummy_eq hn)

/-- A full trace is its own padding. -/
theorem WF.dummyPadded_of_full (h : t.WF d) (hfull : t.numberOfRows = d) : t.dummyPadded = t := by
  by_cases hn : t.numberOfRows = 0
  · exact dummyPadded_of_zero hn
  · obtain ⟨x, -, -, hpad⟩ := padDummy_of_room h.room (Nat.one_le_iff_ne_zero.mpr hn)
    rw [Trace.dummyPadded, if_neg hn, hpad, padWithRow_of_room h.room, h.domainSize_eq, hfull,
      Nat.sub_self]
    rfl

theorem WF.dummyPadded_dummyPadded (h : t.WF d) : t.dummyPadded.dummyPadded = t.dummyPadded := by
  by_cases hn : t.numberOfRows = 0
  · rw [dummyPadded_of_zero hn, dummyPadded_of_zero hn]
  · exact h.dummyPadded.dummyPadded_of_full (h.numberOfRows_dummyPadded hn)

end Trace

namespace DecomposedTrace

variable {sels : List Sel} {d : Nat} {dt dt' : DecomposedTrace L Sel F E Lk} {s : Sel}
variable [DecidableEq Sel]

/-- The Keccak loop body pads the step's trace when it has a row and leaves it otherwise. -/
theorem keccakPadStep_of_trace {t : Trace L F E Lk} (ht : dt.trace s = some t) (hwf : t.WF d) :
    DecomposedKeccakTrace.padStep dt s = some (dt.insert s t.dummyPadded) := by
  by_cases hn : t.numberOfRows = 0
  · simp [DecomposedKeccakTrace.padStep, inCircuit_of_trace ht, hn, Trace.dummyPadded_of_zero hn,
      insert_eq_self _ _ _ ht]
  · simp [DecomposedKeccakTrace.padStep, inCircuit_of_trace ht, hn, modify_of_trace _ _ _ ht,
      hwf.padDummy_eq hn]

/-- The MIPS loop body agrees with the Keccak one on a trace with a row. -/
theorem mipsPadStep_of_trace {t : Trace L F E Lk} (ht : dt.trace s = some t) (hwf : t.WF d)
    (hn : t.numberOfRows ≠ 0) :
    DecomposedMIPSTrace.padStep dt s = some (dt.insert s t.dummyPadded) := by
  simp [DecomposedMIPSTrace.padStep, modify_of_trace _ _ _ ht, hwf.padDummy_eq hn]

/-- The MIPS loop body panics on a trace without rows. -/
theorem mipsPadStep_eq_none (h : dt.numberOfRows s = some 0) :
    DecomposedMIPSTrace.padStep dt s = none := by
  obtain ⟨t, ht, h0⟩ := Option.map_eq_some'.mp h
  simp [DecomposedMIPSTrace.padStep, modify_of_trace _ _ _ ht, Trace.padDummy,
    Trace.firstRow_eq_none _ h0]

theorem mipsPadStep_trace_of_ne {o : Sel} (h : DecomposedMIPSTrace.padStep dt o = some dt')
    (hs : s ≠ o) : dt'.trace s = dt.trace s := by
  obtain ⟨⟨dt'', k⟩, hm, rfl⟩ := Option.map_eq_some'.mp h
  obtain ⟨t, t', -, -, rfl⟩ := (modify_eq_some_iff dt o).mp hm
  exact insert_trace_of_ne _ _ _ hs

/-- The decomposed trace after padding the selectors of `steps` once each. -/
def padAll (steps : List Sel) (dt : DecomposedTrace L Sel F E Lk) : DecomposedTrace L Sel F E Lk :=
  ⟨dt.domainSize, fun s => if s ∈ steps then (dt.trace s).map Trace.dummyPadded else dt.trace s⟩

/-- A loop whose body pads the current selector's trace with `dummyPadded`, on traces
satisfying a condition `C` that padding keeps, pads every selector of the list once. -/
theorem Inv.foldlM_padStep (C : Trace L F E Lk → Prop)
    (hC : ∀ t : Trace L F E Lk, t.WF d → C t → C t.dummyPadded)
    {g : DecomposedTrace L Sel F E Lk → Sel → Option (DecomposedTrace L Sel F E Lk)}
    (hg : ∀ dt s t, Inv sels d dt → dt.trace s = some t → C t →
      g dt s = some (dt.insert s t.dummyPadded)) :
    ∀ (steps : List Sel) (dt : DecomposedTrace L Sel F E Lk), Inv sels d dt →
      (∀ s ∈ steps, s ∈ sels) → (∀ s ∈ steps, ∀ t, dt.trace s = some t → C t) →
      steps.foldlM g dt = some (padAll steps dt)
  | [], dt, _, _, _ => by simp [padAll]
  | o :: rest, dt, hinv, hmem, hcond => by
    obtain ⟨t, ht⟩ := hinv.trace_of_mem (hmem o (List.mem_cons_self o rest))
    have hwf := hinv.wf o t ht
    have hrest := Inv.foldlM_padStep C hC hg rest (dt.insert o t.dummyPadded)
      (hinv.after_insert ht hwf.dummyPadded) (fun s hs => hmem s (List.mem_cons_of_mem o hs))
      (fun s hs t' ht' => by
        by_cases hso : s = o
        · subst hso
          simp only [insert_trace_self, Option.some.injEq] at ht'
          exact ht' ▸ hC t hwf (hcond s (List.mem_cons_self s rest) t ht)
        · rw [insert_trace_of_ne _ _ _ hso] at ht'
          exact hcond s (List.mem_cons_of_mem o hs) t' ht')
    simp only [List.foldlM_cons, hg dt o t hinv ht (hcond o (List.mem_cons_self o rest) t ht),
      Option.bind_eq_bind, Option.some_bind, hrest, Option.some.injEq]
    refine DecomposedTrace.ext rfl (funext fun s => ?_)
    by_cases hso : s = o
    · subst hso
      simp [padAll, ht, hwf.dummyPadded_dummyPadded]
    · simp [padAll, insert_trace_of_ne _ _ _ hso, hso]

theorem Inv.keccakPadWitnesses_eq (hinv : Inv sels d dt) (steps : List Sel)
    (hmem : ∀ s ∈ steps, s ∈ sels) :
    DecomposedKeccakTrace.padWitnesses steps dt = some (padAll steps dt) :=
  Inv.foldlM_padStep (fun _ => True) (fun _ _ _ => trivial)
    (fun _ _ _ hinv ht _ => keccakPadStep_of_trace ht (hinv.wf _ _ ht)) steps dt hinv hmem
    fun _ _ _ _ => trivial

theorem Inv.mipsPadWitnesses_eq (hinv : Inv sels d dt) (instrs : List Sel)
    (hmem : ∀ s ∈ instrs, s ∈ sels) (hrows : ∀ s ∈ instrs, dt.numberOfRows s ≠ some 0) :
    DecomposedMIPSTrace.padWitnesses instrs dt = some (padAll instrs dt) :=
  Inv.foldlM_padStep (fun t => t.numberOfRows ≠ 0)
    (fun t hwf hn => show t.dummyPadded.numberOfRows ≠ 0 by
      rw [hwf.numberOfRows_dummyPadded hn]; have := hwf.numberOfRows_le; omega)
    (fun _ _ _ hinv ht hn => mipsPadStep_of_trace ht (hinv.wf _ _ ht) hn) instrs dt hinv hmem
    fun s hs t ht h0 => hrows s hs (by rw [numberOfRows_of_trace ht, h0])

/-- One selector without rows, anywhere in the enumeration, makes the MIPS loop panic. -/
theorem mipsPadWitnesses_eq_none :
    ∀ (instrs : List Sel) (dt : DecomposedTrace L Sel F E Lk), s ∈ instrs →
      dt.numberOfRows s = some 0 → DecomposedMIPSTrace.padWitnesses instrs dt = none
  | [], _, hs, _ => absurd hs (List.not_mem_nil s)
  | o :: rest, dt, hs, h0 => by
    simp only [DecomposedMIPSTrace.padWitnesses, List.foldlM_cons, Option.bind_eq_bind]
    by_cases hso : s = o
    · subst hso
      rw [mipsPadStep_eq_none h0]
      rfl
    · cases hstep : DecomposedMIPSTrace.padStep dt o with
      | none => rfl
      | some dt₁ =>
        refine mipsPadWitnesses_eq_none rest dt₁ (List.mem_of_ne_of_mem hso hs) ?_
        simpa only [numberOfRows, mipsPadStep_trace_of_ne hstep hso] using h0

/-- Padding twice pads once. -/
theorem Inv.padAll_padAll (hinv : Inv sels d dt) (steps : List Sel) :
    padAll steps (padAll steps dt) = padAll steps dt := by
  refine DecomposedTrace.ext rfl (funext fun s => ?_)
  by_cases hs : s ∈ steps
  · cases ht : dt.trace s with
    | none => simp [padAll, hs, ht]
    | some t => simp [padAll, hs, ht, (hinv.wf s t ht).dummyPadded_dummyPadded]
  · simp [padAll, hs]

/-- **MIPS `pad_witnesses` right after `new` panics**, for every non-empty instruction
enumeration, domain size and environment: the first instruction has no row, and `pad_dummy`
reads row `0` of its empty columns. -/
theorem mips_padWitnesses_new_eq_none (interp : Interpreter Env Sel E Lk) (s : Sel)
    (rest : List Sel) (d : Nat) (env : Env) :
    DecomposedMIPSTrace.padWitnesses (s :: rest)
      (((Machine.mips interp).new (s :: rest) d env).1 : DecomposedTrace L Sel F E Lk) = none := by
  obtain ⟨-, hk, h0⟩ := new_spec (Machine.mips interp).traceInit (s :: rest) d env
    (fun t : Trace L F E Lk => t.numberOfRows = 0) fun s env => by
      obtain ⟨cs, lks, h⟩ := (Machine.mips interp).traceInit_fst (L := L) (F := F) d s env
      rw [h]; rfl
  obtain ⟨t, ht⟩ := Option.isSome_iff_exists.mp ((hk s).mpr (List.mem_cons_self s rest))
  exact mipsPadWitnesses_eq_none _ _ (List.mem_cons_self s rest)
    ((numberOfRows_of_trace ht).trans (congrArg some (h0 s t ht)))

variable [Zero F] [One F]

/-- **Keccak `pad_witnesses`.**  After any run of filling calls from `new` on the Keccak
machine, `pad_witnesses` returns.  Every selector with a row is then full, with `domain_size`
entries in each relation column; every selector without rows is still out of the circuit,
with all its columns empty; and a second call changes nothing. -/
theorem keccak_padWitnesses_spec (constraintsOf : Sel → List E) (lookupsOf : Sel → List Lk)
    (standardize : Sel → Sel) (sels : List Sel) (selIdx : Sel → Nat) (d : Nat) (env : Env)
    (ops : List (Op L Sel F)) (dt : DecomposedTrace L Sel F E Lk) (hops : ∀ op ∈ ops, op.fills)
    (hrun : run (.keccak constraintsOf lookupsOf standardize : Machine Sel E Lk Env) sels selIdx
      ((Machine.keccak constraintsOf lookupsOf standardize).new sels d env).1 ops = some dt) :
    ∃ dt', DecomposedKeccakTrace.padWitnesses sels dt = some dt' ∧
      (∀ s ∈ sels, ∀ n, dt.numberOfRows s = some n →
        (1 ≤ n → dt'.isFull s = some true ∧
          ∀ t', dt'.trace s = some t' → ∀ i, (t'.witness (L.rel i)).data.length = d) ∧
        (n = 0 → dt'.inCircuit s = some false ∧
          ∀ t', dt'.trace s = some t' → ∀ c, (t'.witness c).data = [])) ∧
      DecomposedKeccakTrace.padWitnesses sels dt' = some dt' := by
  obtain ⟨hinv, hsel⟩ := Inv.selectorsEmpty_of_run _ selIdx env hops hrun
  have heq := hinv.keccakPadWitnesses_eq sels fun _ h => h
  refine ⟨_, heq, fun s hs n hn => ?_, by
    rw [(hinv.after_edits (edits_of_keccakPadWitnesses heq)).keccakPadWitnesses_eq sels
        fun _ h => h,
      hinv.padAll_padAll]⟩
  obtain ⟨t, ht⟩ := hinv.trace_of_mem hs
  have hwf := hinv.wf s t ht
  have ht' : (padAll sels dt).trace s = some t.dummyPadded := by simp [padAll, hs, ht]
  rw [numberOfRows_of_trace ht, Option.some.injEq] at hn
  subst hn
  refine ⟨fun hpos => ?_, fun h0 => ?_⟩
  · have hfull := hwf.numberOfRows_dummyPadded (by omega)
    refine ⟨by rw [isFull_of_trace ht', hfull]; simp [padAll, hinv.domainSize_eq],
      fun t' h' i => ?_⟩
    cases ht'.symm.trans h'
    rw [hwf.dummyPadded.length_rel, hfull]
  · rw [Trace.dummyPadded_of_zero h0] at ht'
    refine ⟨by simp [inCircuit_of_trace ht', h0], fun t' h' c => ?_⟩
    cases ht'.symm.trans h'
    rcases L.rel_or_sel c with ⟨i, rfl⟩ | ⟨j, rfl⟩
    · exact List.length_eq_zero.mp ((hwf.length_rel i).trans h0)
    · exact hsel s t ht j

/-- One row pushed to the first of two steps. -/
theorem keccak_padWitnesses_spec_one_push :
    let m : Machine Bool Unit Unit Unit := .keccak (fun _ => []) (fun _ => []) id
    let dt : DecomposedTrace ⟨1, 1, Nat.one_pos⟩ Bool Nat Unit Unit :=
      (m.new [false, true] 2 ()).1.insert false ((Trace.init 2 [] []).pushRow fun _ => 3)
    (∀ op ∈ ([.pushRow false fun _ => 3] : List (Op ⟨1, 1, Nat.one_pos⟩ Bool Nat)), op.fills) ∧
    run m [false, true] (fun b => if b then 2 else 1) (m.new [false, true] 2 ()).1
        [.pushRow false fun _ => 3] = some dt ∧
    ∃ dt', DecomposedKeccakTrace.padWitnesses [false, true] dt = some dt' ∧
      (∀ s ∈ [false, true], ∀ n, dt.numberOfRows s = some n →
        (1 ≤ n → dt'.isFull s = some true ∧
          ∀ t', dt'.trace s = some t' → ∀ i, (t'.witness (Layout.rel _ i)).data.length = 2) ∧
        (n = 0 → dt'.inCircuit s = some false ∧
          ∀ t', dt'.trace s = some t' → ∀ c, (t'.witness c).data = [])) ∧
      DecomposedKeccakTrace.padWitnesses [false, true] dt' = some dt' :=
  ⟨by decide, rfl, keccak_padWitnesses_spec (fun _ => []) (fun _ => []) id [false, true]
    (fun b => if b then 2 else 1) 2 () [.pushRow false fun _ => 3] _ (by decide) (by rfl)⟩

/-- **MIPS `pad_witnesses`.**  After any run of filling calls from `new` on the MIPS machine,
`pad_witnesses` panics as soon as one instruction has no row, and otherwise returns what the
Keccak loop returns. -/
theorem mips_padWitnesses_spec (interp : Interpreter Env Sel E Lk) (sels : List Sel)
    (selIdx : Sel → Nat) (d : Nat) (env : Env) (ops : List (Op L Sel F))
    (dt : DecomposedTrace L Sel F E Lk) (hops : ∀ op ∈ ops, op.fills)
    (hrun : run (.mips interp) sels selIdx ((Machine.mips interp).new sels d env).1 ops = some dt) :
    ((∃ s ∈ sels, dt.numberOfRows s = some 0) →
      DecomposedMIPSTrace.padWitnesses sels dt = none) ∧
    ((∀ s ∈ sels, dt.numberOfRows s ≠ some 0) →
      DecomposedMIPSTrace.padWitnesses sels dt = DecomposedKeccakTrace.padWitnesses sels dt) := by
  have hinv := (Inv.selectorsEmpty_of_run _ selIdx env hops hrun).1
  exact ⟨fun ⟨s, hs, h0⟩ => mipsPadWitnesses_eq_none sels dt hs h0, fun hrows => by
    rw [hinv.mipsPadWitnesses_eq sels (fun _ h => h) hrows,
      hinv.keccakPadWitnesses_eq sels fun _ h => h]⟩

/-- An interpreter that collects nothing, and one row pushed to the first of two
instructions. -/
theorem mips_padWitnesses_spec_one_push :
    let interp : Interpreter Unit Bool Unit Unit := ⟨fun e _ => e, fun _ => [], fun _ => [], id⟩
    let dt : DecomposedTrace ⟨1, 1, Nat.one_pos⟩ Bool Nat Unit Unit :=
      ((Machine.mips interp).new [false, true] 2 ()).1.insert false
        ((Trace.init 2 [] []).pushRow fun _ => 3)
    (∀ op ∈ ([.pushRow false fun _ => 3] : List (Op ⟨1, 1, Nat.one_pos⟩ Bool Nat)), op.fills) ∧
    run (.mips interp) [false, true] (fun b => if b then 2 else 1)
        ((Machine.mips interp).new [false, true] 2 ()).1 [.pushRow false fun _ => 3] = some dt ∧
    ((∃ s ∈ [false, true], dt.numberOfRows s = some 0) →
      DecomposedMIPSTrace.padWitnesses [false, true] dt = none) ∧
    ((∀ s ∈ [false, true], dt.numberOfRows s ≠ some 0) →
      DecomposedMIPSTrace.padWitnesses [false, true] dt =
        DecomposedKeccakTrace.padWitnesses [false, true] dt) :=
  ⟨by decide, rfl, mips_padWitnesses_spec ⟨fun e _ => e, fun _ => [], fun _ => [], id⟩
    [false, true] (fun b => if b then 2 else 1) 2 () [.pushRow false fun _ => 3] _ (by decide)
    (by rfl)⟩

end DecomposedTrace

end O1vm
end ProofSystems
