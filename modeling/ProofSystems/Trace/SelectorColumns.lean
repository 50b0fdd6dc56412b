import ProofSystems.Trace.Invariant

/-!
# Selector columns

The last `N - N_REL` columns of a sub-trace are its selector columns.  While a sub-trace is
filled they are meant to stay empty: `push_row`, `pad_with_row` and `pad_dummy` write the
relation columns only, `reset` clears every column, and `set_selector_column` runs once after
relation padding, appending `number_of_rows` entries to each selector column: ones in the
selector's own column, zeros in the others.

`pad_with_zeros` is the exception.  The `Tracer` documentation says that it "does not add
selector columns", but both instantiations extend every one of the `N` columns of
`self.witness.cols` with the zeros, so a sub-trace that is not full gains selector entries.

**Results.**
* `selectorColumns_frame`: `push_row`, `pad_with_row` and `pad_dummy` keep the selector
  columns of a trace, and every run of these calls and `pad_witnesses` keeps those of a
  decomposed trace.
* `padWithZeros_adds_selector_entries`: after one row of two, `pad_with_zeros` adds a zero
  to the selector column.
* `setSelectorColumn_one_hot`: on a sub-trace filled by rows, pads and resets, relation
  padding followed by `set_selector_column` gives full columns and a one-hot selector block,
  and `set_selector_column` touches nothing else.
* `padWithZeros_setSelectorColumn`: on such a sub-trace, zero padding followed by
  `set_selector_column` leaves the padding's zeros in front of every selector column, so the
  block is one-hot only when the sub-trace was already full.
-/

namespace ProofSystems
namespace O1vm

variable {L : Layout} {Sel F E Lk Env : Type}

namespace Trace

variable {d : Nat} {t t' : Trace L F E Lk} {row : Fin L.nRel → F} {k : Nat}

/-- The selector columns `N_REL..N` of a trace. -/
def selectorColumns (t : Trace L F E Lk) : Fin L.nSel → RustVec F := fun j => t.witness (L.sel j)

/-- No selector column has an entry. -/
def SelectorsEmpty (t : Trace L F E Lk) : Prop := ∀ j, (t.witness (L.sel j)).data = []

@[simp] theorem selectorColumns_pushRow (t : Trace L F E Lk) (row : Fin L.nRel → F) :
    (t.pushRow row).selectorColumns = t.selectorColumns :=
  funext (pushRow_witness_sel t row)

theorem selectorColumns_of_padWithRow (h : t.padWithRow row = some (t', k)) :
    t'.selectorColumns = t.selectorColumns := by
  unfold padWithRow at h
  split at h
  · cases h; exact funext (iterate_pushRow_sel t row _)
  · cases h

theorem selectorColumns_of_padDummy (h : t.padDummy = some (t', k)) :
    t'.selectorColumns = t.selectorColumns := by
  obtain ⟨x, -, hx⟩ := Option.bind_eq_some.mp h
  exact selectorColumns_of_padWithRow hx

theorem SelectorsEmpty.of_selectorColumns (h : t.SelectorsEmpty)
    (he : t'.selectorColumns = t.selectorColumns) : t'.SelectorsEmpty := fun j => by
  rw [show t'.witness (L.sel j) = t.witness (L.sel j) from congrFun he j]
  exact h j

theorem SelectorsEmpty.init (cs : List E) (lks : List Lk) :
    (Trace.init d cs lks : Trace L F E Lk).SelectorsEmpty :=
  fun _ => rfl

theorem SelectorsEmpty.clearWitness (t : Trace L F E Lk) : t.clearWitness.SelectorsEmpty :=
  fun _ => rfl

theorem WF.numberOfRows_iterate_pushRow (h : t.WF d) (row : Fin L.nRel → F) (k : Nat) :
    ((fun t => t.pushRow row)^[k] t).numberOfRows =
      t.numberOfRows + min k (d - t.numberOfRows) := by
  rw [numberOfRows, h.iterate_pushRow_rel]
  simp [h.length_rel]

/-- Relation padding of a well-formed trace fills it. -/
theorem WF.numberOfRows_of_padWithRow (h : t.WF d) (ht : t.padWithRow row = some (t', k)) :
    t'.numberOfRows = d := by
  rw [padWithRow_of_room h.room, Option.some.injEq, Prod.mk.injEq] at ht
  rw [← ht.1, h.numberOfRows_iterate_pushRow, h.domainSize_eq]
  have := h.numberOfRows_le
  omega

theorem WF.numberOfRows_of_padDummy (h : t.WF d) (ht : t.padDummy = some (t', k)) :
    t'.numberOfRows = d := by
  obtain ⟨x, -, hx⟩ := Option.bind_eq_some.mp ht
  exact h.numberOfRows_of_padWithRow hx

/-- A trace after `set_selector_column`: all `N` columns hold `d` entries, and on every row
below `d` the selector's column holds one and every other selector column zero. -/
structure OneHot [Zero F] [One F] (d index : Nat) (t : Trace L F E Lk) : Prop where
  length_eq : ∀ c, (t.witness c).data.length = d
  selector : ∀ c : Fin (L.nRel + L.nSel), L.nRel ≤ c.val → ∀ r < d,
    (t.witness c).data[r]? = some (if c.val = index then 1 else 0)

/-- On a full trace with empty selector columns, `set_selector_column` with `d` rows builds
the one-hot block. -/
theorem WF.oneHot_extendSelectorColumns [Zero F] [One F] (h : t.WF d) (hfull : t.numberOfRows = d)
    (hsel : t.SelectorsEmpty) (index : Nat) :
    (t.extendSelectorColumns L.nRel index d).OneHot d index := by
  refine ⟨fun c => ?_, fun c hc r hr => ?_⟩
  · rcases L.rel_or_sel c with ⟨i, rfl⟩ | ⟨j, rfl⟩
    · rw [extendSelectorColumns_witness_rel _ le_rfl, h.length_rel, hfull]
    · simp [extendSelectorColumns_witness_sel _ le_rfl, hsel j]
  · rcases L.rel_or_sel c with ⟨i, rfl⟩ | ⟨j, rfl⟩
    · exact absurd hc (by simp)
    · rw [extendSelectorColumns_witness_sel _ le_rfl, RustVec.data_extend, hsel j,
        List.nil_append, List.getElem?_replicate_of_lt hr, Layout.val_sel]

end Trace

namespace DecomposedTrace

variable {sels : List Sel} {d : Nat} {dt dt' : DecomposedTrace L Sel F E Lk} {s : Sel}

/-- The selector columns of every sub-trace. -/
def selectorColumns (dt : DecomposedTrace L Sel F E Lk) : Sel → Option (Fin L.nSel → RustVec F) :=
  fun s => (dt.trace s).map Trace.selectorColumns

/-- Every sub-trace has empty selector columns. -/
def SelectorsEmpty (dt : DecomposedTrace L Sel F E Lk) : Prop :=
  ∀ s t, dt.trace s = some t → t.SelectorsEmpty

theorem SelectorsEmpty.of_selectorColumns (h : dt.SelectorsEmpty)
    (he : dt'.selectorColumns = dt.selectorColumns) : dt'.SelectorsEmpty := by
  intro s t' ht'
  have hs := congrFun he s
  simp only [selectorColumns, ht', Option.map_some'] at hs
  obtain ⟨t, ht, hst⟩ := Option.map_eq_some'.mp hs.symm
  exact (h s t ht).of_selectorColumns hst.symm

variable [DecidableEq Sel]

/-- Replacing a sub-trace by one with the same selector columns keeps them all. -/
theorem selectorColumns_insert_of_eq {t t' : Trace L F E Lk} (ht : dt.trace s = some t)
    (h : t'.selectorColumns = t.selectorColumns) :
    (dt.insert s t').selectorColumns = dt.selectorColumns := by
  funext s'
  by_cases hs : s' = s
  · subst hs; simp [selectorColumns, ht, h]
  · simp [selectorColumns, insert_trace_of_ne _ _ _ hs]

theorem selectorColumns_of_update {g : Trace L F E Lk → Trace L F E Lk}
    (hg : ∀ t, (g t).selectorColumns = t.selectorColumns) (h : dt.update s g = some dt') :
    dt'.selectorColumns = dt.selectorColumns := by
  obtain ⟨t, ht, rfl⟩ := (update_eq_some_iff dt s).mp h
  exact selectorColumns_insert_of_eq ht (hg t)

theorem selectorColumns_of_modify {α : Type} {f : Trace L F E Lk → Option (Trace L F E Lk × α)}
    (hf : ∀ t t' a, f t = some (t', a) → t'.selectorColumns = t.selectorColumns) {a : α}
    (h : dt.modify s f = some (dt', a)) : dt'.selectorColumns = dt.selectorColumns := by
  obtain ⟨t, t', ht, hft, rfl⟩ := (modify_eq_some_iff dt s).mp h
  exact selectorColumns_insert_of_eq ht (hf t t' a hft)

theorem selectorColumns_of_padIfInCircuit {f : Trace L F E Lk → Option (Trace L F E Lk × Nat)}
    (hf : ∀ t t' k, f t = some (t', k) → t'.selectorColumns = t.selectorColumns) {k : Nat}
    (h : dt.padIfInCircuit s f = some (dt', k)) : dt'.selectorColumns = dt.selectorColumns := by
  obtain ⟨t, ht, ⟨-, rfl, -⟩ | ⟨-, t', hft, rfl⟩⟩ := (padIfInCircuit_eq_some_iff dt s).mp h
  · rfl
  · exact selectorColumns_insert_of_eq ht (hf t t' k hft)

theorem selectorColumns_of_padDummy_step {opcode : Sel}
    (h : (dt.modify opcode Trace.padDummy).map Prod.fst = some dt') :
    dt'.selectorColumns = dt.selectorColumns := by
  obtain ⟨⟨dt'', k⟩, hm, rfl⟩ := Option.map_eq_some'.mp h
  exact selectorColumns_of_modify (fun _ _ _ => Trace.selectorColumns_of_padDummy) hm

theorem selectorColumns_of_keccakPadWitnesses {steps : List Sel}
    (h : DecomposedKeccakTrace.padWitnesses steps dt = some dt') :
    dt'.selectorColumns = dt.selectorColumns := by
  refine foldlM_invariant (fun dt' => dt'.selectorColumns = dt.selectorColumns)
    (fun dt₁ opcode dt₂ h₁ h => ?_) steps dt dt' rfl h
  obtain ⟨b, -, hb⟩ := Option.bind_eq_some.mp h
  cases b
  · cases hb; exact h₁
  · exact (selectorColumns_of_padDummy_step hb).trans h₁

theorem selectorColumns_of_mipsPadWitnesses {instrs : List Sel}
    (h : DecomposedMIPSTrace.padWitnesses instrs dt = some dt') :
    dt'.selectorColumns = dt.selectorColumns :=
  foldlM_invariant (fun dt' => dt'.selectorColumns = dt.selectorColumns)
    (fun _ _ _ h₁ h => (selectorColumns_of_padDummy_step h).trans h₁) instrs dt dt' rfl h

theorem SelectorsEmpty.insert (h : dt.SelectorsEmpty) {t : Trace L F E Lk}
    (ht : t.SelectorsEmpty) : (dt.insert s t).SelectorsEmpty := by
  intro s' t' h'
  by_cases hs : s' = s
  · subst hs; simp only [insert_trace_self, Option.some.injEq] at h'; exact h' ▸ ht
  · rw [insert_trace_of_ne _ _ _ hs] at h'; exact h s' t' h'

theorem SelectorsEmpty.new (m : Machine Sel E Lk Env) (sels : List Sel) (d : Nat) (env : Env) :
    ((m.new sels d env).1 : DecomposedTrace L Sel F E Lk).SelectorsEmpty :=
  (new_spec m.traceInit sels d env Trace.SelectorsEmpty fun s env => by
    obtain ⟨cs, lks, h⟩ := m.traceInit_fst (L := L) (F := F) d s env
    exact h ▸ Trace.SelectorsEmpty.init cs lks).2.2

/-- `set_selector_column` with the layout's `N_REL`, on a key, when there are selector
columns: the selector's trace gets its block. -/
theorem setSelectorColumn_of_trace [Zero F] [One F] (selIdx : Sel → Nat) {t : Trace L F E Lk}
    (ht : dt.trace s = some t) (hN : L.nRel < L.nRel + L.nSel) (k : Nat) :
    dt.setSelectorColumn L.nRel selIdx s k =
      some (dt.insert s (t.extendSelectorColumns L.nRel (selIdx s) k)) := by
  simp [setSelectorColumn, hN, update_of_trace _ _ _ ht]

/-- `set_selector_column` with the layout's `N_REL` changes no other sub-trace, and neither
the relation columns nor the constraints and lookups of the selector's own. -/
theorem setSelectorColumn_frame [Zero F] [One F] (selIdx : Sel → Nat) {k : Nat}
    (h : dt.setSelectorColumn L.nRel selIdx s k = some dt') :
    (∀ s' ≠ s, dt'.trace s' = dt.trace s') ∧
    ∀ t, dt.trace s = some t → ∃ t', dt'.trace s = some t' ∧
      (∀ i, t'.witness (L.rel i) = t.witness (L.rel i)) ∧
      t'.constraints = t.constraints ∧ t'.lookups = t.lookups := by
  unfold setSelectorColumn at h
  split at h
  · obtain ⟨t, ht, rfl⟩ := (update_eq_some_iff dt s).mp h
    refine ⟨fun s' hs => insert_trace_of_ne _ _ _ hs, fun t' ht' => ?_⟩
    cases ht.symm.trans ht'
    exact ⟨_, insert_trace_self _ _ _,
      fun i => Trace.extendSelectorColumns_witness_rel _ le_rfl i, rfl, rfl⟩
  · cases h
    exact ⟨fun _ _ => rfl, fun t ht => ⟨t, ht, fun _ => rfl, rfl, rfl⟩⟩

/-- Relation padding of an in-circuit sub-trace with empty selector columns, by a function
that acts as `pad_with_row`, followed by `set_selector_column` with `domain_size` rows. -/
theorem oneHot_of_padWithRow [Zero F] [One F] (selIdx : Sel → Nat) {t : Trace L F E Lk}
    (ht : dt.trace s = some t) (hwf : t.WF d) (hsel : t.SelectorsEmpty)
    (hn : t.numberOfRows ≠ 0) (hN : L.nRel < L.nRel + L.nSel)
    {f : Trace L F E Lk → Option (Trace L F E Lk × Nat)} {row : Fin L.nRel → F}
    (hf : f t = t.padWithRow row) :
    ∃ dt₁ k dt₂ t₂, dt.padIfInCircuit s f = some (dt₁, k) ∧ dt₁.numberOfRows s = some d ∧
      dt₁.setSelectorColumn L.nRel selIdx s d = some dt₂ ∧ dt₂.trace s = some t₂ ∧
      t₂.OneHot d (selIdx s) := by
  obtain ⟨t', k, hp⟩ : ∃ t' k, t.padWithRow row = some (t', k) :=
    ⟨_, _, Trace.padWithRow_of_room hwf.room row⟩
  have hfull := hwf.numberOfRows_of_padWithRow hp
  refine ⟨dt.insert s t', k, _, _,
    (padIfInCircuit_eq_some_iff dt s).mpr ⟨t, ht, .inr ⟨hn, t', hf ▸ hp, rfl⟩⟩,
    hfull ▸ numberOfRows_of_trace (insert_trace_self _ _ _),
    setSelectorColumn_of_trace selIdx (insert_trace_self _ _ _) hN d, insert_trace_self _ _ _,
    (hwf.padWithRow hp).oneHot_extendSelectorColumns hfull
      (hsel.of_selectorColumns (Trace.selectorColumns_of_padWithRow hp)) _⟩

end DecomposedTrace

/-- The calls that write relation columns only: `push_row`, `pad_with_row`, `pad_dummy` and
`pad_witnesses`. -/
def Op.writesRelationsOnly : Op L Sel F → Bool
  | .pushRow .. | .padWithRow .. | .padDummy _ | .padWitnesses => true
  | _ => false

/-- The calls that fill sub-traces: those that write relation columns only, and `reset`. -/
def Op.fills : Op L Sel F → Bool
  | .reset _ => true
  | op => op.writesRelationsOnly

namespace DecomposedTrace

variable {sels : List Sel} {d : Nat} {dt dt' : DecomposedTrace L Sel F E Lk} {s : Sel}
variable [DecidableEq Sel] [Zero F] [One F]

theorem selectorColumns_step (m : Machine Sel E Lk Env) (selIdx : Sel → Nat) {op : Op L Sel F}
    (hop : op.writesRelationsOnly) (h : step m sels selIdx dt op = some dt') :
    dt'.selectorColumns = dt.selectorColumns := by
  cases op
  case pushRow s row => exact selectorColumns_of_update (fun t => t.selectorColumns_pushRow row) h
  case padWithRow s row =>
    obtain ⟨⟨_, _⟩, hp, rfl⟩ := Option.map_eq_some'.mp h
    exact selectorColumns_of_padIfInCircuit (fun _ _ _ => Trace.selectorColumns_of_padWithRow) hp
  case padDummy s =>
    obtain ⟨⟨_, _⟩, hp, rfl⟩ := Option.map_eq_some'.mp h
    exact selectorColumns_of_padIfInCircuit (fun _ _ _ => Trace.selectorColumns_of_padDummy) hp
  case padWitnesses =>
    cases m with
    | keccak => exact selectorColumns_of_keccakPadWitnesses h
    | mips => exact selectorColumns_of_mipsPadWitnesses h
  all_goals exact absurd hop Bool.false_ne_true

theorem selectorColumns_run (m : Machine Sel E Lk Env) (selIdx : Sel → Nat)
    {ops : List (Op L Sel F)} (hops : ∀ op ∈ ops, op.writesRelationsOnly)
    (h : run m sels selIdx dt ops = some dt') : dt'.selectorColumns = dt.selectorColumns :=
  foldlM_invariant_of_mem (fun dt' => dt'.selectorColumns = dt.selectorColumns) ops
    (fun _ op _ hop h₁ h => (selectorColumns_step m selIdx (hops op hop) h).trans h₁) dt dt' rfl h

theorem SelectorsEmpty.after_step (hsel : dt.SelectorsEmpty) (m : Machine Sel E Lk Env)
    (selIdx : Sel → Nat) {op : Op L Sel F} (hop : op.fills)
    (h : step m sels selIdx dt op = some dt') : dt'.SelectorsEmpty := by
  cases op with
  | reset s =>
    obtain ⟨t, -, rfl⟩ := (update_eq_some_iff dt s).mp h
    exact hsel.insert (Trace.SelectorsEmpty.clearWitness t)
  | _ =>
    refine hsel.of_selectorColumns (selectorColumns_step m selIdx ?_ h)
    exact hop

/-- After a run of filling calls from `new`, the protocol invariant holds and every selector
column is empty. -/
theorem Inv.selectorsEmpty_of_run (m : Machine Sel E Lk Env) (selIdx : Sel → Nat) (env : Env)
    {ops : List (Op L Sel F)} (hops : ∀ op ∈ ops, op.fills)
    (hrun : run m sels selIdx (m.new sels d env).1 ops = some dt) :
    Inv sels d dt ∧ dt.SelectorsEmpty :=
  foldlM_invariant_of_mem (fun dt => Inv sels d dt ∧ dt.SelectorsEmpty) ops
    (fun _ op _ hop hI h => ⟨hI.1.after_step m selIdx h, hI.2.after_step m selIdx (hops op hop) h⟩)
    _ dt ⟨Inv.new m sels d env, SelectorsEmpty.new m sels d env⟩ hrun

/-- **Calls that write relation columns keep the selector columns.**  On a trace,
`push_row`, `pad_with_row` and `pad_dummy` leave the selector columns as they are, and so does
every run of `push_row`, `pad_with_row`, `pad_dummy` and `pad_witnesses` calls on a decomposed
trace, on either machine. -/
theorem selectorColumns_frame (t : Trace L F E Lk) (row : Fin L.nRel → F)
    (m : Machine Sel E Lk Env) (sels : List Sel) (selIdx : Sel → Nat) (ops : List (Op L Sel F))
    (dt dt' : DecomposedTrace L Sel F E Lk) (hops : ∀ op ∈ ops, op.writesRelationsOnly)
    (h : run m sels selIdx dt ops = some dt') :
    (t.pushRow row).selectorColumns = t.selectorColumns ∧
    (∀ t' k, t.padWithRow row = some (t', k) → t'.selectorColumns = t.selectorColumns) ∧
    (∀ t' k, t.padDummy = some (t', k) → t'.selectorColumns = t.selectorColumns) ∧
    dt'.selectorColumns = dt.selectorColumns :=
  ⟨t.selectorColumns_pushRow row, fun _ _ => Trace.selectorColumns_of_padWithRow,
    fun _ _ => Trace.selectorColumns_of_padDummy, selectorColumns_run m selIdx hops h⟩

/-- **`pad_with_zeros` adds selector entries.**  From `new` with two selectors and domain size
`2`, one row pushed to the first selector and then `pad_with_zeros` on it: the selector column
of that trace goes from empty to one zero. -/
theorem padWithZeros_adds_selector_entries :
    let m : Machine Bool Unit Unit Unit := .keccak (fun _ => []) (fun _ => []) id
    let selIdx : Bool → Nat := fun b => if b then 2 else 1
    let dt : DecomposedTrace ⟨1, 1, Nat.one_pos⟩ Bool Nat Unit Unit := (m.new [false, true] 2 ()).1
    ((run m [false, true] selIdx dt [.pushRow false fun _ => 3]).bind
        fun dt => (dt.selectorColumns false).map fun cols => (cols 0).data) = some [] ∧
    ((run m [false, true] selIdx dt [.pushRow false fun _ => 3, .padWithZeros false]).bind
        fun dt => (dt.selectorColumns false).map fun cols => (cols 0).data) = some [0] :=
  ⟨rfl, rfl⟩

/-- One row pushed to the first of two selectors. -/
theorem selectorColumns_frame_one_push :
    let m : Machine Bool Unit Unit Unit := .keccak (fun _ => []) (fun _ => []) id
    let t : Trace ⟨1, 1, Nat.one_pos⟩ Nat Unit Unit := Trace.init 2 [] []
    let dt : DecomposedTrace ⟨1, 1, Nat.one_pos⟩ Bool Nat Unit Unit := (m.new [false, true] 2 ()).1
    let dt' : DecomposedTrace ⟨1, 1, Nat.one_pos⟩ Bool Nat Unit Unit :=
      dt.insert false (t.pushRow fun _ => 3)
    (∀ op ∈ ([.pushRow false fun _ => 3] : List (Op ⟨1, 1, Nat.one_pos⟩ Bool Nat)),
      op.writesRelationsOnly) ∧
    run m [false, true] (fun b => if b then 2 else 1) dt [.pushRow false fun _ => 3] = some dt' ∧
    (t.pushRow fun _ => 5).selectorColumns = t.selectorColumns ∧
    (∀ t' k, t.padWithRow (fun _ => 5) = some (t', k) → t'.selectorColumns = t.selectorColumns) ∧
    (∀ t' k, t.padDummy = some (t', k) → t'.selectorColumns = t.selectorColumns) ∧
    dt'.selectorColumns = dt.selectorColumns :=
  ⟨by decide, rfl, selectorColumns_frame _ _
    (.keccak (fun _ => []) (fun _ => []) id : Machine Bool Unit Unit Unit) [false, true]
    (fun b => if b then 2 else 1) [.pushRow false fun _ => 3] _ _ (by decide) rfl⟩

/-- **`set_selector_column` after relation padding.**  Let `dt` be reached from `new` by
`push_row`, `pad_with_row`, `pad_dummy`, `pad_witnesses` and `reset` calls, and let `s` be a
selector with a row, whose index lies in `N_REL..N`.  Then `pad_dummy(s)`, or
`pad_with_row(s, row)` for any row, brings `s` to `domain_size` rows, and
`set_selector_column` with that row count gives every column of `s` exactly `domain_size`
entries and a one-hot selector block.  `set_selector_column` leaves every other sub-trace, and
the relation columns, constraints and lookups of `s`, as they were. -/
theorem setSelectorColumn_one_hot (m : Machine Sel E Lk Env) (sels : List Sel)
    (selIdx : Sel → Nat) (d : Nat) (env : Env) (ops : List (Op L Sel F))
    (dt : DecomposedTrace L Sel F E Lk) (hops : ∀ op ∈ ops, op.fills)
    (hrun : run m sels selIdx (m.new sels d env).1 ops = some dt) (s : Sel) (hs : s ∈ sels)
    (n : Nat) (hn : dt.numberOfRows s = some n) (hpos : 1 ≤ n)
    (hidx : L.nRel ≤ selIdx s ∧ selIdx s < L.nRel + L.nSel) :
    (∃ dt₁ k dt₂ t₂, dt.padDummy s = some (dt₁, k) ∧ dt₁.numberOfRows s = some d ∧
      dt₁.setSelectorColumn L.nRel selIdx s d = some dt₂ ∧ dt₂.trace s = some t₂ ∧
      t₂.OneHot d (selIdx s)) ∧
    (∀ row, ∃ dt₁ k dt₂ t₂, dt.padWithRow s row = some (dt₁, k) ∧
      dt₁.numberOfRows s = some d ∧ dt₁.setSelectorColumn L.nRel selIdx s d = some dt₂ ∧
      dt₂.trace s = some t₂ ∧ t₂.OneHot d (selIdx s)) ∧
    ∀ (dt₁ : DecomposedTrace L Sel F E Lk) k dt₂,
      dt₁.setSelectorColumn L.nRel selIdx s k = some dt₂ →
      (∀ s' ≠ s, dt₂.trace s' = dt₁.trace s') ∧
      ∀ t₁, dt₁.trace s = some t₁ → ∃ t₂, dt₂.trace s = some t₂ ∧
        (∀ i, t₂.witness (L.rel i) = t₁.witness (L.rel i)) ∧
        t₂.constraints = t₁.constraints ∧ t₂.lookups = t₁.lookups := by
  obtain ⟨hinv, hsel⟩ := Inv.selectorsEmpty_of_run m selIdx env hops hrun
  obtain ⟨t, ht⟩ := hinv.trace_of_mem hs
  have hwf := hinv.wf s t ht
  have hrows : t.numberOfRows ≠ 0 := by
    rw [numberOfRows_of_trace ht, Option.some.injEq] at hn; omega
  have hN : L.nRel < L.nRel + L.nSel := by omega
  obtain ⟨x, -, -, hpad⟩ := Trace.padDummy_of_room hwf.room (Nat.one_le_iff_ne_zero.mpr hrows)
  exact ⟨oneHot_of_padWithRow selIdx ht hwf (hsel s t ht) hrows hN hpad,
    fun row => oneHot_of_padWithRow selIdx ht hwf (hsel s t ht) hrows hN rfl,
    fun _ _ _ => setSelectorColumn_frame selIdx⟩

/-- One row pushed to the first of two selectors, of index `1` in a layout with one relation
and one selector column. -/
theorem setSelectorColumn_one_hot_one_push :
    let m : Machine Bool Unit Unit Unit := .keccak (fun _ => []) (fun _ => []) id
    let selIdx : Bool → Nat := fun b => if b then 2 else 1
    let dt : DecomposedTrace ⟨1, 1, Nat.one_pos⟩ Bool Nat Unit Unit :=
      (m.new [false, true] 2 ()).1.insert false ((Trace.init 2 [] []).pushRow fun _ => 3)
    (∀ op ∈ ([.pushRow false fun _ => 3] : List (Op ⟨1, 1, Nat.one_pos⟩ Bool Nat)), op.fills) ∧
    run m [false, true] selIdx (m.new [false, true] 2 ()).1 [.pushRow false fun _ => 3] =
      some dt ∧
    false ∈ [false, true] ∧ dt.numberOfRows false = some 1 ∧ 1 ≤ 1 ∧
    (1 ≤ selIdx false ∧ selIdx false < 1 + 1) ∧
    (∃ dt₁ k dt₂ t₂, dt.padDummy false = some (dt₁, k) ∧ dt₁.numberOfRows false = some 2 ∧
      dt₁.setSelectorColumn 1 selIdx false 2 = some dt₂ ∧ dt₂.trace false = some t₂ ∧
      t₂.OneHot 2 (selIdx false)) ∧
    (∀ row, ∃ dt₁ k dt₂ t₂, dt.padWithRow false row = some (dt₁, k) ∧
      dt₁.numberOfRows false = some 2 ∧ dt₁.setSelectorColumn 1 selIdx false 2 = some dt₂ ∧
      dt₂.trace false = some t₂ ∧ t₂.OneHot 2 (selIdx false)) ∧
    ∀ (dt₁ : DecomposedTrace ⟨1, 1, Nat.one_pos⟩ Bool Nat Unit Unit) k dt₂,
      dt₁.setSelectorColumn 1 selIdx false k = some dt₂ →
      (∀ s' ≠ false, dt₂.trace s' = dt₁.trace s') ∧
      ∀ t₁, dt₁.trace false = some t₁ → ∃ t₂, dt₂.trace false = some t₂ ∧
        (∀ i, t₂.witness (Layout.rel _ i) = t₁.witness (Layout.rel _ i)) ∧
        t₂.constraints = t₁.constraints ∧ t₂.lookups = t₁.lookups :=
  ⟨by decide, rfl, by decide, rfl, le_rfl, by decide,
    setSelectorColumn_one_hot (.keccak (fun _ => []) (fun _ => []) id : Machine Bool Unit Unit Unit)
      [false, true]
      (fun b => if b then 2 else 1) 2 () [.pushRow false fun _ => 3]
      (((Machine.keccak (fun _ => []) (fun _ => []) id : Machine Bool Unit Unit Unit).new
        [false, true] 2 ()).1.insert false ((Trace.init 2 [] []).pushRow fun _ => 3))
      (by decide) (by rfl) false (by decide) 1 rfl le_rfl (by decide)⟩

/-- **Zero padding before `set_selector_column`.**  Let `dt` be reached from `new` by
`push_row`, `pad_with_row`, `pad_dummy`, `pad_witnesses` and `reset` calls, and let `s` be a
selector with `n ≥ 1` rows, whose index lies in `N_REL..N`.  Then `pad_with_zeros(s)` returns
`domain_size - n`, and `set_selector_column` with `domain_size` rows leaves each selector
column of `s` holding the `domain_size - n` zeros of the padding followed by the column's
`domain_size` entries of the block: the selector block is one-hot exactly when `s` was
already full. -/
theorem padWithZeros_setSelectorColumn (m : Machine Sel E Lk Env) (sels : List Sel)
    (selIdx : Sel → Nat) (d : Nat) (env : Env) (ops : List (Op L Sel F))
    (dt : DecomposedTrace L Sel F E Lk) (hops : ∀ op ∈ ops, op.fills)
    (hrun : run m sels selIdx (m.new sels d env).1 ops = some dt) (s : Sel) (hs : s ∈ sels)
    (n : Nat) (hn : dt.numberOfRows s = some n) (hpos : 1 ≤ n)
    (hidx : L.nRel ≤ selIdx s ∧ selIdx s < L.nRel + L.nSel) :
    ∃ dt₁ dt₂ t₂, dt.padWithZeros s = some (dt₁, d - n) ∧
      dt₁.setSelectorColumn L.nRel selIdx s d = some dt₂ ∧ dt₂.trace s = some t₂ ∧
      (∀ j, (t₂.witness (L.sel j)).data = List.replicate (d - n) 0 ++
        List.replicate d (if L.nRel + j.val = selIdx s then 1 else 0)) ∧
      (t₂.OneHot d (selIdx s) ↔ n = d) := by
  obtain ⟨hinv, hsel⟩ := Inv.selectorsEmpty_of_run m selIdx env hops hrun
  obtain ⟨t, ht⟩ := hinv.trace_of_mem hs
  have hwf := hinv.wf s t ht
  have htn : t.numberOfRows = n := Option.some.inj ((numberOfRows_of_trace ht).symm.trans hn)
  set t' : Trace L F E Lk :=
    { t with witness := fun c => (t.witness c).extend (List.replicate (d - n) 0) }
  have hk : t.domainSize - t.numberOfRows = d - n := by rw [hwf.domainSize_eq, htn]
  have hpad : t.padWithZeros = some (t', d - n) := by
    rw [Trace.padWithZeros_of_le t (hwf.domainSize_eq ▸ hwf.numberOfRows_le), hk]
  have hsel' : ∀ j, ((t'.extendSelectorColumns L.nRel (selIdx s) d).witness (L.sel j)).data =
      List.replicate (d - n) 0 ++
        List.replicate d (if L.nRel + j.val = selIdx s then 1 else 0) := fun j => by
    simp [t', Trace.extendSelectorColumns_witness_sel _ le_rfl, hsel s t ht j]
  refine ⟨dt.insert s t', _, _,
    (padIfInCircuit_eq_some_iff dt s).mpr ⟨t, ht, .inr ⟨by omega, t', hpad, rfl⟩⟩,
    setSelectorColumn_of_trace selIdx (insert_trace_self _ _ _) (by omega) d,
    insert_trace_self _ _ _, hsel', ⟨fun h1 => ?_, fun hnd => ?_⟩⟩
  · -- a selector column of the block has `domain_size - n` entries too many
    have hlen := h1.length_eq (L.sel ⟨selIdx s - L.nRel, by omega⟩)
    rw [hsel', List.length_append, List.length_replicate, List.length_replicate] at hlen
    have := hwf.numberOfRows_le
    omega
  · -- full: the padding adds nothing, and the block is built on empty selector columns
    have hfull : t'.numberOfRows = d := by
      show ((t.witness (L.rel L.first)).extend (List.replicate (d - n) 0)).len = d
      rw [RustVec.len, RustVec.data_extend, List.length_append, hwf.length_rel, htn,
        List.length_replicate, hnd, Nat.sub_self, Nat.add_zero]
    refine (hwf.padWithZeros hpad).oneHot_extendSelectorColumns hfull (fun j => ?_) _
    simp [t', hsel s t ht j, hnd]

/-- One row of two pushed to the first of two selectors: its selector column becomes
`[0, 1, 1]`, and the block is not one-hot. -/
theorem padWithZeros_setSelectorColumn_one_push :
    let m : Machine Bool Unit Unit Unit := .keccak (fun _ => []) (fun _ => []) id
    let selIdx : Bool → Nat := fun b => if b then 2 else 1
    let dt : DecomposedTrace ⟨1, 1, Nat.one_pos⟩ Bool Nat Unit Unit :=
      (m.new [false, true] 2 ()).1.insert false ((Trace.init 2 [] []).pushRow fun _ => 3)
    (∀ op ∈ ([.pushRow false fun _ => 3] : List (Op ⟨1, 1, Nat.one_pos⟩ Bool Nat)), op.fills) ∧
    run m [false, true] selIdx (m.new [false, true] 2 ()).1 [.pushRow false fun _ => 3] =
      some dt ∧
    false ∈ [false, true] ∧ dt.numberOfRows false = some 1 ∧ 1 ≤ 1 ∧
    (1 ≤ selIdx false ∧ selIdx false < 1 + 1) ∧
    ∃ dt₁ dt₂ t₂, dt.padWithZeros false = some (dt₁, 2 - 1) ∧
      dt₁.setSelectorColumn 1 selIdx false 2 = some dt₂ ∧ dt₂.trace false = some t₂ ∧
      (∀ j, (t₂.witness (Layout.sel _ j)).data = List.replicate (2 - 1) 0 ++
        List.replicate 2 (if 1 + j.val = selIdx false then 1 else 0)) ∧
      (t₂.OneHot 2 (selIdx false) ↔ 1 = 2) :=
  ⟨by decide, rfl, by decide, rfl, le_rfl, by decide,
    padWithZeros_setSelectorColumn
      (.keccak (fun _ => []) (fun _ => []) id : Machine Bool Unit Unit Unit) [false, true]
      (fun b => if b then 2 else 1) 2 () [.pushRow false fun _ => 3]
      (((Machine.keccak (fun _ => []) (fun _ => []) id : Machine Bool Unit Unit Unit).new
        [false, true] 2 ()).1.insert false ((Trace.init 2 [] []).pushRow fun _ => 3))
      (by decide) (by rfl) false (by decide) 1 rfl le_rfl (by decide)⟩

end DecomposedTrace

end O1vm
end ProofSystems
