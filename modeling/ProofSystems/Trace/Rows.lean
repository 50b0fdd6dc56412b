import ProofSystems.Trace.Reset

/-!
# The trace builder as a table of rows

What the trace builder is for, stated without columns, capacities or `Vec`s: every selector
that is a key owns a list of relation rows, at most `domain_size` of them (`RowTable`).

* `push_row` appends the row unless the selector already has `domain_size` rows;
* `pad_with_row`, `pad_with_zeros` and `pad_dummy` leave a selector without rows alone and
  return `0`; otherwise they fill it up to `domain_size` rows with the given row, the zero row
  or its first row, and return how many rows they added;
* `reset` forgets the rows of a selector;
* `set_selector_column` writes selector columns only, which the table does not record;
* `pad_witnesses` applies `pad_dummy` to every selector of the enumeration: the Keccak loop
  skips the selectors without rows, the MIPS loop does not, and panics on them.

Every call on a selector that is not a key panics, except `set_selector_column` on a layout
without selector columns, whose loop is empty.

`Trace.Represents d t rows` says that relation column `i` of the sub-trace `t` is column `i` of
`rows`, and that `t` is well formed for the domain size `d`.  A decomposed trace `Refines` a
table when every key holds a sub-trace that represents the key's rows.

**Results.**
* `Refines.stepOut`: on a decomposed trace that refines a table, every call of the code panics
  exactly when the table's call panics, returns the same value, and leaves a decomposed trace
  that refines the table's result.
* `runOut_refines`: every run from `new`, on either machine, is a run of the table from the
  table of `new`, with the same values returned and the same panics.
-/

namespace ProofSystems
namespace O1vm

variable {L : Layout} {Sel F E Lk Env : Type}

/-- The abstract state of the trace builder: the domain size and, for every selector that is
a key, its relation rows. -/
structure RowTable (L : Layout) (Sel F : Type) where
  domainSize : Nat
  rows : Sel → Option (List (Fin L.nRel → F))

/-- Whether the machine's `pad_witnesses` checks `in_circuit` before `pad_dummy`. -/
def Machine.checksInCircuit : Machine Sel E Lk Env → Bool
  | .keccak .. => true
  | .mips _ => false

namespace RowTable

/-- `rows` filled up to `d` rows with `row`. -/
def fill (d : Nat) (rows : List (Fin L.nRel → F)) (row : Fin L.nRel → F) : List (Fin L.nRel → F) :=
  rows ++ List.replicate (d - rows.length) row

variable [DecidableEq Sel]

/-- The table with the rows of `s` replaced. -/
def set (rt : RowTable L Sel F) (s : Sel) (rows : List (Fin L.nRel → F)) : RowTable L Sel F :=
  { rt with rows := Function.update rt.rows s (some rows) }

/-- The table of `new`: no rows for every selector of the enumeration, and no other key. -/
def new (sels : List Sel) (d : Nat) : RowTable L Sel F :=
  ⟨d, fun s => if s ∈ sels then some [] else none⟩

/-- `push_row`: the row is appended unless the selector has `domain_size` rows. -/
def pushRow (rt : RowTable L Sel F) (s : Sel) (row : Fin L.nRel → F) : Option (RowTable L Sel F) :=
  (rt.rows s).map fun rows =>
    rt.set s (if rows.length < rt.domainSize then rows ++ [row] else rows)

/-- The three padding calls: a selector without rows is left alone and `0` is returned;
otherwise its rows are filled up to `domain_size` with the row `pick` chooses from the first
one, and the number of rows added is returned. -/
def pad (rt : RowTable L Sel F) (s : Sel) (pick : (Fin L.nRel → F) → Fin L.nRel → F) :
    Option (RowTable L Sel F × Nat) :=
  (rt.rows s).map fun
    | [] => (rt, 0)
    | r :: rows =>
      (rt.set s (fill rt.domainSize (r :: rows) (pick r)), rt.domainSize - (r :: rows).length)

/-- `reset`: the selector has no rows any more. -/
def reset (rt : RowTable L Sel F) (s : Sel) : Option (RowTable L Sel F) :=
  (rt.rows s).map fun _ => rt.set s []

/-- `set_selector_column`: the rows do not change; the call panics on a selector that is not a
key when the layout has selector columns. -/
def setSelectorColumn (rt : RowTable L Sel F) (s : Sel) : Option (RowTable L Sel F) :=
  if 0 < L.nSel then (rt.rows s).map fun _ => rt else some rt

/-- One iteration of `pad_witnesses`: `pad_dummy` on a selector with rows; a selector without
rows is skipped when the loop checks `in_circuit`, and panics otherwise. -/
def padStep (checksInCircuit : Bool) (rt : RowTable L Sel F) (s : Sel) :
    Option (RowTable L Sel F) :=
  (rt.rows s).bind fun
    | [] => if checksInCircuit then some rt else none
    | r :: rows => some (rt.set s (fill rt.domainSize (r :: rows) r))

/-- `pad_witnesses`: one iteration per selector of the enumeration. -/
def padWitnesses (checksInCircuit : Bool) (sels : List Sel) (rt : RowTable L Sel F) :
    Option (RowTable L Sel F) :=
  sels.foldlM (padStep checksInCircuit) rt

/-- One call, with the value it returns. -/
def stepOut [Zero F] (checksInCircuit : Bool) (sels : List Sel) (rt : RowTable L Sel F) :
    Op L Sel F → Option (RowTable L Sel F × Option Nat)
  | .pushRow s row => (rt.pushRow s row).map fun rt => (rt, none)
  | .padWithRow s row => (rt.pad s fun _ => row).map fun r => (r.1, some r.2)
  | .padWithZeros s => (rt.pad s fun _ => 0).map fun r => (r.1, some r.2)
  | .padDummy s => (rt.pad s id).map fun r => (r.1, some r.2)
  | .reset s => (rt.reset s).map fun rt => (rt, none)
  | .setSelectorColumn s _ => (rt.setSelectorColumn s).map fun rt => (rt, none)
  | .padWitnesses => (rt.padWitnesses checksInCircuit sels).map fun rt => (rt, none)

/-- A sequence of calls with the values they return; `none` when one of them panics. -/
def runOut [Zero F] (checksInCircuit : Bool) (sels : List Sel) :
    RowTable L Sel F → List (Op L Sel F) → Option (RowTable L Sel F × List (Option Nat))
  | rt, [] => some (rt, [])
  | rt, op :: ops => do
    let (rt', out) ← rt.stepOut checksInCircuit sels op
    let (rt'', outs) ← runOut checksInCircuit sels rt' ops
    pure (rt'', out :: outs)

section Lemmas

variable (rt : RowTable L Sel F) (s : Sel) (rows : List (Fin L.nRel → F))

@[simp] theorem domainSize_set : (rt.set s rows).domainSize = rt.domainSize := rfl

@[simp] theorem rows_set_self : (rt.set s rows).rows s = some rows := by simp [set]

theorem rows_set_of_ne {s' : Sel} (h : s' ≠ s) : (rt.set s rows).rows s' = rt.rows s' := by
  simp [set, h]

/-- Putting back the rows a key already has changes nothing. -/
theorem set_eq_self (h : rt.rows s = some rows) : rt.set s rows = rt := by
  simp only [set, ← h, Function.update_eq_self]

end Lemmas

end RowTable

namespace Trace

/-- The sub-trace `t` holds the relation rows `rows`: it is well formed for the domain size
`d`, and its relation column `i` is the column `i` of `rows`. -/
structure Represents (d : Nat) (t : Trace L F E Lk) (rows : List (Fin L.nRel → F)) : Prop where
  wf : t.WF d
  rel : ∀ i, (t.witness (L.rel i)).data = rows.map fun row => row i

variable {d : Nat} {t : Trace L F E Lk} {rows : List (Fin L.nRel → F)}

theorem Represents.numberOfRows_eq (h : t.Represents d rows) : t.numberOfRows = rows.length := by
  rw [numberOfRows, RustVec.len_eq, h.rel, List.length_map]

theorem Represents.init (d : Nat) (cs : List E) (lks : List Lk) :
    (Trace.init d cs lks : Trace L F E Lk).Represents d [] :=
  ⟨WF.init cs lks, fun _ => rfl⟩

/-- `push_row` appends the row below `domain_size` rows and changes nothing from there on. -/
theorem Represents.pushRow (h : t.Represents d rows) (row : Fin L.nRel → F) :
    (t.pushRow row).Represents d (if rows.length < d then rows ++ [row] else rows) := by
  refine ⟨h.wf.pushRow row, fun i => ?_⟩
  have hlen : (t.witness (L.rel i)).len = rows.length := by
    rw [RustVec.len_eq, h.rel, List.length_map]
  rw [pushRow_witness_rel, pushIfRoom, hlen, h.wf.capacity_rel]
  split_ifs <;> simp [h.rel]

/-- `pad_with_row` fills the rows up to `domain_size` with the row. -/
theorem Represents.padWithRow (h : t.Represents d rows) (row : Fin L.nRel → F) :
    ∃ t', t.padWithRow row = some (t', d - rows.length) ∧
      t'.Represents d (RowTable.fill d rows row) := by
  have hroom : t.Room rows.length := h.numberOfRows_eq ▸ h.wf.room
  have hd := h.wf.domainSize_eq
  have hpad : t.padWithRow row =
      some ((fun t => t.pushRow row)^[d - rows.length] t, d - rows.length) := by
    rw [padWithRow_of_room hroom row, hd]
  refine ⟨_, hpad, h.wf.padWithRow hpad, fun i => ?_⟩
  have hcol := padded_rel hroom row i
  rw [hd] at hcol
  rw [hcol, RustVec.data_extend, h.rel, RowTable.fill, List.map_append, List.map_replicate]

/-- `pad_with_zeros` fills the rows up to `domain_size` with the zero row. -/
theorem Represents.padWithZeros [Zero F] (h : t.Represents d rows) :
    ∃ t', t.padWithZeros = some (t', d - rows.length) ∧
      t'.Represents d (RowTable.fill d rows 0) := by
  have hd := h.wf.domainSize_eq
  have hpad := padWithZeros_of_le t (h.wf.numberOfRows_le.trans_eq hd.symm)
  rw [h.numberOfRows_eq, hd] at hpad
  refine ⟨_, hpad, h.wf.padWithZeros hpad, fun i => ?_⟩
  simp [h.rel, RowTable.fill]

theorem Represents.padDummy_nil (h : t.Represents d []) : t.padDummy = none := by
  simp [padDummy, firstRow_eq_none t h.numberOfRows_eq]

/-- With a first row, `pad_dummy` is `pad_with_row` with it. -/
theorem Represents.padDummy_cons {r : Fin L.nRel → F} (h : t.Represents d (r :: rows)) :
    t.padDummy = t.padWithRow r := by
  have hfirst : t.firstRow = some r := (relRow_eq_some_iff t).mpr fun i => by simp [h.rel]
  simp [padDummy, hfirst]

theorem Represents.clearWitness (h : t.Represents d rows) : t.clearWitness.Represents d [] :=
  ⟨h.wf.clearWitness, fun _ => rfl⟩

theorem Represents.extendSelectorColumns [Zero F] [One F] (h : t.Represents d rows)
    (index k : Nat) : (t.extendSelectorColumns L.nRel index k).Represents d rows :=
  ⟨h.wf.extendSelectorColumns le_rfl index k, fun i => by
    rw [extendSelectorColumns_witness_rel _ le_rfl]; exact h.rel i⟩

end Trace

namespace DecomposedTrace

/-- The decomposed trace `dt` holds the table `rt`, for the domain size `d`: every key of
either is a key of both, with a sub-trace that represents its rows. -/
structure Refines (d : Nat) (dt : DecomposedTrace L Sel F E Lk) (rt : RowTable L Sel F) :
    Prop where
  domainSize_eq : dt.domainSize = d
  table_domainSize_eq : rt.domainSize = d
  trace_rel : ∀ s, Option.Rel (Trace.Represents d) (dt.trace s) (rt.rows s)

variable {d : Nat} {dt : DecomposedTrace L Sel F E Lk} {rt : RowTable L Sel F}

theorem Refines.trace_cases (h : dt.Refines d rt) (s : Sel) :
    dt.trace s = none ∧ rt.rows s = none ∨
      ∃ t rows, dt.trace s = some t ∧ rt.rows s = some rows ∧ t.Represents d rows := by
  have h' := h.trace_rel s
  generalize dt.trace s = x at h' ⊢
  generalize rt.rows s = y at h' ⊢
  cases h' with
  | none => exact .inl ⟨rfl, rfl⟩
  | some ht => exact .inr ⟨_, _, rfl, rfl, ht⟩

variable [DecidableEq Sel]

theorem Refines.insert (h : dt.Refines d rt) (s : Sel) {t : Trace L F E Lk}
    {rows : List (Fin L.nRel → F)} (ht : t.Represents d rows) :
    (dt.insert s t).Refines d (rt.set s rows) := by
  refine ⟨h.domainSize_eq, h.table_domainSize_eq, fun s' => ?_⟩
  by_cases hs : s' = s
  · subst hs; simpa using Option.Rel.some ht
  · simpa only [insert_trace_of_ne _ _ _ hs, RowTable.rows_set_of_ne _ _ _ hs] using h.trace_rel s'

/-- `new` builds the table of `new`. -/
theorem refines_new (m : Machine Sel E Lk Env) (sels : List Sel) (d : Nat) (env : Env) :
    ((m.new sels d env).1 : DecomposedTrace L Sel F E Lk).Refines d (RowTable.new sels d) := by
  obtain ⟨hd, hk, hQ⟩ := new_spec m.traceInit sels d env (Trace.Represents d · []) fun s env => by
    obtain ⟨cs, lks, h⟩ := m.traceInit_fst (L := L) (F := F) d s env
    exact h ▸ Trace.Represents.init d cs lks
  have hk' : ∀ s, (((m.new sels d env).1 : DecomposedTrace L Sel F E Lk).trace s).isSome ↔
      s ∈ sels := hk
  refine ⟨hd, rfl, fun s => ?_⟩
  simp only [RowTable.new]
  cases ht : ((m.new sels d env).1 : DecomposedTrace L Sel F E Lk).trace s with
  | none => rw [if_neg (by simpa [ht] using hk' s)]; exact .none
  | some t => rw [if_pos ((hk' s).mp (by simp [ht]))]; exact .some (hQ s t ht)

theorem Refines.pushRow (h : dt.Refines d rt) (s : Sel) (row : Fin L.nRel → F) :
    Option.Rel (Refines d) (dt.pushRow s row) (rt.pushRow s row) :=
  optionRel_map (h.trace_rel s) fun _ _ ht => by
    rw [h.table_domainSize_eq]; exact h.insert s (ht.pushRow row)

theorem Refines.reset (h : dt.Refines d rt) (s : Sel) :
    Option.Rel (Refines d) (dt.reset s) (rt.reset s) :=
  optionRel_map (h.trace_rel s) fun _ _ ht => h.insert s ht.clearWitness

/-- The guarded padding calls, for a trace-level padding function that fills the rows up to
`domain_size` with the row `pick` chooses from the first one. -/
theorem Refines.padIfInCircuit (h : dt.Refines d rt) (s : Sel)
    {f : Trace L F E Lk → Option (Trace L F E Lk × Nat)}
    {pick : (Fin L.nRel → F) → Fin L.nRel → F}
    (hf : ∀ (t : Trace L F E Lk) r rows, t.Represents d (r :: rows) → ∃ t',
      f t = some (t', d - (r :: rows).length) ∧
        t'.Represents d (RowTable.fill d (r :: rows) (pick r))) :
    Option.Rel (SameOut (Refines d)) (dt.padIfInCircuit s f) (rt.pad s pick) := by
  obtain ⟨hx, hy⟩ | ⟨t, rows, hx, hy, ht⟩ := h.trace_cases s
  · rw [show dt.padIfInCircuit s f = none by
        simp [DecomposedTrace.padIfInCircuit, inCircuit, numberOfRows, hx],
      show rt.pad s pick = none by simp [RowTable.pad, hy]]
    exact .none
  cases rows with
  | nil =>
    rw [show dt.padIfInCircuit s f = some (dt, 0) by
        simp [DecomposedTrace.padIfInCircuit, inCircuit_of_trace hx, ht.numberOfRows_eq],
      show rt.pad s pick = some (rt, 0) by simp [RowTable.pad, hy]]
    exact .some ⟨h, rfl⟩
  | cons r rows =>
    obtain ⟨t', hft, ht'⟩ := hf t r rows ht
    rw [show dt.padIfInCircuit s f = some (dt.insert s t', d - (r :: rows).length) by
        simp [DecomposedTrace.padIfInCircuit, inCircuit_of_trace hx, ht.numberOfRows_eq,
          modify_of_trace _ _ _ hx, hft],
      show rt.pad s pick = some (rt.set s (RowTable.fill d (r :: rows) (pick r)),
        d - (r :: rows).length) by simp [RowTable.pad, hy, h.table_domainSize_eq]]
    exact .some ⟨h.insert s ht', rfl⟩

/-- `pad_dummy` on a selector with rows, as both `pad_witnesses` loops call it. -/
theorem Refines.padDummy_cons (h : dt.Refines d rt) {s : Sel} {t : Trace L F E Lk}
    {r : Fin L.nRel → F} {rows : List (Fin L.nRel → F)} (hx : dt.trace s = some t)
    (ht : t.Represents d (r :: rows)) :
    Option.Rel (Refines d) ((dt.modify s Trace.padDummy).map Prod.fst)
      (some (rt.set s (RowTable.fill rt.domainSize (r :: rows) r))) := by
  obtain ⟨t', hpad, ht'⟩ := ht.padWithRow r
  rw [modify_of_trace _ _ _ hx, ht.padDummy_cons, hpad, h.table_domainSize_eq]
  exact .some (h.insert s ht')

theorem Refines.mipsPadStep (h : dt.Refines d rt) (s : Sel) :
    Option.Rel (Refines d) (DecomposedMIPSTrace.padStep dt s) (rt.padStep false s) := by
  obtain ⟨hx, hy⟩ | ⟨t, rows, hx, hy, ht⟩ := h.trace_cases s
  · simp only [DecomposedMIPSTrace.padStep, RowTable.padStep, modify, hx, hy]
    exact .none
  cases rows with
  | nil =>
    simp only [DecomposedMIPSTrace.padStep, RowTable.padStep, modify_of_trace _ _ _ hx,
      ht.padDummy_nil, hy]
    exact .none
  | cons r rows =>
    simpa only [RowTable.padStep, hy, Option.some_bind] using h.padDummy_cons hx ht

theorem Refines.keccakPadStep (h : dt.Refines d rt) (s : Sel) :
    Option.Rel (Refines d) (DecomposedKeccakTrace.padStep dt s) (rt.padStep true s) := by
  obtain ⟨hx, hy⟩ | ⟨t, rows, hx, hy, ht⟩ := h.trace_cases s
  · simp only [DecomposedKeccakTrace.padStep, RowTable.padStep, inCircuit, numberOfRows, hx, hy]
    exact .none
  cases rows with
  | nil =>
    simp only [DecomposedKeccakTrace.padStep, RowTable.padStep, inCircuit_of_trace hx,
      ht.numberOfRows_eq, hy]
    exact .some h
  | cons r rows =>
    simpa [DecomposedKeccakTrace.padStep, RowTable.padStep, inCircuit_of_trace hx,
      ht.numberOfRows_eq, hy] using h.padDummy_cons hx ht

theorem Refines.padWitnesses (h : dt.Refines d rt) (m : Machine Sel E Lk Env) (sels : List Sel) :
    Option.Rel (Refines d) (m.padWitnesses sels dt) (rt.padWitnesses m.checksInCircuit sels) := by
  cases m with
  | keccak => exact optionRel_foldlM (fun _ _ s h => h.keccakPadStep s) sels dt rt h
  | mips => exact optionRel_foldlM (fun _ _ s h => h.mipsPadStep s) sels dt rt h

theorem Refines.setSelectorColumn [Zero F] [One F] (h : dt.Refines d rt) (selIdx : Sel → Nat)
    (s : Sel) (k : Nat) :
    Option.Rel (Refines d) (dt.setSelectorColumn L.nRel selIdx s k) (rt.setSelectorColumn s) := by
  unfold DecomposedTrace.setSelectorColumn RowTable.setSelectorColumn
  by_cases hn : 0 < L.nSel
  · rw [if_pos (by omega), if_pos hn]
    obtain ⟨hx, hy⟩ | ⟨t, rows, hx, hy, ht⟩ := h.trace_cases s
    · simp only [update, hx, hy, Option.map_none']
      exact .none
    · rw [update_of_trace _ _ _ hx, hy, Option.map_some']
      exact .some (RowTable.set_eq_self rt s rows hy ▸ h.insert s (ht.extendSelectorColumns _ k))
  · rw [if_neg (by omega), if_neg hn]
    exact .some h

variable [Zero F] [One F]

/-- **One call of the code is one call of the table.**  On a decomposed trace that refines a
table, every call panics exactly when the table's call panics, returns the same value, and
leaves a decomposed trace that refines the table's result. -/
theorem Refines.stepOut (h : dt.Refines d rt) (m : Machine Sel E Lk Env) (sels : List Sel)
    (selIdx : Sel → Nat) (op : Op L Sel F) :
    Option.Rel (SameOut (Refines d)) (stepOut m sels selIdx dt op)
      (rt.stepOut m.checksInCircuit sels op) := by
  cases op with
  | pushRow s row => exact optionRel_sameOut_none (h.pushRow s row)
  | padWithRow s row =>
    exact optionRel_sameOut_some (h.padIfInCircuit s fun _ _ _ ht => ht.padWithRow row)
  | padWithZeros s =>
    exact optionRel_sameOut_some (h.padIfInCircuit s fun _ _ _ ht => ht.padWithZeros)
  | padDummy s =>
    exact optionRel_sameOut_some
      (h.padIfInCircuit s fun _ r _ ht => ht.padDummy_cons ▸ ht.padWithRow r)
  | reset s => exact optionRel_sameOut_none (h.reset s)
  | setSelectorColumn s k => exact optionRel_sameOut_none (h.setSelectorColumn selIdx s k)
  | padWitnesses => exact optionRel_sameOut_none (h.padWitnesses m sels)

theorem Refines.runOut (m : Machine Sel E Lk Env) (sels : List Sel) (selIdx : Sel → Nat) :
    ∀ (ops : List (Op L Sel F)) {dt : DecomposedTrace L Sel F E Lk} {rt : RowTable L Sel F},
      dt.Refines d rt → Option.Rel (SameOut (Refines d)) (runOut m sels selIdx dt ops)
        (rt.runOut m.checksInCircuit sels ops)
  | [], _, _, h => .some ⟨h, rfl⟩
  | op :: ops, _, _, h =>
    optionRel_bind (h.stepOut m sels selIdx op) fun _ _ hp =>
      optionRel_bind (Refines.runOut m sels selIdx ops hp.1) fun _ _ hq =>
        .some ⟨hq.1, by rw [hp.2, hq.2]⟩

/-- **The code refines the table.**  Every run of calls from `new`, on either machine, panics
exactly when the same run of the table from the table of `new` panics; otherwise both return
the same values, and every sub-trace the code leaves is well formed and holds, in its relation
columns, the rows the table leaves for its selector. -/
theorem runOut_refines (m : Machine Sel E Lk Env) (sels : List Sel) (selIdx : Sel → Nat)
    (d : Nat) (env : Env) (ops : List (Op L Sel F)) :
    Option.Rel (SameOut (Refines d)) (runOut m sels selIdx (m.new sels d env).1 ops)
      ((RowTable.new sels d).runOut m.checksInCircuit sels ops) :=
  Refines.runOut m sels selIdx ops (refines_new m sels d env)

end DecomposedTrace

end O1vm
end ProofSystems
