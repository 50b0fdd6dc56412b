import ProofSystems.Trace.Padding
import ProofSystems.Trace.Edit

/-!
# The invariant of the trace-building protocol

A decomposed trace built by `new` and then changed by any sequence of protocol calls keeps
its key set and its domain size, and each sub-trace stays well formed (`Trace.WF`): its
relation columns share one length, the row count, which is at most `domain_size`, and each of
them keeps the capacity `domain_size` that `init` allocated.  Selector columns may be longer
or shorter; nothing is claimed about them here.

The capacity is what makes the row count bounded: `push_row` drops a value once its column
is full, and since all relation columns fill up together, it drops a whole row or none.

**Proof.**  Every call is a chain of edits of single sub-traces (`ProofSystems.Trace.Edit`).
Every edit appends the same number of entries to each relation column without passing
`domain_size` (`WF.of_extend`), or clears them, so it keeps a sub-trace well formed
(`WF.edit`), and `Inv` holds along every chain of edits.

**Results.**
* `run_invariant`: `Inv` holds after every run from `new`; in every such state `push_row`
  changes nothing on a full sub-trace and appends a whole row to any other, and the three
  padding functions never panic on a key.
-/

namespace ProofSystems
namespace O1vm

variable {L : Layout} {Sel F E Lk Env : Type}

namespace Trace

/-- A sub-trace of a decomposed trace of domain size `d`: its relation columns share the
length `numberOfRows ≤ d` and keep the capacity `d`. -/
structure WF (d : Nat) (t : Trace L F E Lk) : Prop where
  domainSize_eq : t.domainSize = d
  length_rel : ∀ i, (t.witness (L.rel i)).data.length = t.numberOfRows
  numberOfRows_le : t.numberOfRows ≤ d
  capacity_rel : ∀ i, (t.witness (L.rel i)).capacity = d

variable {d : Nat} {t : Trace L F E Lk}

theorem WF.room (h : t.WF d) : t.Room t.numberOfRows :=
  ⟨h.length_rel, h.domainSize_eq ▸ h.numberOfRows_le,
    fun i => by rw [h.capacity_rel, h.domainSize_eq]⟩

/-- Appending `m` entries to every relation column, without passing `d`, keeps a trace well
formed. -/
theorem WF.of_extend (h : t.WF d) {t' : Trace L F E Lk} {m : Nat}
    (hm : t.numberOfRows + m ≤ d) (hd : t'.domainSize = d)
    (hrel : ∀ i, ∃ xs : List F, xs.length = m ∧
      t'.witness (L.rel i) = (t.witness (L.rel i)).extend xs) : t'.WF d := by
  have hlen : ∀ i, (t'.witness (L.rel i)).data.length = t.numberOfRows + m := fun i => by
    obtain ⟨xs, hxs, he⟩ := hrel i
    rw [he, RustVec.data_extend, List.length_append, h.length_rel, hxs]
  have hn : t'.numberOfRows = t.numberOfRows + m := hlen L.first
  refine ⟨hd, fun i => by rw [hlen, hn], by omega, fun i => ?_⟩
  obtain ⟨xs, hxs, he⟩ := hrel i
  rw [he, RustVec.capacity_extend_of_le (by rw [h.length_rel, hxs, h.capacity_rel]; exact hm),
    h.capacity_rel]

theorem WF.init (cs : List E) (lks : List Lk) : (Trace.init d cs lks : Trace L F E Lk).WF d :=
  ⟨rfl, fun _ => rfl, Nat.zero_le d, fun _ => rfl⟩

/-- `k` calls of `push_row` append `min k (d - n)` entries to every relation column. -/
theorem WF.iterate_pushRow_rel (h : t.WF d) (row : Fin L.nRel → F) (k : Nat) (i : Fin L.nRel) :
    ((fun t => t.pushRow row)^[k] t).witness (L.rel i) =
      (t.witness (L.rel i)).extend (List.replicate (min k (d - t.numberOfRows)) (row i)) := by
  rw [Trace.iterate_pushRow_rel, iterate_pushIfRoom, h.capacity_rel, h.length_rel]

theorem WF.iterate_pushRow (h : t.WF d) (row : Fin L.nRel → F) (k : Nat) :
    ((fun t => t.pushRow row)^[k] t).WF d :=
  h.of_extend (by have := h.numberOfRows_le; omega)
    ((iterate_pushRow_fields t row k).1.trans h.domainSize_eq)
    fun i => ⟨_, List.length_replicate _ _, h.iterate_pushRow_rel row k i⟩

theorem WF.pushRow (h : t.WF d) (row : Fin L.nRel → F) : (t.pushRow row).WF d :=
  h.iterate_pushRow row 1

theorem WF.padWithRow (h : t.WF d) {row : Fin L.nRel → F} {t' : Trace L F E Lk} {k : Nat}
    (ht : t.padWithRow row = some (t', k)) : t'.WF d := by
  rw [padWithRow_of_room h.room] at ht
  cases ht
  exact h.iterate_pushRow row _

theorem WF.padWithZeros [Zero F] (h : t.WF d) {t' : Trace L F E Lk} {k : Nat}
    (ht : t.padWithZeros = some (t', k)) : t'.WF d := by
  rw [padWithZeros_of_le t (h.domainSize_eq ▸ h.numberOfRows_le)] at ht
  cases ht
  exact h.of_extend (m := t.domainSize - t.numberOfRows)
    (by have := h.numberOfRows_le; rw [h.domainSize_eq]; omega) h.domainSize_eq
    fun i => ⟨_, List.length_replicate _ _, rfl⟩

theorem WF.padDummy (h : t.WF d) {t' : Trace L F E Lk} {k : Nat}
    (ht : t.padDummy = some (t', k)) : t'.WF d := by
  obtain ⟨x, -, hx⟩ := Option.bind_eq_some.mp ht
  exact h.padWithRow hx

theorem WF.clearWitness (h : t.WF d) : t.clearWitness.WF d :=
  ⟨h.domainSize_eq, fun _ => rfl, Nat.zero_le d, fun i => h.capacity_rel i⟩

theorem WF.extendSelectorColumns [Zero F] [One F] (h : t.WF d) {nRel : Nat} (hn : L.nRel ≤ nRel)
    (index k : Nat) : (t.extendSelectorColumns nRel index k).WF d :=
  h.of_extend (m := 0) (by simpa using h.numberOfRows_le) h.domainSize_eq
    fun i => ⟨[], rfl, by rw [extendSelectorColumns_witness_rel _ hn, RustVec.extend_nil]⟩

/-- On a full trace `push_row` changes nothing. -/
theorem WF.pushRow_of_full (h : t.WF d) (hfull : t.numberOfRows = d) (row : Fin L.nRel → F) :
    t.pushRow row = t := by
  ext1
  · rfl
  · funext c
    rcases L.rel_or_sel c with ⟨i, rfl⟩ | ⟨j, rfl⟩
    · rw [pushRow_witness_rel, pushIfRoom, if_neg (by
        rw [RustVec.len_eq, h.length_rel, h.capacity_rel, hfull]; exact lt_irrefl d)]
    · exact pushRow_witness_sel t row j
  · rfl
  · rfl

/-- Every edit keeps a trace well formed. -/
theorem WF.edit [Zero F] [One F] (h : t.WF d) {t' : Trace L F E Lk} (he : t.Edit t') : t'.WF d := by
  cases he with
  | pushRow row => exact h.pushRow row
  | padWithRow hp => exact h.padWithRow hp
  | padWithZeros hp => exact h.padWithZeros hp
  | padDummy hp => exact h.padDummy hp
  | clearWitness => exact h.clearWitness
  | extendSelectorColumns index k => exact h.extendSelectorColumns le_rfl index k

end Trace

namespace DecomposedTrace

variable {sels : List Sel} {d : Nat} {dt dt' : DecomposedTrace L Sel F E Lk} {s : Sel}

/-- The invariant of the protocol: the keys are the enumerated selectors, the domain size is
`d`, and every sub-trace is well formed. -/
structure Inv (sels : List Sel) (d : Nat) (dt : DecomposedTrace L Sel F E Lk) : Prop where
  domainSize_eq : dt.domainSize = d
  isSome_trace_iff : ∀ s, (dt.trace s).isSome ↔ s ∈ sels
  wf : ∀ s t, dt.trace s = some t → t.WF d

theorem Inv.trace_of_mem (hinv : Inv sels d dt) (hs : s ∈ sels) : ∃ t, dt.trace s = some t :=
  Option.isSome_iff_exists.mp ((hinv.isSome_trace_iff s).mpr hs)

variable [DecidableEq Sel]

/-- Replacing a sub-trace by a well-formed one keeps the invariant. -/
theorem Inv.after_insert (hinv : Inv sels d dt) {t t' : Trace L F E Lk} (ht : dt.trace s = some t)
    (ht' : t'.WF d) : Inv sels d (dt.insert s t') := by
  refine ⟨hinv.domainSize_eq, fun s' => ?_, fun s' t'' h => ?_⟩
  · by_cases hs : s' = s
    · subst hs; simp [← hinv.isSome_trace_iff, ht]
    · rw [insert_trace_of_ne _ _ _ hs, hinv.isSome_trace_iff]
  · by_cases hs : s' = s
    · subst hs; simp only [insert_trace_self, Option.some.injEq] at h; exact h ▸ ht'
    · rw [insert_trace_of_ne _ _ _ hs] at h; exact hinv.wf _ _ h

/-- Every edit keeps the invariant. -/
theorem Inv.after_edit [Zero F] [One F] (hinv : Inv sels d dt) (h : dt.Edit dt') :
    Inv sels d dt' := by
  obtain ⟨s, t, t', ht, he, rfl⟩ := h
  exact hinv.after_insert ht ((hinv.wf s t ht).edit he)

theorem Inv.after_edits [Zero F] [One F] (hinv : Inv sels d dt)
    (h : Relation.ReflTransGen Edit dt dt') : Inv sels d dt' := by
  induction h with
  | refl => exact hinv
  | tail _ he ih => exact ih.after_edit he

/-- A padding function that cannot panic on a well-formed trace with a row makes the guarded
call total on every key. -/
theorem Inv.padIfInCircuit_isSome (hinv : Inv sels d dt) (hs : s ∈ sels)
    {f : Trace L F E Lk → Option (Trace L F E Lk × Nat)}
    (hf : ∀ t, t.WF d → t.numberOfRows ≠ 0 → (f t).isSome) : (dt.padIfInCircuit s f).isSome := by
  obtain ⟨t, ht⟩ := hinv.trace_of_mem hs
  by_cases hn : t.numberOfRows = 0
  · simp [DecomposedTrace.padIfInCircuit, inCircuit_of_trace ht, hn]
  · obtain ⟨⟨t', k⟩, hft⟩ := Option.isSome_iff_exists.mp (hf t (hinv.wf s t ht) hn)
    simp [DecomposedTrace.padIfInCircuit, inCircuit_of_trace ht, hn, modify_of_trace _ _ _ ht, hft]

/-- `new` establishes the invariant. -/
theorem Inv.new (m : Machine Sel E Lk Env) (sels : List Sel) (d : Nat) (env : Env) :
    Inv sels d ((m.new sels d env).1 : DecomposedTrace L Sel F E Lk) := by
  obtain ⟨hd, hk, hwf⟩ := new_spec m.traceInit sels d env (Trace.WF d) fun s env => by
    obtain ⟨cs, lks, h⟩ := m.traceInit_fst (L := L) (F := F) d s env
    exact h ▸ Trace.WF.init cs lks
  exact ⟨hd, hk, hwf⟩

/-- On a full sub-trace `push_row` changes nothing. -/
theorem Inv.pushRow_of_isFull (hinv : Inv sels d dt) (hfull : dt.isFull s = some true)
    (row : Fin L.nRel → F) : dt.pushRow s row = some dt := by
  cases ht : dt.trace s with
  | none => simp [isFull, numberOfRows, ht] at hfull
  | some t =>
    have hn : t.numberOfRows = d := by
      rw [isFull_of_trace ht, Option.some.injEq, beq_iff_eq, hinv.domainSize_eq] at hfull
      exact hfull.symm
    rw [DecomposedTrace.pushRow, update_of_trace _ _ _ ht, (hinv.wf s t ht).pushRow_of_full hn,
      insert_eq_self _ _ _ ht]

/-- Below `domain_size`, `push_row` appends the whole row to the relation columns. -/
theorem Inv.pushRow_of_not_full (hinv : Inv sels d dt) (hfull : dt.isFull s = some false)
    (row : Fin L.nRel → F) :
    ∃ t, dt.trace s = some t ∧ dt.pushRow s row = some (dt.insert s (t.pushRow row)) ∧
      ∀ i, ((t.pushRow row).witness (L.rel i)).data = (t.witness (L.rel i)).data ++ [row i] := by
  cases ht : dt.trace s with
  | none => simp [isFull, numberOfRows, ht] at hfull
  | some t =>
    have h := hinv.wf s t ht
    have hn : t.numberOfRows < d := by
      rw [isFull_of_trace ht, Option.some.injEq, beq_eq_false_iff_ne, hinv.domainSize_eq] at hfull
      exact lt_of_le_of_ne h.numberOfRows_le (Ne.symm hfull)
    refine ⟨t, rfl, update_of_trace _ _ _ ht, fun i => ?_⟩
    rw [Trace.pushRow_witness_rel, pushIfRoom, if_pos (by
      rw [RustVec.len_eq, h.length_rel, h.capacity_rel]; exact hn), RustVec.data_push]

theorem Inv.padWithRow_isSome (hinv : Inv sels d dt) (hs : s ∈ sels) (row : Fin L.nRel → F) :
    (dt.padWithRow s row).isSome :=
  hinv.padIfInCircuit_isSome hs fun _ ht _ => by simp [Trace.padWithRow_of_room ht.room]

theorem Inv.padWithZeros_isSome [Zero F] (hinv : Inv sels d dt) (hs : s ∈ sels) :
    (dt.padWithZeros s).isSome :=
  hinv.padIfInCircuit_isSome hs fun t ht _ => by
    simp [Trace.padWithZeros_of_le t (ht.domainSize_eq ▸ ht.numberOfRows_le)]

theorem Inv.padDummy_isSome (hinv : Inv sels d dt) (hs : s ∈ sels) : (dt.padDummy s).isSome :=
  hinv.padIfInCircuit_isSome hs fun _ ht hn => by
    obtain ⟨x, -, -, hpad⟩ := Trace.padDummy_of_room ht.room (Nat.one_le_iff_ne_zero.mpr hn)
    simp [hpad, Trace.padWithRow_of_room ht.room]

variable [Zero F] [One F]

/-- Every call of the protocol keeps the invariant. -/
theorem Inv.after_step (hinv : Inv sels d dt) (m : Machine Sel E Lk Env) (selIdx : Sel → Nat)
    {op : Op L Sel F} (h : step m sels selIdx dt op = some dt') : Inv sels d dt' :=
  hinv.after_edits (step_edits m sels selIdx h)

theorem Inv.after_run (hinv : Inv sels d dt) (m : Machine Sel E Lk Env) (selIdx : Sel → Nat)
    {ops : List (Op L Sel F)} (h : run m sels selIdx dt ops = some dt') : Inv sels d dt' :=
  hinv.after_edits (run_edits m sels selIdx h)

/-- **The protocol invariant.**  After any run from `new`, on either machine, the keys are
those of `new` and `Inv` holds: the domain size is `d` and every sub-trace is well formed.  On
every key, `push_row` changes nothing on a full sub-trace and appends the whole row to the
relation columns of any other, and `pad_with_row`, `pad_with_zeros` and `pad_dummy` do not
panic. -/
theorem run_invariant (m : Machine Sel E Lk Env) (sels : List Sel) (selIdx : Sel → Nat) (d : Nat)
    (env : Env) (ops : List (Op L Sel F)) (dt : DecomposedTrace L Sel F E Lk)
    (hrun : run m sels selIdx (m.new sels d env).1 ops = some dt) :
    (∀ s, (dt.trace s).isSome ↔
      (((m.new sels d env).1 : DecomposedTrace L Sel F E Lk).trace s).isSome) ∧
    Inv sels d dt ∧
    ∀ s ∈ sels, ∀ row : Fin L.nRel → F,
      (dt.isFull s = some true → dt.pushRow s row = some dt) ∧
      (dt.isFull s = some false → ∃ t t', dt.trace s = some t ∧
        dt.pushRow s row = some (dt.insert s t') ∧
        ∀ i, (t'.witness (L.rel i)).data = (t.witness (L.rel i)).data ++ [row i]) ∧
      (dt.padWithRow s row).isSome ∧ (dt.padWithZeros s).isSome ∧ (dt.padDummy s).isSome := by
  have hinv := (Inv.new m sels d env).after_run m selIdx hrun
  refine ⟨fun s => by rw [hinv.isSome_trace_iff, (Inv.new m sels d env).isSome_trace_iff],
    hinv, fun s hs row => ⟨fun hfull => hinv.pushRow_of_isFull hfull row, fun hfull => ?_,
      hinv.padWithRow_isSome hs row, hinv.padWithZeros_isSome hs, hinv.padDummy_isSome hs⟩⟩
  obtain ⟨t, ht, hpush, hrows⟩ := hinv.pushRow_of_not_full hfull row
  exact ⟨t, _, ht, hpush, hrows⟩

/-- Two Keccak steps on domain size `2`, one row pushed to the first. -/
theorem run_invariant_one_push :
    let m : Machine Bool Unit Unit Unit := .keccak (fun _ => []) (fun _ => []) id
    let dt : DecomposedTrace ⟨1, 1, Nat.one_pos⟩ Bool Nat Unit Unit :=
      (m.new [false, true] 2 ()).1.insert false ((Trace.init 2 [] []).pushRow fun _ => 3)
    run m [false, true] (fun b => if b then 2 else 1) (m.new [false, true] 2 ()).1
        [.pushRow false fun _ => 3] = some dt ∧
    (∀ s, (dt.trace s).isSome ↔
      (((m.new [false, true] 2 ()).1 : DecomposedTrace ⟨1, 1, Nat.one_pos⟩ Bool Nat Unit Unit).trace
        s).isSome) ∧
    Inv [false, true] 2 dt ∧
    ∀ s ∈ [false, true], ∀ row : Fin 1 → Nat,
      (dt.isFull s = some true → dt.pushRow s row = some dt) ∧
      (dt.isFull s = some false → ∃ t t', dt.trace s = some t ∧
        dt.pushRow s row = some (dt.insert s t') ∧
        ∀ i, (t'.witness (Layout.rel _ i)).data = (t.witness (Layout.rel _ i)).data ++ [row i]) ∧
      (dt.padWithRow s row).isSome ∧ (dt.padWithZeros s).isSome ∧ (dt.padDummy s).isSome :=
  ⟨rfl, run_invariant _ _ (fun b => if b then 2 else 1) _ _ [.pushRow false fun _ => 3] _ rfl⟩

end DecomposedTrace

end O1vm
end ProofSystems
