import ProofSystems.Trace.Basic

/-!
# Padding a sub-trace

`pad_with_row`, `pad_with_zeros` and `pad_dummy` bring a sub-trace up to `domain_size` rows.
Their common precondition is `Room t len`: the relation columns share one length
`len ≤ domain_size`, and each of them has room for `domain_size` entries.

`pad_with_row` reaches `domain_size` only through `domain_size - len` calls of `push_row`, and
each of them passes the capacity guard of every relation column exactly because of the room.
`pad_dummy` repeats row `0`, so it never produces a relation row that was not there before:
a property of single rows, such as a constraint that reads only the current row, survives it.

**Results.**
* `padded_rel`: the relation columns after `pad_with_row`.
* `relRow_padded_lt`, `relRow_padded_ge`: the rows after `pad_with_row`.
* `padding_spec`: the three padding functions under `Room`.
-/

namespace ProofSystems
namespace O1vm
namespace Trace

variable {L : Layout} {F E Lk : Type}

/-- The relation columns of `t` share the length `len ≤ domain_size`, and each has room for
`domain_size` entries. -/
structure Room (t : Trace L F E Lk) (len : Nat) : Prop where
  length_eq : ∀ i, (t.witness (L.rel i)).data.length = len
  le_domainSize : len ≤ t.domainSize
  domainSize_le_capacity : ∀ i, t.domainSize ≤ (t.witness (L.rel i)).capacity

section Room

variable {t : Trace L F E Lk} {len : Nat} (h : t.Room len) (row : Fin L.nRel → F)
include h

theorem Room.numberOfRows_eq : t.numberOfRows = len := h.length_eq L.first

/-- The trace `pad_with_row` returns: `domain_size - len` calls of `push_row`. -/
theorem padWithRow_of_room :
    t.padWithRow row =
      some ((fun t => t.pushRow row)^[t.domainSize - len] t, t.domainSize - len) := by
  rw [padWithRow_of_le _ _ (h.numberOfRows_eq ▸ h.le_domainSize), h.numberOfRows_eq]

/-- Every call of `push_row` made by `pad_with_row` passes the guard of every relation
column, so each of them receives `domain_size - len` copies of its entry of `row`. -/
theorem padded_rel (i : Fin L.nRel) :
    ((fun t => t.pushRow row)^[t.domainSize - len] t).witness (L.rel i) =
      (t.witness (L.rel i)).extend (List.replicate (t.domainSize - len) (row i)) := by
  have hl := h.length_eq i
  have hc := h.domainSize_le_capacity i
  rw [iterate_pushRow_rel, iterate_pushIfRoom]
  congr 2
  omega

/-- Rows below `len` are kept. -/
theorem relRow_padded_lt {r : Nat} (hr : r < len) :
    ((fun t => t.pushRow row)^[t.domainSize - len] t).relRow r = t.relRow r := by
  unfold relRow
  congr 1
  funext i
  rw [padded_rel h, RustVec.data_extend, List.getElem?_append_left (by rw [h.length_eq]; exact hr)]

/-- Rows from `len` to `domain_size` are `row`. -/
theorem relRow_padded_ge {r : Nat} (hr : len ≤ r) (hd : r < t.domainSize) :
    ((fun t => t.pushRow row)^[t.domainSize - len] t).relRow r = some row := by
  refine relRow_eq_some_iff _ |>.mpr fun i => ?_
  rw [padded_rel h, RustVec.data_extend, List.getElem?_append_right (by rw [h.length_eq]; exact hr),
    List.getElem?_replicate_of_lt (by rw [h.length_eq]; omega)]

/-- Below `len` every relation row exists. -/
theorem relRow_isSome_of_room {r : Nat} (hr : r < len) : (t.relRow r).isSome :=
  t.relRow_isSome fun i => h.length_eq i ▸ hr

/-- With at least one row, `pad_dummy` is `pad_with_row` with row `0`. -/
theorem padDummy_of_room (hpos : 1 ≤ len) :
    ∃ x, t.firstRow = some x ∧ (∀ i, (t.witness (L.rel i)).data[0]? = some (x i)) ∧
      t.padDummy = t.padWithRow x := by
  obtain ⟨x, hx⟩ := Option.isSome_iff_exists.mp (relRow_isSome_of_room h (r := 0) hpos)
  exact ⟨x, hx, (relRow_eq_some_iff t).mp hx, by simp [padDummy, firstRow, hx]⟩

/-- After `pad_dummy` every relation row below `domain_size` exists and is a row that was
there before. -/
theorem padDummy_rows (hpos : 1 ≤ len) :
    ∃ t' k, t.padDummy = some (t', k) ∧
      ∀ r < t.domainSize, ∃ r' < len, t'.relRow r = t.relRow r' ∧ (t'.relRow r).isSome := by
  obtain ⟨x, hx, -, hpad⟩ := padDummy_of_room h hpos
  refine ⟨_, _, hpad.trans (padWithRow_of_room h x), fun r hr => ?_⟩
  by_cases hlt : r < len
  · rw [relRow_padded_lt h x hlt]
    exact ⟨r, hlt, rfl, relRow_isSome_of_room h hlt⟩
  · rw [relRow_padded_ge h x (by omega) hr]
    exact ⟨0, hpos, hx.symm, rfl⟩

end Room

/-- **The padding functions under `Room`.**  `pad_with_row` and `pad_with_zeros` return
`domain_size - len` and append that many copies of the row, or of zero, to every relation
column; with a row present, `pad_dummy` is `pad_with_row` with row `0`, and after it every
relation row below `domain_size` is one that was there before, so a property of single rows
survives it; on a full trace `pad_with_row` and `pad_with_zeros` return `0` and change
nothing, and so does `pad_dummy` when the trace has a row. -/
theorem padding_spec [Zero F] (t : Trace L F E Lk) (len : Nat) (h : t.Room len)
    (row : Fin L.nRel → F) :
    (∃ t', t.padWithRow row = some (t', t.domainSize - len) ∧
      ∀ i, (t'.witness (L.rel i)).data =
        (t.witness (L.rel i)).data ++ List.replicate (t.domainSize - len) (row i)) ∧
    (∃ t', t.padWithZeros = some (t', t.domainSize - len) ∧
      ∀ i, (t'.witness (L.rel i)).data =
        (t.witness (L.rel i)).data ++ List.replicate (t.domainSize - len) 0) ∧
    (1 ≤ len → ∃ x, t.firstRow = some x ∧ (∀ i, (t.witness (L.rel i)).data[0]? = some (x i)) ∧
      t.padDummy = t.padWithRow x) ∧
    (1 ≤ len → ∃ t' k, t.padDummy = some (t', k) ∧
      ∀ P : (Fin L.nRel → F) → Prop, (∀ r < len, ∀ x, t.relRow r = some x → P x) →
        ∀ r < t.domainSize, ∃ x, t'.relRow r = some x ∧ P x) ∧
    (len = t.domainSize → t.padWithRow row = some (t, 0) ∧ t.padWithZeros = some (t, 0) ∧
      (1 ≤ len → t.padDummy = some (t, 0))) := by
  have hn := h.numberOfRows_eq
  refine ⟨⟨_, padWithRow_of_room h row, fun i => by rw [padded_rel h]; rfl⟩,
    ⟨_, hn ▸ padWithZeros_of_le t (hn ▸ h.le_domainSize), fun i => by simp [hn]⟩,
    padDummy_of_room h, fun hpos => ?_, fun hfull => ?_⟩
  · obtain ⟨t', k, hpad, hrows⟩ := padDummy_rows h hpos
    refine ⟨t', k, hpad, fun P hP r hr => ?_⟩
    obtain ⟨r', hr', heq, hsome⟩ := hrows r hr
    obtain ⟨x, hx⟩ := Option.isSome_iff_exists.mp hsome
    exact ⟨x, hx, hP r' hr' x (heq ▸ hx)⟩
  · subst hfull
    have hrow : ∀ row, t.padWithRow row = some (t, 0) := fun row => by
      rw [padWithRow_of_room h, Nat.sub_self]; rfl
    refine ⟨hrow row, ?_, fun hpos => ?_⟩
    · rw [padWithZeros_of_le t (hn ▸ h.le_domainSize), hn, Nat.sub_self]
      simp only [List.replicate_zero, RustVec.extend_nil]
    · obtain ⟨x, -, -, hpad⟩ := padDummy_of_room h hpos
      rw [hpad, hrow]

/-- One row `[7]` in a trace of domain size `2`, padded with the row `[5]`. -/
theorem padding_spec_one_row :
    let t : Trace ⟨1, 1, Nat.one_pos⟩ Nat Unit Unit := (Trace.init 2 [] []).pushRow fun _ => 7
    t.Room 1 ∧
    (∃ t', t.padWithRow (fun _ => 5) = some (t', t.domainSize - 1) ∧
      ∀ i, (t'.witness (Layout.rel _ i)).data =
        (t.witness (Layout.rel _ i)).data ++ List.replicate (t.domainSize - 1) 5) ∧
    (∃ t', t.padWithZeros = some (t', t.domainSize - 1) ∧
      ∀ i, (t'.witness (Layout.rel _ i)).data =
        (t.witness (Layout.rel _ i)).data ++ List.replicate (t.domainSize - 1) 0) ∧
    (1 ≤ 1 → ∃ x, t.firstRow = some x ∧
      (∀ i, (t.witness (Layout.rel _ i)).data[0]? = some (x i)) ∧ t.padDummy = t.padWithRow x) ∧
    (1 ≤ 1 → ∃ t' k, t.padDummy = some (t', k) ∧
      ∀ P : (Fin 1 → Nat) → Prop, (∀ r < 1, ∀ x, t.relRow r = some x → P x) →
        ∀ r < t.domainSize, ∃ x, t'.relRow r = some x ∧ P x) ∧
    (1 = t.domainSize → t.padWithRow (fun _ => 5) = some (t, 0) ∧
      t.padWithZeros = some (t, 0) ∧ (1 ≤ 1 → t.padDummy = some (t, 0))) :=
  have h : Room ((Trace.init 2 [] [] : Trace ⟨1, 1, Nat.one_pos⟩ Nat Unit Unit).pushRow
      fun _ => 7) 1 := ⟨by decide, by decide, by decide⟩
  ⟨h, padding_spec _ 1 h fun _ => 5⟩

end Trace
end O1vm
end ProofSystems
