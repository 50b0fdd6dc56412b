import ProofSystems.Trace.Basic

/-!
# Decomposed traces and the trace-building protocol

`DecomposedTrace<N, C>` maps every selector to its sub-trace, and all sub-traces share one
domain size.  This module models the map, the bookkeeping of `impl DecomposedTrace`
(`number_of_rows`, `in_circuit`, `is_full`, `reset`, `set_selector_column`), the generic
`Tracer` implementation for `DecomposedTrace`, and the two `DecomposableTracer`
instantiations.

**The map.**  A `BTreeMap<C::Selector, Trace<N, C>>` is a finite partial map,
`Sel → Option (Trace L F E Lk)`.  Indexing (`self[s]`) and `get_mut(&s).unwrap()` panic on a
missing key; here they return `none`, as every other panic does.

**The machines.**  `new` is the same loop in both instantiations: one `Trace::init` per
selector of the enumeration.  `KeccakTrace::init` asks the Keccak environment for the
constraints and lookups of the standardized step; `MIPSTrace::init` runs the interpreter on
the instruction, reads the constraints and lookups it collected, and resets it.
`pad_witnesses` differs: the Keccak loop pads the selectors that are in the circuit, the MIPS
loop calls `pad_dummy` on every instruction.

**The protocol.**  `Op` lists the calls a prover makes on a decomposed trace, `step` makes
one and `run` a sequence of them; a panic ends the run with `none`.  `stepOut` and `runOut`
also collect what the calls return.
-/

namespace ProofSystems
namespace O1vm

/-- `DecomposedTrace<N, C>`: the shared domain size and the map from selectors to traces. -/
@[ext] structure DecomposedTrace (L : Layout) (Sel F E Lk : Type) where
  domainSize : Nat
  trace : Sel → Option (Trace L F E Lk)

namespace DecomposedTrace

variable {L : Layout} {Sel F E Lk : Type}

/-- `number_of_rows`: the length of relation column `0` of `self[opcode]`. -/
def numberOfRows (dt : DecomposedTrace L Sel F E Lk) (s : Sel) : Option Nat :=
  (dt.trace s).map Trace.numberOfRows

/-- `in_circuit`: `self.number_of_rows(opcode) != 0`. -/
def inCircuit (dt : DecomposedTrace L Sel F E Lk) (s : Sel) : Option Bool :=
  (dt.numberOfRows s).map fun n => n != 0

/-- `is_full`: `self.domain_size == self.number_of_rows(opcode)`. -/
def isFull (dt : DecomposedTrace L Sel F E Lk) (s : Sel) : Option Bool :=
  (dt.numberOfRows s).map fun n => dt.domainSize == n

theorem numberOfRows_of_trace {dt : DecomposedTrace L Sel F E Lk} {s : Sel} {t : Trace L F E Lk}
    (h : dt.trace s = some t) : dt.numberOfRows s = some t.numberOfRows := by
  simp [numberOfRows, h]

theorem inCircuit_of_trace {dt : DecomposedTrace L Sel F E Lk} {s : Sel} {t : Trace L F E Lk}
    (h : dt.trace s = some t) : dt.inCircuit s = some (t.numberOfRows != 0) := by
  simp [inCircuit, numberOfRows, h]

theorem isFull_of_trace {dt : DecomposedTrace L Sel F E Lk} {s : Sel} {t : Trace L F E Lk}
    (h : dt.trace s = some t) : dt.isFull s = some (dt.domainSize == t.numberOfRows) := by
  simp [isFull, numberOfRows, h]

variable [DecidableEq Sel]

/-- The map with the trace of `s` replaced by `t`: `BTreeMap::insert`, or a write through
`get_mut`. -/
def insert (dt : DecomposedTrace L Sel F E Lk) (s : Sel) (t : Trace L F E Lk) :
    DecomposedTrace L Sel F E Lk :=
  { dt with trace := Function.update dt.trace s (some t) }

/-- An in-place operation on the trace of `s` through `self.trace.get_mut(&s).unwrap()`:
`none` when `s` is not a key, or when the operation panics. -/
def modify {α : Type} (dt : DecomposedTrace L Sel F E Lk) (s : Sel)
    (f : Trace L F E Lk → Option (Trace L F E Lk × α)) :
    Option (DecomposedTrace L Sel F E Lk × α) := do
  let t ← dt.trace s
  let (t', a) ← f t
  pure (dt.insert s t', a)

/-- An infallible in-place update of the trace of `s` through `get_mut(&s).unwrap()`. -/
def update (dt : DecomposedTrace L Sel F E Lk) (s : Sel) (g : Trace L F E Lk → Trace L F E Lk) :
    Option (DecomposedTrace L Sel F E Lk) :=
  (dt.trace s).map fun t => dt.insert s (g t)

/-- The guard the three padding functions share: `0` for a selector not in the circuit,
the trace's padding function `f` otherwise. -/
def padIfInCircuit (dt : DecomposedTrace L Sel F E Lk) (s : Sel)
    (f : Trace L F E Lk → Option (Trace L F E Lk × Nat)) :
    Option (DecomposedTrace L Sel F E Lk × Nat) := do
  if !(← dt.inCircuit s) then pure (dt, 0) else dt.modify s f

/-- `reset`: `Vec::clear` on every column of the trace of `s`. -/
def reset (dt : DecomposedTrace L Sel F E Lk) (s : Sel) : Option (DecomposedTrace L Sel F E Lk) :=
  dt.update s Trace.clearWitness

/-- `set_selector_column::<N_REL>(selector, number_of_rows)`.  The loop over `N_REL..N` calls
`get_mut(&selector).unwrap()` in its body, so it panics on a missing key only when the range
is not empty.  `selIdx` is `usize::from`. -/
def setSelectorColumn [Zero F] [One F] (nRel : Nat) (selIdx : Sel → Nat)
    (dt : DecomposedTrace L Sel F E Lk) (s : Sel) (numberOfRows : Nat) :
    Option (DecomposedTrace L Sel F E Lk) :=
  if nRel < L.nRel + L.nSel then
    dt.update s (Trace.extendSelectorColumns nRel (selIdx s) numberOfRows)
  else some dt

/-! ### `impl Tracer for DecomposedTrace` -/

/-- `push_row`: `self.trace.get_mut(&selector).unwrap().push_row((), row)`. -/
def pushRow (dt : DecomposedTrace L Sel F E Lk) (s : Sel) (row : Fin L.nRel → F) :
    Option (DecomposedTrace L Sel F E Lk) :=
  dt.update s (·.pushRow row)

/-- `pad_with_row`: `0` for a selector not in the circuit, the trace's `pad_with_row`
otherwise. -/
def padWithRow (dt : DecomposedTrace L Sel F E Lk) (s : Sel) (row : Fin L.nRel → F) :
    Option (DecomposedTrace L Sel F E Lk × Nat) :=
  dt.padIfInCircuit s (·.padWithRow row)

/-- `pad_with_zeros`: `0` for a selector not in the circuit, the trace's `pad_with_zeros`
otherwise. -/
def padWithZeros [Zero F] (dt : DecomposedTrace L Sel F E Lk) (s : Sel) :
    Option (DecomposedTrace L Sel F E Lk × Nat) :=
  dt.padIfInCircuit s Trace.padWithZeros

/-- `pad_dummy`: `0` for a selector not in the circuit, the trace's `pad_dummy` otherwise. -/
def padDummy (dt : DecomposedTrace L Sel F E Lk) (s : Sel) :
    Option (DecomposedTrace L Sel F E Lk × Nat) :=
  dt.padIfInCircuit s Trace.padDummy

/-- One iteration of the loop of `new`:
`circuit.trace.insert(step, Trace::init(domain_size, step, env))`. -/
def initInsert {Env : Type} (init : Nat → Sel → Env → Trace L F E Lk × Env) (domainSize : Nat)
    (acc : DecomposedTrace L Sel F E Lk × Env) (s : Sel) : DecomposedTrace L Sel F E Lk × Env :=
  (acc.1.insert s (init domainSize s acc.2).1, (init domainSize s acc.2).2)

/-- `DecomposableTracer::new`, the same loop in both instantiations: an empty map, then one
`Trace::init` per selector of the enumeration, threading the environment. -/
def new {Env : Type} (init : Nat → Sel → Env → Trace L F E Lk × Env) (sels : List Sel)
    (domainSize : Nat) (env : Env) : DecomposedTrace L Sel F E Lk × Env :=
  sels.foldl (initInsert init domainSize) (⟨domainSize, fun _ => none⟩, env)

section Lemmas

variable (dt : DecomposedTrace L Sel F E Lk) (s : Sel) (t : Trace L F E Lk)

@[simp] theorem domainSize_insert : (dt.insert s t).domainSize = dt.domainSize := rfl

@[simp] theorem insert_trace_self : (dt.insert s t).trace s = some t := by simp [insert]

/-- Putting back the trace a key already has changes nothing. -/
theorem insert_eq_self (h : dt.trace s = some t) : dt.insert s t = dt := by
  simp only [insert, ← h, Function.update_eq_self]

theorem insert_trace_of_ne {s' : Sel} (h : s' ≠ s) : (dt.insert s t).trace s' = dt.trace s' := by
  simp [insert, h]

theorem modify_eq_some_iff {α : Type} {f : Trace L F E Lk → Option (Trace L F E Lk × α)}
    {dt' : DecomposedTrace L Sel F E Lk} {a : α} :
    dt.modify s f = some (dt', a) ↔
      ∃ t t', dt.trace s = some t ∧ f t = some (t', a) ∧ dt' = dt.insert s t' := by
  simp only [modify, Option.bind_eq_bind, Option.bind_eq_some]
  constructor
  · rintro ⟨t, ht, ⟨t', b⟩, hf, heq⟩
    cases heq
    exact ⟨t, t', ht, hf, rfl⟩
  · rintro ⟨t, t', ht, hf, rfl⟩
    exact ⟨t, ht, (t', a), hf, rfl⟩

theorem modify_of_trace {α : Type} {f : Trace L F E Lk → Option (Trace L F E Lk × α)}
    (h : dt.trace s = some t) :
    dt.modify s f = (f t).map fun p => (dt.insert s p.1, p.2) := by
  simp only [modify, h, Option.bind_eq_bind, Option.some_bind]
  cases f t <;> rfl

theorem update_eq_some_iff {g : Trace L F E Lk → Trace L F E Lk}
    {dt' : DecomposedTrace L Sel F E Lk} :
    dt.update s g = some dt' ↔ ∃ t, dt.trace s = some t ∧ dt' = dt.insert s (g t) := by
  simp only [update, Option.map_eq_some']
  exact exists_congr fun t => and_congr_right fun _ => eq_comm

theorem update_of_trace {g : Trace L F E Lk → Trace L F E Lk} (h : dt.trace s = some t) :
    dt.update s g = some (dt.insert s (g t)) := by
  simp [update, h]

/-- The three cases of a guarded padding call. -/
theorem padIfInCircuit_eq_some_iff {f : Trace L F E Lk → Option (Trace L F E Lk × Nat)}
    {dt' : DecomposedTrace L Sel F E Lk} {k : Nat} :
    dt.padIfInCircuit s f = some (dt', k) ↔ ∃ t, dt.trace s = some t ∧
      (t.numberOfRows = 0 ∧ dt' = dt ∧ k = 0 ∨
        t.numberOfRows ≠ 0 ∧ ∃ t', f t = some (t', k) ∧ dt' = dt.insert s t') := by
  unfold padIfInCircuit
  cases ht : dt.trace s with
  | none => simp [inCircuit, numberOfRows, ht]
  | some t =>
    rw [inCircuit_of_trace ht]
    by_cases hn : t.numberOfRows = 0
    · simp only [hn, Option.bind_eq_bind, Option.some_bind, bne_self_eq_false, Bool.not_false,
        ↓reduceIte, Option.pure_def, Option.some.injEq, Prod.mk.injEq]
      simp only [@eq_comm _ dt, @eq_comm _ 0, Option.some.injEq, exists_eq_left', hn, true_and,
        ne_eq, not_true_eq_false, false_and, or_false]
    · simp [hn, Option.bind_eq_bind, modify_eq_some_iff, ht]

/-- The loop of `new` from any map: it adds the enumerated keys, with traces from `init`. -/
theorem foldl_initInsert {Env : Type} (init : Nat → Sel → Env → Trace L F E Lk × Env) (d : Nat)
    (Q : Trace L F E Lk → Prop) (hQ : ∀ s env, Q (init d s env).1) :
    ∀ (l : List Sel) (acc : DecomposedTrace L Sel F E Lk × Env),
      (∀ s t, acc.1.trace s = some t → Q t) →
      (l.foldl (initInsert init d) acc).1.domainSize = acc.1.domainSize ∧
      (∀ s, ((l.foldl (initInsert init d) acc).1.trace s).isSome ↔
        (acc.1.trace s).isSome ∨ s ∈ l) ∧
      ∀ s t, (l.foldl (initInsert init d) acc).1.trace s = some t → Q t
  | [], acc, hq => ⟨rfl, by simp, hq⟩
  | a :: l, acc, hq => by
    have hq' : ∀ s t, (initInsert init d acc a).1.trace s = some t → Q t := fun s t h => by
      by_cases hs : s = a
      · subst hs
        simp only [initInsert, insert_trace_self, Option.some.injEq] at h
        exact h ▸ hQ s acc.2
      · rw [initInsert, insert_trace_of_ne _ _ _ hs] at h; exact hq s t h
    obtain ⟨hd, hk, hQ'⟩ := foldl_initInsert init d Q hQ l _ hq'
    refine ⟨hd, fun s => ?_, hQ'⟩
    rw [List.foldl_cons, hk s]
    by_cases hs : s = a
    · subst hs; simp [initInsert]
    · simp [initInsert, insert_trace_of_ne _ _ _ hs, hs]

/-- What every trace `init` builds satisfies, every trace of `new` does; the keys of `new` are
the enumerated selectors, and its domain size is the one asked for. -/
theorem new_spec {Env : Type} (init : Nat → Sel → Env → Trace L F E Lk × Env) (sels : List Sel)
    (d : Nat) (env : Env) (Q : Trace L F E Lk → Prop) (hQ : ∀ s env, Q (init d s env).1) :
    (new init sels d env).1.domainSize = d ∧
    (∀ s, ((new init sels d env).1.trace s).isSome ↔ s ∈ sels) ∧
    ∀ s t, (new init sels d env).1.trace s = some t → Q t := by
  simpa using foldl_initInsert init d Q hQ sels (⟨d, fun _ => none⟩, env) (by simp)

end Lemmas

end DecomposedTrace

/-- The environment interface `MIPSTrace::init` calls: `interpret_instruction`,
`get_constraints`, `get_lookups` and `reset`. -/
structure Interpreter (Env Sel E Lk : Type) where
  interpretInstruction : Env → Sel → Env
  getConstraints : Env → List E
  getLookups : Env → List Lk
  reset : Env → Env

/-- The two virtual machines that instantiate the protocol, with the interpreter each one
calls while building its traces. -/
inductive Machine (Sel E Lk Env : Type)
  /-- Keccak: `KeccakEnv::constraints_of`, `KeccakEnv::lookups_of`, and `standardize`. -/
  | keccak (constraintsOf : Sel → List E) (lookupsOf : Sel → List Lk) (standardize : Sel → Sel)
  /-- MIPS: the instruction interpreter over `constraints::Env`. -/
  | mips (interp : Interpreter Env Sel E Lk)

variable {L : Layout} {Sel F E Lk Env : Type}

/-- `KeccakTrace::init`: the constraints and lookups of the standardized step; the
environment is not touched. -/
def KeccakTrace.init (constraintsOf : Sel → List E) (lookupsOf : Sel → List Lk)
    (standardize : Sel → Sel) (domainSize : Nat) (step : Sel) (env : Env) :
    Trace L F E Lk × Env :=
  (Trace.init domainSize (constraintsOf (standardize step)) (lookupsOf (standardize step)), env)

/-- `MIPSTrace::init`: interpret the instruction once, read the constraints and lookups it
produced, and reset the environment for the next instruction. -/
def MIPSTrace.init (interp : Interpreter Env Sel E Lk) (domainSize : Nat) (instr : Sel)
    (env : Env) : Trace L F E Lk × Env :=
  let env := interp.interpretInstruction env instr
  (Trace.init domainSize (interp.getConstraints env) (interp.getLookups env), interp.reset env)

namespace Machine

/-- The machine's `Trace::init`. -/
def traceInit : Machine Sel E Lk Env → Nat → Sel → Env → Trace L F E Lk × Env
  | keccak constraintsOf lookupsOf standardize =>
    KeccakTrace.init constraintsOf lookupsOf standardize
  | mips interp => MIPSTrace.init interp

/-- Both machines' `Trace::init` build an empty trace with the asked domain size. -/
theorem traceInit_fst (m : Machine Sel E Lk Env) (d : Nat) (s : Sel) (env : Env) :
    ∃ cs lks, (m.traceInit d s env).1 = (Trace.init d cs lks : Trace L F E Lk) := by
  cases m <;> exact ⟨_, _, rfl⟩

end Machine

variable [DecidableEq Sel]

/-- The body of the loop of `DecomposedKeccakTrace::pad_witnesses`: `pad_dummy` on a step that
is in the circuit. -/
def DecomposedKeccakTrace.padStep (dt : DecomposedTrace L Sel F E Lk) (opcode : Sel) :
    Option (DecomposedTrace L Sel F E Lk) := do
  if (← dt.inCircuit opcode) then (dt.modify opcode Trace.padDummy).map Prod.fst else pure dt

/-- `DecomposedKeccakTrace::pad_witnesses`: the loop over every step. -/
def DecomposedKeccakTrace.padWitnesses (steps : List Sel) (dt : DecomposedTrace L Sel F E Lk) :
    Option (DecomposedTrace L Sel F E Lk) :=
  steps.foldlM DecomposedKeccakTrace.padStep dt

/-- The body of the loop of `DecomposedMIPSTrace::pad_witnesses`: `pad_dummy` on the
instruction's trace, with no `in_circuit` check. -/
def DecomposedMIPSTrace.padStep (dt : DecomposedTrace L Sel F E Lk) (opcode : Sel) :
    Option (DecomposedTrace L Sel F E Lk) :=
  (dt.modify opcode Trace.padDummy).map Prod.fst

/-- `DecomposedMIPSTrace::pad_witnesses`: the loop over every instruction. -/
def DecomposedMIPSTrace.padWitnesses (instrs : List Sel) (dt : DecomposedTrace L Sel F E Lk) :
    Option (DecomposedTrace L Sel F E Lk) :=
  instrs.foldlM DecomposedMIPSTrace.padStep dt

namespace Machine

/-- The machine's `DecomposableTracer::new`. -/
def new (m : Machine Sel E Lk Env) (sels : List Sel) (domainSize : Nat) (env : Env) :
    DecomposedTrace L Sel F E Lk × Env :=
  DecomposedTrace.new m.traceInit sels domainSize env

/-- The machine's `DecomposableTracer::pad_witnesses`. -/
def padWitnesses : Machine Sel E Lk Env → List Sel → DecomposedTrace L Sel F E Lk →
    Option (DecomposedTrace L Sel F E Lk)
  | keccak .., sels => DecomposedKeccakTrace.padWitnesses sels
  | mips _, sels => DecomposedMIPSTrace.padWitnesses sels

end Machine

/-- A property kept by every step of a fallible left fold, at the elements of the list, is
kept by the fold. -/
theorem foldlM_invariant_of_mem {β α : Type} (P : β → Prop) {g : β → α → Option β} :
    ∀ (l : List α), (∀ b a b', a ∈ l → P b → g b a = some b' → P b') →
      ∀ (b b' : β), P b → l.foldlM g b = some b' → P b'
  | [], _, b, b', hb, h => by
    simp only [List.foldlM_nil, Option.pure_def, Option.some.injEq] at h
    exact h ▸ hb
  | a :: l, hg, b, b', hb, h => by
    simp only [List.foldlM_cons, Option.bind_eq_bind, Option.bind_eq_some] at h
    obtain ⟨b₁, h₁, h₂⟩ := h
    exact foldlM_invariant_of_mem P l (fun b a b' ha => hg b a b' (List.mem_cons_of_mem _ ha))
      b₁ b' (hg b a b₁ (List.mem_cons_self a l) hb h₁) h₂

/-- A property kept by every step of a fallible left fold is kept by the fold. -/
theorem foldlM_invariant {β α : Type} (P : β → Prop) {g : β → α → Option β}
    (hg : ∀ b a b', P b → g b a = some b' → P b') (l : List α) (b b' : β) :
    P b → l.foldlM g b = some b' → P b' :=
  foldlM_invariant_of_mem P l (fun b a b' _ => hg b a b') b b'

/-- A call the prover makes on a decomposed trace. -/
inductive Op (L : Layout) (Sel F : Type)
  | pushRow (s : Sel) (row : Fin L.nRel → F)
  | padWithRow (s : Sel) (row : Fin L.nRel → F)
  | padWithZeros (s : Sel)
  | padDummy (s : Sel)
  | reset (s : Sel)
  | setSelectorColumn (s : Sel) (numberOfRows : Nat)
  | padWitnesses

variable [Zero F] [One F]

/-- One call of the protocol, on the machine `m` with the selector enumeration `sels`;
`set_selector_column` is called with the layout's `N_REL`. -/
def step (m : Machine Sel E Lk Env) (sels : List Sel) (selIdx : Sel → Nat)
    (dt : DecomposedTrace L Sel F E Lk) : Op L Sel F → Option (DecomposedTrace L Sel F E Lk)
  | .pushRow s row => dt.pushRow s row
  | .padWithRow s row => (dt.padWithRow s row).map Prod.fst
  | .padWithZeros s => (dt.padWithZeros s).map Prod.fst
  | .padDummy s => (dt.padDummy s).map Prod.fst
  | .reset s => dt.reset s
  | .setSelectorColumn s k => dt.setSelectorColumn L.nRel selIdx s k
  | .padWitnesses => m.padWitnesses sels dt

/-- A sequence of calls; `none` when one of them panics. -/
def run (m : Machine Sel E Lk Env) (sels : List Sel) (selIdx : Sel → Nat)
    (dt : DecomposedTrace L Sel F E Lk) (ops : List (Op L Sel F)) :
    Option (DecomposedTrace L Sel F E Lk) :=
  ops.foldlM (step m sels selIdx) dt

/-- One call with the value it returns: `pad_with_row`, `pad_with_zeros` and `pad_dummy` return
the number of rows they added, the other calls nothing. -/
def stepOut (m : Machine Sel E Lk Env) (sels : List Sel) (selIdx : Sel → Nat)
    (dt : DecomposedTrace L Sel F E Lk) :
    Op L Sel F → Option (DecomposedTrace L Sel F E Lk × Option Nat)
  | .padWithRow s row => (dt.padWithRow s row).map fun r => (r.1, some r.2)
  | .padWithZeros s => (dt.padWithZeros s).map fun r => (r.1, some r.2)
  | .padDummy s => (dt.padDummy s).map fun r => (r.1, some r.2)
  | op => (step m sels selIdx dt op).map fun dt => (dt, none)

/-- A sequence of calls with the values they return; `none` when one of them panics. -/
def runOut (m : Machine Sel E Lk Env) (sels : List Sel) (selIdx : Sel → Nat) :
    DecomposedTrace L Sel F E Lk → List (Op L Sel F) →
      Option (DecomposedTrace L Sel F E Lk × List (Option Nat))
  | dt, [] => some (dt, [])
  | dt, op :: ops => do
    let (dt', out) ← stepOut m sels selIdx dt op
    let (dt'', outs) ← runOut m sels selIdx dt' ops
    pure (dt'', out :: outs)

end O1vm
end ProofSystems
