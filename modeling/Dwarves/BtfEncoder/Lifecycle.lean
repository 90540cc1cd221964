import Dwarves.BtfEncoder.Driver

/-
The lifecycle of sessions over every run of calls, each call meeting any
pattern of failures: without a session there is no function table, so
collect_symbols always starts from an empty one; a failed call of
cu__encode_btf ends the session; and within a session the function table stays
sorted by name and keeps the entries collect_symbols left, only their generated
flags changing.
-/

namespace Dwarves

/-- No entry of the table is generated yet. -/
def FunctionTable.NoneGenerated (t : FunctionTable) : Prop :=
  ∀ func ∈ t.entries, func.generated = false

/-- The names and addresses of the entries: all of an entry but its generated flag. -/
def FunctionTable.keys (t : FunctionTable) : List (CStr × Nat) :=
  t.entries.map fun func => (func.name, func.addr)

/-- Setting an element to the value it has changes nothing. -/
theorem set_of_getElem? {α : Type} {l : List α} {i : Nat} {a : α} (at_i : l[i]? = some a) :
    l.set i a = l := by
  apply List.ext_getElem?
  intro j
  rw [List.getElem?_set]
  split_ifs with same inside
  · rw [← same, at_i]
  · rw [← same, List.getElem?_eq_none (by omega)]
  · rfl

/-! ## The table collect_symbols leaves -/

/-- collect_function adds entries not generated. -/
theorem collectFunction_noneGenerated (env : Env) (sym : Sym) {t : FunctionTable}
    (fresh : t.NoneGenerated) : (collectFunction env t sym).2.NoneGenerated := by
  have added : ∀ func ∈ t.entries ++ [⟨sym.name, sym.value, false⟩], func.generated = false := by
    simpa [or_imp, forall_and] using fresh
  simp only [collectFunction]
  split_ifs <;> first | exact fresh | exact added

theorem collectSymbolsLoop_noneGenerated (env : Env) (elf : Elf) (force collectPercpuVars : Bool) :
    ∀ (syms : List Sym) (st : SymbolPass), st.table.NoneGenerated →
      (collectSymbolsLoop env elf force collectPercpuVars syms st).2.table.NoneGenerated
  | [], _, fresh => fresh
  | sym :: rest, st, fresh => by
    have step : (collectSymbolsStep env elf force collectPercpuVars st sym).2.table.NoneGenerated := by
      simp only [collectSymbolsStep]
      split_ifs <;> simp [fresh, collectFunction_noneGenerated]
    simp only [collectSymbolsLoop]
    split_ifs
    · exact step
    · exact collectSymbolsLoop_noneGenerated env elf force collectPercpuVars rest _ step

/-- A successful collect_symbols on a table with no generated entry leaves a table sorted by
name with no generated entry. -/
theorem collectSymbols_table {env : Env} {elf : Elf} {force collectPercpuVars : Bool}
    {table table' : FunctionTable} {percpuVars : List VarInfo} (fresh : table.NoneGenerated)
    (ok : collectSymbols env elf force collectPercpuVars table = (0, table', percpuVars)) :
    table'.names.Sorted (· ≤ ·) ∧ table'.NoneGenerated := by
  have collected := collectSymbolsLoop_noneGenerated env elf force collectPercpuVars elf.symtab
    ⟨table, [], .empty⟩ fresh
  simp only [collectSymbols] at ok
  generalize collectSymbolsLoop env elf force collectPercpuVars elf.symtab ⟨table, [], .empty⟩ =
    pass at ok collected
  split_ifs at ok with failed kernel filterFailed
  · simp at ok
  · simp at ok
  · simp only [Prod.mk.injEq] at ok
    obtain ⟨keep, rfl⟩ := filterFunctions_ok (Prod.ext (by simpa using filterFailed) ok.2.1)
    rcases entries : pass.2.table.functions with _ | entries'
    · simp [entries, FunctionTable.names, FunctionTable.entries, FunctionTable.NoneGenerated]
    · have sorted := qsort_sorted ElfFunction.name entries'
      have perm := qsort_perm ElfFunction.name entries'
      simp only [FunctionTable.NoneGenerated, FunctionTable.entries, entries,
        Option.getD_some] at collected
      refine ⟨?_, ?_⟩
      · simpa [FunctionTable.names, FunctionTable.entries, entries] using
          sorted.sublist ((List.filter_sublist _).map _)
      · simpa [FunctionTable.NoneGenerated, FunctionTable.entries, entries] using
          fun func member _ => collected func (perm.mem_iff.1 member)
  · simp only [Prod.mk.injEq] at ok
    rw [← ok.2.1]
    simp [FunctionTable.names, FunctionTable.entries, FunctionTable.NoneGenerated, deleteFunctions]

/-! ## Calls that end a session -/

/-- The body of cu__encode_btf leaves a session, whatever it returns. -/
theorem encodeCu_active (env : Env) (e : Encoder) (w : BtfElf) (cu : Cu)
    (force skipEncodingVars : Bool) : (encodeCu env e w cu force skipEncodingVars).2.btfe ≠ none := by
  simp only [encodeCu]
  split_ifs <;> simp

/-- The session switch keeps the globals or ends the session. -/
theorem sessionSwitch_cases (env : Env) (e : Encoder) (cu : Cu) :
    (sessionSwitch env e cu).2.1 = e ∨ (sessionSwitch env e cu).2.1 = e.teardown := by
  unfold sessionSwitch btfEncoderEncode
  split
  · split_ifs <;> simp
  · exact .inl rfl

/-- After a session switch that succeeds and leaves no session, cu__encode_btf goes on as
from the state the switch left. -/
theorem cuEncodeBtf_switched {env : Env} {e : Encoder} {cu : Cu} (force skipEncodingVars : Bool)
    (switchOk : (sessionSwitch env e cu).1 = 0) (idle : (sessionSwitch env e cu).2.1.btfe = none) :
    (cuEncodeBtf env e cu force skipEncodingVars).1 =
        (cuEncodeBtf env (sessionSwitch env e cu).2.1 cu force skipEncodingVars).1 ∧
      (cuEncodeBtf env e cu force skipEncodingVars).2.1 =
        (cuEncodeBtf env (sessionSwitch env e cu).2.1 cu force skipEncodingVars).2.1 := by
  have again : ∀ s : Encoder, s.btfe = none → sessionSwitch env s cu = (0, s, none) :=
    fun s idle => by simp [sessionSwitch, idle]
  simp only [cuEncodeBtf]
  rw [again _ idle]
  simp only [switchOk, ne_eq, not_true_eq_false, if_false]
  split <;> (try split_ifs) <;> exact ⟨rfl, rfl⟩

/-- sessionStart fails only without a session, when btf_elf__new does. -/
theorem sessionStart_eq_none {env : Env} {e : Encoder} {cu : Cu} {skipEncodingVars : Bool}
    (started : sessionStart env e cu skipEncodingVars = none) : e.btfe = none := by
  unfold sessionStart at started
  split at started
  · simp at started
  · assumption

/-- A call of cu__encode_btf keeps "no session, no function table", and one that fails
leaves no session. -/
theorem cuEncodeBtf_idle (env : Env) (e : Encoder) (cu : Cu) (force skipEncodingVars : Bool)
    (idleEmpty : e.btfe = none → e.table = deleteFunctions) :
    ((cuEncodeBtf env e cu force skipEncodingVars).2.1.btfe = none →
      (cuEncodeBtf env e cu force skipEncodingVars).2.1.table = deleteFunctions) ∧
    ((cuEncodeBtf env e cu force skipEncodingVars).1 ≠ 0 →
      (cuEncodeBtf env e cu force skipEncodingVars).2.1.btfe = none) := by
  have switchedIdle : (sessionSwitch env e cu).2.1.btfe = none →
      (sessionSwitch env e cu).2.1.table = deleteFunctions := by
    rcases sessionSwitch_cases env e cu with same | ended
    · rw [same]; exact idleEmpty
    · rw [ended]; exact fun _ => rfl
  simp only [cuEncodeBtf]
  split_ifs with switchFailed
  · exact ⟨fun _ => rfl, fun _ => rfl⟩
  split
  · rename_i started
    have idle := sessionStart_eq_none started
    exact ⟨fun _ => switchedIdle idle, fun _ => idle⟩
  · rename_i err e2 w _
    split_ifs with startFailed encodeFailed
    · exact ⟨fun _ => rfl, fun _ => rfl⟩
    · exact ⟨fun _ => rfl, fun _ => rfl⟩
    · exact ⟨fun idle => absurd idle (encodeCu_active env e2 w cu force skipEncodingVars),
        fun failed => absurd failed encodeFailed⟩

/-- A successful call of cu__encode_btf is the body on the session's writer, for a CU of the
session's file, or else the body on a new writer of the CU's file with the table
collect_symbols left and no index type. -/
theorem cuEncodeBtf_ok_cases {env : Env} {e e' : Encoder} {cu : Cu} {force skipEncodingVars : Bool}
    {flushed : Option BtfElf} (ok : cuEncodeBtf env e cu force skipEncodingVars = (0, e', flushed)) :
    (∃ w, e.btfe = some w ∧ cu.filename = w.filename ∧
      encodeCu env e w cu force skipEncodingVars = (0, e')) ∨
    (∀ w, e.btfe = some w → cu.filename ≠ w.filename) ∧
      ∃ table percpuVars, encodeCu env
          { e with
            btfe := some ⟨cu.filename, cu.elf, e.baseBtf, [], []⟩, table, percpuVars,
            hasIndexType := false, needIndexType := false, arrayIndexId := 0 }
        ⟨cu.filename, cu.elf, e.baseBtf, [], []⟩ cu force skipEncodingVars = (0, e') := by
  by_cases continued : ∃ w, e.btfe = some w ∧ cu.filename = w.filename
  · obtain ⟨w, active, sameFile⟩ := continued
    rw [cuEncodeBtf_of_session force skipEncodingVars active sameFile] at ok
    obtain ⟨result, state, -⟩ := Prod.mk.inj_iff.1 ok |>.imp_right Prod.mk.inj_iff.1
    rw [result] at state
    exact .inl ⟨w, active, sameFile, Prod.ext result state⟩
  push_neg at continued
  refine .inr ⟨continued, ?_⟩
  have switchOk : (sessionSwitch env e cu).1 = 0 := by
    by_contra failed
    have result := congrArg Prod.fst ok
    simp only [cuEncodeBtf, if_pos failed] at result
    exact failed result
  have idle : (sessionSwitch env e cu).2.1.btfe = none := by
    cases active : e.btfe with
    | none => simp [sessionSwitch, active]
    | some w =>
      have differs : w.filename.strcmp cu.filename ≠ .eq := by
        rw [ne_eq, CStr.strcmp_eq_iff]
        exact (continued w active).symm
      simp [sessionSwitch, active, differs, btfEncoderEncode, Encoder.teardown]
  obtain ⟨sameResult, sameState⟩ := cuEncodeBtf_switched force skipEncodingVars switchOk idle
  rw [ok] at sameResult sameState
  have started : cuEncodeBtf env (sessionSwitch env e cu).2.1 cu force skipEncodingVars =
      (0, (cuEncodeBtf env (sessionSwitch env e cu).2.1 cu force skipEncodingVars).2) :=
    Prod.ext sameResult.symm rfl
  obtain ⟨table, percpuVars, -, -, encoded, -⟩ := cuEncodeBtf_new_session idle started
  rw [← sameState] at encoded
  rcases sessionSwitch_cases env e cu with same | ended
  · rw [same] at encoded
    exact ⟨table, percpuVars, encoded⟩
  · rw [ended] at encoded
    exact ⟨table, percpuVars, encoded⟩

/-! ## The function table within a session -/

/-- should_generate_function changes at most a generated flag. -/
theorem shouldGenerateFunction_keys (t : FunctionTable) (name : CStr) :
    (shouldGenerateFunction t name).2.keys = t.keys ∧
      (shouldGenerateFunction t name).2.functionsAlloc = t.functionsAlloc := by
  unfold shouldGenerateFunction
  split
  · exact ⟨rfl, rfl⟩
  split
  · exact ⟨rfl, rfl⟩
  rename_i i _ _ func entry
  split_ifs
  · exact ⟨rfl, rfl⟩
  refine ⟨?_, rfl⟩
  have atI : t.keys[i]? = some (func.name, func.addr) := by
    simp [FunctionTable.keys, entry]
  simp only [FunctionTable.keys, FunctionTable.entries, Option.getD_some, List.map_set]
  exact set_of_getElem? atI

/-- The tests of the function pass change at most generated flags. -/
theorem selectFunctions_keys :
    ∀ (fns : List Function) (t : FunctionTable),
      (selectFunctions fns t).2.keys = t.keys ∧
        (selectFunctions fns t).2.functionsAlloc = t.functionsAlloc
  | [], _ => ⟨rfl, rfl⟩
  | fn :: rest, t => by
    have tested : (selectFunction t fn).2.keys = t.keys ∧
        (selectFunction t fn).2.functionsAlloc = t.functionsAlloc := by
      unfold selectFunction
      split_ifs
      · exact ⟨rfl, rfl⟩
      · exact shouldGenerateFunction_keys t fn.name
      · exact ⟨rfl, rfl⟩
    obtain ⟨keys, alloc⟩ := selectFunctions_keys rest (selectFunction t fn).2
    exact ⟨keys.trans tested.1, alloc.trans tested.2⟩

theorem FunctionTable.names_eq_keys (t : FunctionTable) : t.names = t.keys.map Prod.fst := by
  simp [FunctionTable.names, FunctionTable.keys]

/-- A successful body of cu__encode_btf keeps the function table but for generated flags,
and the per-CPU table. -/
theorem encodeCu_keys {env : Env} {e e' : Encoder} {w : BtfElf} {cu : Cu}
    {force skipEncodingVars : Bool} (ok : encodeCu env e w cu force skipEncodingVars = (0, e')) :
    e'.table.keys = e.table.keys ∧ e'.table.functionsAlloc = e.table.functionsAlloc ∧
      e'.percpuVars = e.percpuVars := by
  obtain ⟨prepared, -, -, -, rfl, -, -, -, -, -, -, rfl⟩ := encodeCu_ok ok
  refine ⟨(selectFunctions_keys _ _).1, (selectFunctions_keys _ _).2, ?_⟩
  unfold prepareIndexType
  split
  · rfl
  · split <;> rfl

/-! ## Every reachable state -/

/-- The globals of a reachable state: without a session no function table, with one a
function table sorted by name. -/
structure Encoder.Consistent (e : Encoder) : Prop where
  idle : e.btfe = none → e.table = deleteFunctions
  sorted : e.btfe ≠ none → e.table.names.Sorted (· ≤ ·)

theorem Encoder.teardown_consistent (e : Encoder) : e.teardown.Consistent :=
  ⟨fun _ => rfl, fun active => absurd rfl active⟩

/-- A session that goes on, or one that starts with a successful collect_symbols, has a
function table sorted by name. -/
theorem sessionStart_sorted {env : Env} {e e2 : Encoder} {cu : Cu} {skipEncodingVars : Bool}
    {w : BtfElf} (consistent : e.Consistent)
    (started : sessionStart env e cu skipEncodingVars = some (0, e2, w)) :
    e2.btfe = some w ∧ e2.table.names.Sorted (· ≤ ·) := by
  unfold sessionStart at started
  split at started
  · rename_i active
    simp only [Option.some.injEq, Prod.mk.injEq, true_and] at started
    obtain ⟨rfl, rfl⟩ := started
    exact ⟨active, consistent.sorted (by simp [active])⟩
  · rename_i idle
    obtain ⟨w0, -, collected⟩ := Option.map_eq_some'.1 started
    generalize collectedEq : collectSymbols env w0.elf e.btfElfForce (!skipEncodingVars) e.table =
      result at collected
    obtain ⟨result, table, percpuVars⟩ := result
    by_cases collectedOk : result = 0
    · subst collectedOk
      simp only [ne_eq, not_true_eq_false, if_false, Prod.mk.injEq, true_and] at collected
      obtain ⟨rfl, rfl⟩ := collected
      have fresh : e.table.NoneGenerated := by
        simp [consistent.idle idle, FunctionTable.NoneGenerated, FunctionTable.entries,
          deleteFunctions]
      exact ⟨rfl, (collectSymbols_table fresh collectedEq).1⟩
    · simp [collectedOk] at collected

/-- cu__encode_btf keeps the globals consistent. -/
theorem cuEncodeBtf_consistent (env : Env) (e : Encoder) (cu : Cu) (force skipEncodingVars : Bool)
    (consistent : e.Consistent) : (cuEncodeBtf env e cu force skipEncodingVars).2.1.Consistent := by
  refine ⟨(cuEncodeBtf_idle env e cu force skipEncodingVars consistent.idle).1, ?_⟩
  have switched : (sessionSwitch env e cu).2.1.Consistent := by
    rcases sessionSwitch_cases env e cu with same | ended
    · rw [same]; exact consistent
    · rw [ended]; exact e.teardown_consistent
  simp only [cuEncodeBtf]
  split_ifs
  · exact e.teardown_consistent.sorted
  split
  · rename_i started
    exact fun active => absurd (sessionStart_eq_none started) active
  · rename_i err e2 w started
    split_ifs with startFailed encodeFailed
    · exact e2.teardown_consistent.sorted
    · exact (encodeCu env e2 w cu force skipEncodingVars).2.teardown_consistent.sorted
    · simp only [not_not] at startFailed encodeFailed
      subst startFailed
      have kept := encodeCu_keys (Prod.ext encodeFailed rfl)
      intro _
      rw [FunctionTable.names_eq_keys, kept.1, ← FunctionTable.names_eq_keys]
      exact (sessionStart_sorted switched started).2

/-- Every reachable state is consistent. -/
theorem Reachable.consistent {baseBtf : Nat} {e : Encoder} (reachable : Reachable baseBtf e) :
    e.Consistent :=
  reachable.invariant Encoder.Consistent ⟨fun _ => rfl, fun active => absurd rfl active⟩
    (fun env e cu force skipEncodingVars => cuEncodeBtf_consistent env e cu force skipEncodingVars)
    (fun e _ => e.teardown_consistent)

/-! ## Sessions run to their end -/

/-- A property of a session's globals and writer, indexed by the CUs encoded so far, that
every successful body of cu__encode_btf keeps, holds after calls on CUs of the session's
file. -/
theorem runCus_invariant {env : Env} (inv : List Cu → Encoder → BtfElf → Prop)
    (keeps : ∀ {done : List Cu} {e e' : Encoder} {w : BtfElf} {cu : Cu}
      {force skipEncodingVars : Bool}, inv done e w → e.btfe = some w →
      encodeCu env e w cu force skipEncodingVars = (0, e') →
      ∃ w', e'.btfe = some w' ∧ w'.filename = w.filename ∧ inv (done ++ [cu]) e' w') :
    ∀ {calls : List (Cu × Bool × Bool)} {done : List Cu} {e e' : Encoder} {w : BtfElf},
      e.btfe = some w → inv done e w → (∀ call ∈ calls, call.1.filename = w.filename) →
      runCus env e calls = some e' → ∃ w', e'.btfe = some w' ∧ inv (done ++ calls.map Prod.fst) e' w'
  | [], done, e, e', w, active, holds, _, ran => by
    simp only [runCus, Option.some.injEq] at ran
    subst ran
    exact ⟨w, active, by simpa using holds⟩
  | (cu, force, skipEncodingVars) :: rest, done, e, e', w, active, holds, sameFile, ran => by
    simp only [runCus] at ran
    rw [cuEncodeBtf_of_session force skipEncodingVars active (sameFile _ (List.mem_cons_self _ _))]
      at ran
    simp only at ran
    split_ifs at ran with encoded failed
    · exact absurd encoded failed
    obtain ⟨w1, active1, sameName, holds1⟩ := keeps holds active (Prod.ext encoded rfl)
    obtain ⟨w', active', holds'⟩ := runCus_invariant inv keeps active1 holds1
      (fun call member => sameName ▸ sameFile call (List.mem_cons_of_mem _ member)) ran
    exact ⟨w', active', by simpa using holds'⟩

/-- The first call of a session run from a state without one creates the writer of the CU's
file, collects its symbols from the empty table and encodes the CU; the other calls follow. -/
theorem runCus_new_session {env : Env} {e e' : Encoder} {cu : Cu} {force skipEncodingVars : Bool}
    {rest : List (Cu × Bool × Bool)} (consistent : e.Consistent) (idle : e.btfe = none)
    (ran : runCus env e ((cu, force, skipEncodingVars) :: rest) = some e') :
    ∃ table percpuVars e1,
      collectSymbols env cu.elf e.btfElfForce (!skipEncodingVars) deleteFunctions =
        (0, table, percpuVars) ∧
      table.names.Sorted (· ≤ ·) ∧ table.NoneGenerated ∧
      encodeCu env
          { e with
            btfe := some ⟨cu.filename, cu.elf, e.baseBtf, [], []⟩, table, percpuVars,
            hasIndexType := false, needIndexType := false, arrayIndexId := 0 }
        ⟨cu.filename, cu.elf, e.baseBtf, [], []⟩ cu force skipEncodingVars = (0, e1) ∧
      runCus env e1 rest = some e' := by
  simp only [runCus] at ran
  split_ifs at ran with started
  obtain ⟨table, percpuVars, -, collected, encoded, -⟩ :=
    cuEncodeBtf_new_session idle (Prod.ext started rfl)
  rw [consistent.idle idle] at collected
  have fresh : deleteFunctions.NoneGenerated := by
    simp [FunctionTable.NoneGenerated, FunctionTable.entries, deleteFunctions]
  obtain ⟨sorted, noneGenerated⟩ := collectSymbols_table fresh collected
  exact ⟨table, percpuVars, _, collected, sorted, noneGenerated, encoded, ran⟩

/-- In every reachable state, without a session there is no function table (so
collect_symbols starts from an empty one) and within one the table is sorted by name; from
such a state a call of cu__encode_btf that fails leaves no session and no function table,
and a successful one on a CU of the session's file changes nothing in the function table
but generated flags, and keeps the per-CPU table. -/
theorem reachable_session_state (baseBtf : Nat) (e : Encoder) (reachable : Reachable baseBtf e) :
    e.Consistent ∧
    ∀ env cu force skipEncodingVars,
      ((cuEncodeBtf env e cu force skipEncodingVars).1 ≠ 0 →
        (cuEncodeBtf env e cu force skipEncodingVars).2.1.btfe = none ∧
        (cuEncodeBtf env e cu force skipEncodingVars).2.1.table = deleteFunctions) ∧
      ∀ w, e.btfe = some w → cu.filename = w.filename →
        (cuEncodeBtf env e cu force skipEncodingVars).1 = 0 →
        (cuEncodeBtf env e cu force skipEncodingVars).2.1.table.keys = e.table.keys ∧
        (cuEncodeBtf env e cu force skipEncodingVars).2.1.table.functionsAlloc =
          e.table.functionsAlloc ∧
        (cuEncodeBtf env e cu force skipEncodingVars).2.1.percpuVars = e.percpuVars := by
  have consistent := reachable.consistent
  refine ⟨consistent, fun env cu force skipEncodingVars => ⟨fun failed => ?_, ?_⟩⟩
  · have ended := (cuEncodeBtf_idle env e cu force skipEncodingVars consistent.idle).2 failed
    exact ⟨ended, (cuEncodeBtf_consistent env e cu force skipEncodingVars consistent).idle ended⟩
  · intro w active sameFile ok
    rw [cuEncodeBtf_of_session force skipEncodingVars active sameFile] at ok ⊢
    simp only at ok
    simp only [ok, ne_eq, not_true_eq_false, if_false]
    exact encodeCu_keys (Prod.ext ok rfl)

/-- An object file whose ELF file has no symbols. -/
def arrayObjectElf : Elf := ⟨[], [], 0, 0⟩

/-- A CU of a.o with one array of two void elements and no "int". -/
def arrayCu : Cu := ⟨.ofAscii "a.o", arrayObjectElf, [.arrayType 0 [2]], [], []⟩

/-- The globals after encoding the array CU: a session of a.o that needs an index type and
has one. -/
def arrayCuEncoded : Encoder := (cuEncodeBtf Env.reliable (Encoder.init 0) arrayCu false false).2.1

/-- The invariant in the session the array CU opens. -/
theorem reachable_session_state_in_array_session :
    Reachable 0 arrayCuEncoded ∧ arrayCuEncoded.btfe.isSome ∧
    arrayCuEncoded.Consistent ∧
    ∀ env cu force skipEncodingVars,
      ((cuEncodeBtf env arrayCuEncoded cu force skipEncodingVars).1 ≠ 0 →
        (cuEncodeBtf env arrayCuEncoded cu force skipEncodingVars).2.1.btfe = none ∧
        (cuEncodeBtf env arrayCuEncoded cu force skipEncodingVars).2.1.table = deleteFunctions) ∧
      ∀ w, arrayCuEncoded.btfe = some w → cu.filename = w.filename →
        (cuEncodeBtf env arrayCuEncoded cu force skipEncodingVars).1 = 0 →
        (cuEncodeBtf env arrayCuEncoded cu force skipEncodingVars).2.1.table.keys =
          arrayCuEncoded.table.keys ∧
        (cuEncodeBtf env arrayCuEncoded cu force skipEncodingVars).2.1.table.functionsAlloc =
          arrayCuEncoded.table.functionsAlloc ∧
        (cuEncodeBtf env arrayCuEncoded cu force skipEncodingVars).2.1.percpuVars =
          arrayCuEncoded.percpuVars :=
  have reachable : Reachable 0 arrayCuEncoded := Reachable.init.after_cuEncodeBtf _ _ _ _
  ⟨reachable, by decide, reachable_session_state 0 arrayCuEncoded reachable⟩

end Dwarves
