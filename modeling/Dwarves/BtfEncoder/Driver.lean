import Dwarves.BtfEncoder.Symbols
import Dwarves.BtfEncoder.TypeEncoder

/-
The driver of the encoder. cu__encode_btf encodes one CU into the writer of the
current session: a CU of another file first ends the session, a call without a
session starts one with a new writer and the symbols of its file, and any error
frees the writer and the function table. btf_encoder__encode ends a session by
flushing its writer.
-/

namespace Dwarves

/-- The globals the encoder keeps between calls: btfe, the function table, the per-CPU
table, array_index_id, has_index_type and need_index_type, with btf_elf__force of libbtf
and the number of types of base_btf, which seeds every writer. -/
structure Encoder where
  btfe : Option BtfElf
  table : FunctionTable
  percpuVars : List VarInfo
  arrayIndexId : Nat
  hasIndexType : Bool
  needIndexType : Bool
  btfElfForce : Bool
  baseBtf : Nat
deriving DecidableEq

/-- The globals at program start. -/
def Encoder.init (baseBtf : Nat) : Encoder :=
  ⟨none, deleteFunctions, [], 0, false, false, false, baseBtf⟩

/-- delete_functions, btf_elf__delete and btfe = NULL, on the error path and at the end of
a session. -/
def Encoder.teardown (e : Encoder) : Encoder := { e with btfe := none, table := deleteFunctions }

/-- btf_encoder__encode on the session's writer: the per-CPU DATASEC when there are per-CPU
entries, its result unchecked, then the flush, and the session ends. The writer handed to
btf_elf__encode comes back when it is written. -/
def btfEncoderEncode (env : Env) (e : Encoder) (w : BtfElf) : Int × Encoder × Option BtfElf :=
  let w := if w.percpuSecinfo.length ≠ 0 then (btfElfAddDatasecType env w percpuSection).2 else w
  let err := btfElfEncode env w
  (err, e.teardown, if err = 0 then some w else none)

/-! ## The passes of cu__encode_btf -/

/-- has_arg_names: every parameter of the prototype has a name. -/
def hasArgNames (ftype : Ftype) : Bool := ftype.params.all fun param => param.name.isSome

/-- An int passed as a uint32_t. -/
def toU32 (x : Int) : Nat := (x % 2 ^ 32).toNat

/-- The test of the function pass, and the function table after it: with functions_cnt != 0
a function with named arguments that should_generate_function lets through, else a
defined external function. -/
def selectFunction (t : FunctionTable) (fn : Function) : Bool × FunctionTable :=
  if t.functionsCnt ≠ 0 then
    if !hasArgNames fn.proto then (false, t) else shouldGenerateFunction t fn.name
  else (!fn.declaration && fn.external, t)

/-- The decisions of the function pass on a list of functions: the names selected, in
order, and the function table after the tests. -/
def selectFunctions : List Function → FunctionTable → List CStr × FunctionTable
  | [], t => ([], t)
  | fn :: rest, t =>
    let selected := selectFunction t fn
    let later := selectFunctions rest selected.2
    (if selected.1 then fn.name :: later.1 else later.1, later.2)

/-- The function pass: each selected function gets a FUNC_PROTO and a FUNC naming it, and
the first failure ends the pass. -/
def functionPass (env : Env) (typeIdOff : Nat) :
    List Function → BtfElf → FunctionTable → Int × BtfElf × FunctionTable
  | [], w, t => (0, w, t)
  | fn :: rest, w, t =>
    let selected := selectFunction t fn
    if selected.1 then
      let proto := btfElfAddFuncProto env w fn.proto typeIdOff
      let func := btfElfAddRefType env proto.2 .func (toU32 proto.1) (some fn.name) false
      if proto.1 < 0 ∨ func.1 < 0 then (-1, func.2, selected.2)
      else functionPass env typeIdOff rest func.2 selected.2
    else functionPass env typeIdOff rest w selected.2

/-- The variable pass: a global variable, or one with a spec, found among the per-CPU
variables gets a VAR and a section info entry; one of void type is an error unless forced,
and the first failure ends the pass. -/
def variablePass (env : Env) (percpuVars : List VarInfo) (force : Bool) (typeIdOff : Nat) :
    List Variable → BtfElf → Int × BtfElf
  | [], w => (0, w)
  | var :: rest, w =>
    if var.declaration ∧ var.spec = none then variablePass env percpuVars force typeIdOff rest w
    else if var.scope ≠ .vscopeGlobal ∧ var.spec = none then
      variablePass env percpuVars force typeIdOff rest w
    else
      let type := (var.spec.map VariableSpec.type).getD var.type
      let external := (var.spec.map VariableSpec.external).getD var.external
      match percpuVarExists percpuVars var.addr with
      | none => variablePass env percpuVars force typeIdOff rest w
      | some (size, name) =>
        if type = 0 then
          if force then variablePass env percpuVars force typeIdOff rest w else (-1, w)
        else
          let linkage := if external then Linkage.globalAllocated else .static
          let id := btfElfAddVarType env w (type + typeIdOff) name linkage
          if id.1 < 0 then (-1, id.2)
          else
            let offset := ulongSub var.addr w.elf.percpuBaseAddr % 2 ^ 32
            let info := btfElfAddVarSecinfo env id.2 (toU32 id.1) offset size
            if info.1 < 0 then (-1, info.2)
            else variablePass env percpuVars force typeIdOff rest info.2

/-! ## cu__encode_btf -/

/-- "int", the base type the array index type is looked up by. -/
def intName : CStr := .ofAscii "int"

/-- The name of the index type added when a session's arrays have none. -/
def arraySizeTypeName : CStr := .ofAscii "__ARRAY_SIZE_TYPE__"

/-- The base type added as index type: 32 bits, unsigned, not a bool. -/
def arraySizeType : BaseType := ⟨32, false, false⟩

/-- The index type a CU's arrays use: the CU's "int", else the ID just past the CU's
types; kept once the session has an index type. -/
def prepareIndexType (e : Encoder) (cu : Cu) (typeIdOff : Nat) : Encoder :=
  if e.hasIndexType then e
  else
    match cu.findBaseTypeByName intName with
    | some id => { e with hasIndexType := true, arrayIndexId := typeIdOff + id }
    | none => { e with hasIndexType := false, arrayIndexId := typeIdOff + cu.nrEntries }

/-- After the type pass, the __ARRAY_SIZE_TYPE__ base type when the session's arrays need
an index type it does not have; the writer's result is not checked. -/
def addIndexType (env : Env) (e : Encoder) (w : BtfElf) : BtfElf × Encoder :=
  if e.needIndexType ∧ !e.hasIndexType then
    ((btfElfAddBaseType env w arraySizeType (some arraySizeTypeName)).2,
      { e with hasIndexType := true })
  else (w, e)

/-- The start of cu__encode_btf: a session of another file is ended by
btf_encoder__encode. -/
def sessionSwitch (env : Env) (e : Encoder) (cu : Cu) : Int × Encoder × Option BtfElf :=
  match e.btfe with
  | some w => if w.filename.strcmp cu.filename ≠ .eq then btfEncoderEncode env e w else (0, e, none)
  | none => (0, e, none)

/-- Without a session, a new writer for the CU's file and collect_symbols on it, which
reads btf_elf__force as the previous call left it; none when btf_elf__new fails. With a
session, its writer. -/
def sessionStart (env : Env) (e : Encoder) (cu : Cu) (skipEncodingVars : Bool) :
    Option (Int × Encoder × BtfElf) :=
  match e.btfe with
  | some w => some (0, e, w)
  | none =>
    (btfElfNew env cu.filename cu.elf e.baseBtf).map fun w =>
      let collected := collectSymbols env w.elf e.btfElfForce (!skipEncodingVars) e.table
      let e := { e with btfe := some w, table := collected.2.1, percpuVars := collected.2.2 }
      if collected.1 ≠ 0 then (collected.1, e, w)
      else (0, { e with hasIndexType := false, needIndexType := false, arrayIndexId := 0 }, w)

/-- The body of cu__encode_btf on the session's writer: the type pass, the
__ARRAY_SIZE_TYPE__ index type when an array needs one (its result unchecked), the
function pass and, unless skipped or without a per-CPU section, the variable pass. -/
def encodeCu (env : Env) (e : Encoder) (w : BtfElf) (cu : Cu) (force skipEncodingVars : Bool) :
    Int × Encoder :=
  let typeIdOff := w.nrTypes
  let e := prepareIndexType { e with btfElfForce := force } cu typeIdOff
  let types := typePass env e.arrayIndexId typeIdOff cu.types 1 w e.needIndexType
  let e := { e with btfe := some types.2.1, needIndexType := types.2.2 }
  if types.1 ≠ 0 then (-1, e)
  else
    let indexed := addIndexType env e types.2.1
    let functions := functionPass env typeIdOff cu.functions indexed.1 indexed.2.table
    let e := { indexed.2 with btfe := some functions.2.1, table := functions.2.2 }
    if functions.1 ≠ 0 then (-1, e)
    else if skipEncodingVars ∨ w.elf.percpuShndx = 0 then (0, e)
    else
      let vars := variablePass env e.percpuVars force typeIdOff cu.vars functions.2.1
      (vars.1, { e with btfe := some vars.2 })

/-- cu__encode_btf: its result, the globals after it, and the writer flushed when the call
ended the previous session. -/
def cuEncodeBtf (env : Env) (e : Encoder) (cu : Cu) (force skipEncodingVars : Bool) :
    Int × Encoder × Option BtfElf :=
  let switched := sessionSwitch env e cu
  if switched.1 ≠ 0 then (switched.1, switched.2.1.teardown, switched.2.2)
  else
    match sessionStart env switched.2.1 cu skipEncodingVars with
    | none => (-1, switched.2.1, switched.2.2)
    | some (err, e, w) =>
      if err ≠ 0 then (err, e.teardown, switched.2.2)
      else
        let encoded := encodeCu env e w cu force skipEncodingVars
        (encoded.1, if encoded.1 ≠ 0 then encoded.2.teardown else encoded.2, switched.2.2)

/-! ## Runs -/

/-- A call into the encoder: cu__encode_btf with its flags, or btf_encoder__encode. -/
inductive Call where
  | cuEncodeBtf (cu : Cu) (force skipEncodingVars : Bool)
  | btfEncoderEncode
deriving DecidableEq

/-- One call: its result, the globals after it and the writer it flushed; none for
btf_encoder__encode without a session, which the C code does not allow. -/
def step (env : Env) (e : Encoder) : Call → Option (Int × Encoder × Option BtfElf)
  | .cuEncodeBtf cu force skipEncodingVars => some (cuEncodeBtf env e cu force skipEncodingVars)
  | .btfEncoderEncode => e.btfe.map (btfEncoderEncode env e)

/-- The states the encoder reaches from program start, each call meeting any pattern of
failures of the writer, the ELF reader and the allocator. -/
inductive Reachable (baseBtf : Nat) : Encoder → Prop where
  | init : Reachable baseBtf (Encoder.init baseBtf)
  | step {e e' : Encoder} {env : Env} {call : Call} {result : Int} {flushed : Option BtfElf} :
      Reachable baseBtf e → step env e call = some (result, e', flushed) → Reachable baseBtf e'

/-- Every call of cu__encode_btf from a reachable state reaches a state. -/
theorem Reachable.after_cuEncodeBtf {baseBtf : Nat} {e : Encoder} (reachable : Reachable baseBtf e)
    (env : Env) (cu : Cu) (force skipEncodingVars : Bool) :
    Reachable baseBtf (cuEncodeBtf env e cu force skipEncodingVars).2.1 :=
  @Reachable.step baseBtf e _ env (.cuEncodeBtf cu force skipEncodingVars)
    (cuEncodeBtf env e cu force skipEncodingVars).1 (cuEncodeBtf env e cu force skipEncodingVars).2.2
    reachable rfl

/-- A property of the globals that holds at program start, and that every call of
cu__encode_btf and every end of a session keep, holds in every reachable state. -/
theorem Reachable.invariant {baseBtf : Nat} (P : Encoder → Prop) (start : P (Encoder.init baseBtf))
    (afterCall : ∀ env e cu force skipEncodingVars,
      P e → P (cuEncodeBtf env e cu force skipEncodingVars).2.1)
    (afterEnd : ∀ e, P e → P e.teardown) {e : Encoder} (reachable : Reachable baseBtf e) : P e := by
  induction reachable with
  | init => exact start
  | step _ stepped holds =>
    rename_i e e' env call result flushed _
    cases call with
    | cuEncodeBtf cu force skipEncodingVars =>
      simp only [Dwarves.step, Option.some.injEq] at stepped
      rw [← (Prod.mk.inj (Prod.mk.inj stepped).2).1]
      exact afterCall env e cu force skipEncodingVars holds
    | btfEncoderEncode =>
      obtain ⟨w, -, encoded⟩ := Option.map_eq_some'.1 stepped
      rw [← (Prod.mk.inj (Prod.mk.inj encoded).2).1]
      exact afterEnd e holds

/-- cu__encode_btf on CUs in turn with their flags, as long as every call returns 0. -/
def runCus (env : Env) : Encoder → List (Cu × Bool × Bool) → Option Encoder
  | e, [] => some e
  | e, (cu, force, skipEncodingVars) :: rest =>
    let encoded := cuEncodeBtf env e cu force skipEncodingVars
    if encoded.1 = 0 then runCus env encoded.2.1 rest else none

/-- A run that succeeds ends in the state getD reads off it. -/
theorem runCus_eq_some_getD {env : Env} {e : Encoder} {calls : List (Cu × Bool × Bool)}
    (ran : (runCus env e calls).isSome) : runCus env e calls = some ((runCus env e calls).getD e) := by
  obtain ⟨e', ended⟩ := Option.isSome_iff_exists.1 ran
  rw [ended]
  rfl

/-! ## What the passes add to the writer -/

/-- A successful function pass appends a FUNC_PROTO and a FUNC for each selected function,
and leaves the table its tests leave. -/
theorem functionPass_ok (env : Env) (typeIdOff : Nat) :
    ∀ {fns : List Function} {w w' : BtfElf} {t t' : FunctionTable},
      functionPass env typeIdOff fns w t = (0, w', t') →
      ∃ added, w' = { w with types := w.types ++ added } ∧
        funcNames added = (selectFunctions fns t).1 ∧
        (∀ record ∈ added, record.isDecl = true) ∧ t' = (selectFunctions fns t).2
  | [], w, w', t, t', ok => by
    simp only [functionPass, Prod.mk.injEq, true_and] at ok
    exact ⟨[], by simp [← ok.1], rfl, by simp, by simp [selectFunctions, ok.2]⟩
  | fn :: rest, w, w', t, t', ok => by
    simp only [functionPass] at ok
    by_cases selected : (selectFunction t fn).1
    · simp only [selected, if_true] at ok
      rcases BtfElf.addType_result env w (.funcProto fn.proto typeIdOff) with proto | ⟨failed, -⟩
      · set w1 : BtfElf := { w with types := w.types ++ [.funcProto fn.proto typeIdOff] }
        rcases BtfElf.addType_result env w1
            (.ref .func (toU32 (w.nrTypes + 1 : Nat)) (some fn.name) false) with
          func | ⟨failed, -⟩
        · simp only [btfElfAddFuncProto, btfElfAddRefType, proto, func] at ok
          rw [if_neg (by omega)] at ok
          obtain ⟨added, rfl, names, decl, rfl⟩ := functionPass_ok env typeIdOff ok
          refine ⟨.funcProto fn.proto typeIdOff ::
            .ref .func (toU32 (w.nrTypes + 1 : Nat)) (some fn.name) false :: added,
            by simp [w1], ?_, ?_, ?_⟩
          · simp [funcNames, BtfType.funcName, selectFunctions, selected, ← names]
          · simpa [BtfType.isDecl] using decl
          · simp [selectFunctions]
        · simp only [btfElfAddFuncProto, btfElfAddRefType, proto] at ok
          rw [if_pos (.inr (by omega))] at ok
          simp at ok
      · simp only [btfElfAddFuncProto] at ok
        rw [if_pos (.inl (by omega))] at ok
        simp at ok
    · simp only [selected] at ok
      obtain ⟨added, rfl, names, decl, rfl⟩ := functionPass_ok env typeIdOff ok
      exact ⟨added, rfl, by simp [selectFunctions, selected, names], decl,
        by simp [selectFunctions]⟩

/-- A successful variable pass appends VAR records and per-CPU section info entries only,
each entry naming, as a uint32_t, the ID of a VAR record appended. -/
theorem variablePass_ok (env : Env) (percpuVars : List VarInfo) (force : Bool)
    (typeIdOff : Nat) :
    ∀ {vars : List Variable} {w w' : BtfElf},
      variablePass env percpuVars force typeIdOff vars w = (0, w') →
      ∃ added infos,
        w' = { w with types := w.types ++ added, percpuSecinfo := w.percpuSecinfo ++ infos } ∧
        funcNames added = [] ∧ (∀ record ∈ added, record.isDecl = true) ∧
        ∀ info ∈ infos, ∃ k type name linkage, added[k]? = some (.var type name linkage) ∧
          info.type = toU32 (w.nrTypes + k + 1 : Nat)
  | [], w, w', ok => ⟨[], [], by simp_all [variablePass], rfl, by simp, by simp⟩
  | var :: rest, w, w', ok => by
    have next := @variablePass_ok env percpuVars force typeIdOff rest w w'
    simp only [variablePass] at ok
    by_cases skipped : var.declaration = true ∧ var.spec = none
    · rw [if_pos skipped] at ok; exact next ok
    rw [if_neg skipped] at ok
    by_cases notGlobal : var.scope ≠ .vscopeGlobal ∧ var.spec = none
    · rw [if_pos notGlobal] at ok; exact next ok
    rw [if_neg notGlobal] at ok
    generalize percpuVarExists percpuVars var.addr = entry at ok
    rcases entry with _ | ⟨size, name⟩
    · exact next ok
    dsimp only at ok
    by_cases void : (var.spec.map VariableSpec.type).getD var.type = 0
    · rw [if_pos void] at ok
      by_cases forced : force = true
      · rw [if_pos forced] at ok; exact next ok
      · rw [if_neg forced] at ok; simp at ok
    rw [if_neg void] at ok
    generalize (var.spec.map VariableSpec.type).getD var.type + typeIdOff = type at ok
    generalize (if (var.spec.map VariableSpec.external).getD var.external then
      Linkage.globalAllocated else .static) = linkage at ok
    rcases BtfElf.addType_result env w (.var type name linkage) with added | ⟨failed, -⟩
    · simp only [btfElfAddVarType, added] at ok
      rw [if_neg (by omega)] at ok
      simp only [btfElfAddVarSecinfo] at ok
      split at ok
      · simp at ok
      obtain ⟨added, infos, rfl, names, decl, named⟩ := variablePass_ok env percpuVars force typeIdOff ok
      refine ⟨.var type name linkage :: added,
        ⟨toU32 (w.nrTypes + 1 : Nat), ulongSub var.addr w.elf.percpuBaseAddr % 2 ^ 32, size⟩ :: infos,
        by simp, ?_, ?_, ?_⟩
      · simpa [funcNames, BtfType.funcName] using names
      · simpa [BtfType.isDecl] using decl
      · intro info member
        rcases List.mem_cons.1 member with rfl | later
        · exact ⟨0, type, name, linkage, List.getElem?_cons_zero, rfl⟩
        · obtain ⟨k, type', name', linkage', found, named⟩ := named info later
          refine ⟨k + 1, type', name', linkage', List.getElem?_cons_succ.trans found, ?_⟩
          rw [named]
          congr 2
          simp only [BtfElf.nrTypes, List.length_append, List.length_singleton]
          omega
    · simp only [btfElfAddVarType] at ok
      rw [if_pos (by omega)] at ok
      simp at ok

/-- addIndexType appends the __ARRAY_SIZE_TYPE__ record when it is needed and the writer
takes it, and nothing else; the session has an index type afterwards when it needed one. -/
theorem addIndexType_spec (env : Env) (e : Encoder) (w : BtfElf) :
    ∃ indexed : List BtfType,
      addIndexType env e w = ({ w with types := w.types ++ indexed },
        { e with hasIndexType := e.hasIndexType || e.needIndexType }) ∧
      (indexed = [] ∨ e.needIndexType = true ∧ e.hasIndexType = false ∧
        indexed = [.int (some arraySizeTypeName) arraySizeType]) ∧
      (e.needIndexType = true → e.hasIndexType = false →
        env.rejects w (.addType (.int (some arraySizeTypeName) arraySizeType)) = false →
        indexed ≠ []) := by
  unfold addIndexType
  split_ifs with needed
  · simp only [Bool.not_eq_true', Bool.not_eq_eq_eq_not, Bool.not_true] at needed
    simp only [btfElfAddBaseType, BtfElf.addType]
    split_ifs with rejected
    · exact ⟨[], by simp [needed], .inl rfl, fun _ _ accepted => by simp_all⟩
    · exact ⟨_, by simp [needed], .inr ⟨needed.1, needed.2, rfl⟩, fun _ _ _ => by simp⟩
  · have kept : (e.hasIndexType || e.needIndexType) = e.hasIndexType := by
      revert needed; cases e.hasIndexType <;> cases e.needIndexType <;> simp
    refine ⟨[], by rw [kept]; simp, .inl rfl, fun need has _ => absurd ⟨need, by simp [has]⟩ needed⟩

/-- Within a session, a CU of the session's file goes straight to the body of
cu__encode_btf. -/
theorem cuEncodeBtf_of_session {env : Env} {e : Encoder} {w : BtfElf} {cu : Cu}
    (force skipEncodingVars : Bool) (active : e.btfe = some w) (sameFile : cu.filename = w.filename) :
    cuEncodeBtf env e cu force skipEncodingVars =
      ((encodeCu env e w cu force skipEncodingVars).1,
        if (encodeCu env e w cu force skipEncodingVars).1 ≠ 0 then
          (encodeCu env e w cu force skipEncodingVars).2.teardown
        else (encodeCu env e w cu force skipEncodingVars).2, none) := by
  simp [cuEncodeBtf, sessionSwitch, sessionStart, active, sameFile, CStr.strcmp_eq_iff]

/-- Without a session, when btf_elf__new and collect_symbols succeed, the call encodes the
CU into the new writer, with the tables collect_symbols left. -/
theorem cuEncodeBtf_of_collected {env : Env} {e : Encoder} {cu : Cu} {force skipEncodingVars : Bool}
    {table : FunctionTable} {percpuVars : List VarInfo} (idle : e.btfe = none)
    (created : env.newFails = false)
    (collected : collectSymbols env cu.elf e.btfElfForce (!skipEncodingVars) e.table =
      (0, table, percpuVars)) :
    cuEncodeBtf env e cu force skipEncodingVars =
      let encoded := encodeCu env
        { e with
          btfe := some ⟨cu.filename, cu.elf, e.baseBtf, [], []⟩, table, percpuVars,
          hasIndexType := false, needIndexType := false, arrayIndexId := 0 }
        ⟨cu.filename, cu.elf, e.baseBtf, [], []⟩ cu force skipEncodingVars
      (encoded.1, if encoded.1 ≠ 0 then encoded.2.teardown else encoded.2, none) := by
  simp [cuEncodeBtf, sessionSwitch, sessionStart, idle, btfElfNew, created, collected]

/-- Without a session, a successful call creates the writer of the CU's file, collects the
symbols of its ELF file and encodes the CU into it. -/
theorem cuEncodeBtf_new_session {env : Env} {e e' : Encoder} {cu : Cu}
    {force skipEncodingVars : Bool} {flushed : Option BtfElf} (idle : e.btfe = none)
    (ok : cuEncodeBtf env e cu force skipEncodingVars = (0, e', flushed)) :
    ∃ table percpuVars, btfElfNew env cu.filename cu.elf e.baseBtf =
        some ⟨cu.filename, cu.elf, e.baseBtf, [], []⟩ ∧
      collectSymbols env cu.elf e.btfElfForce (!skipEncodingVars) e.table = (0, table, percpuVars) ∧
      encodeCu env
          { e with
            btfe := some ⟨cu.filename, cu.elf, e.baseBtf, [], []⟩, table, percpuVars,
            hasIndexType := false, needIndexType := false, arrayIndexId := 0 }
        ⟨cu.filename, cu.elf, e.baseBtf, [], []⟩ cu force skipEncodingVars = (0, e') ∧
      flushed = none := by
  simp only [cuEncodeBtf, sessionSwitch, idle, ne_eq, not_true_eq_false, if_false,
    sessionStart] at ok
  cases fails : env.newFails
  · simp only [btfElfNew, fails, Bool.false_eq_true, if_false, Option.map_some'] at ok
    generalize collectSymbols env cu.elf e.btfElfForce (!skipEncodingVars) e.table = collected at ok
    obtain ⟨result, table, percpuVars⟩ := collected
    by_cases collectedOk : result = 0
    · subst collectedOk
      simp only [ne_eq, not_true_eq_false, if_false, ite_true] at ok
      generalize encodedEq : encodeCu env _ _ cu force skipEncodingVars = encoded at ok
      obtain ⟨result, e2⟩ := encoded
      by_cases encodedOk : result = 0
      · subst encodedOk
        simp only [ne_eq, not_true_eq_false, if_false, Prod.mk.injEq, true_and] at ok
        exact ⟨table, percpuVars, by simp [btfElfNew, fails], rfl, by rw [encodedEq, ok.1],
          ok.2.symm⟩
      · simp [encodedOk] at ok
    · simp [collectedOk] at ok
  · simp [btfElfNew, fails] at ok

/-- The records of a CU's types, the __ARRAY_SIZE_TYPE__ record when the CU needs it and the
writer takes it, the records of the function and variable passes: what a successful
encodeCu appends, and the globals it leaves. -/
theorem encodeCu_ok {env : Env} {e e' : Encoder} {w : BtfElf} {cu : Cu}
    {force skipEncodingVars : Bool}
    (ok : encodeCu env e w cu force skipEncodingVars = (0, e')) :
    ∃ (prepared : Encoder) (indexed added : List BtfType) (infos : List VarSecinfo),
      prepared = prepareIndexType { e with btfElfForce := force } cu w.nrTypes ∧
      (∀ tag ∈ cu.types, tag.Supported) ∧
      (indexed = [] ∨ (prepared.needIndexType || cu.types.any Tag.isArrayType) = true ∧
        prepared.hasIndexType = false ∧
        indexed = [.int (some arraySizeTypeName) arraySizeType]) ∧
      ((prepared.needIndexType || cu.types.any Tag.isArrayType) = true →
        prepared.hasIndexType = false →
        env.rejects { w with types := w.types ++
            cu.types.filterMap (tagRecord prepared.arrayIndexId w.nrTypes) }
          (.addType (.int (some arraySizeTypeName) arraySizeType)) = false →
        indexed ≠ []) ∧
      (∀ record ∈ added, record.isDecl = true) ∧
      funcNames added = (selectFunctions cu.functions e.table).1 ∧
      (∀ info ∈ infos, ∃ k type name linkage, added[k]? = some (.var type name linkage) ∧
        info.type = toU32 (w.nrTypes + (cu.types.filterMap (tagRecord prepared.arrayIndexId
          w.nrTypes)).length + indexed.length + k + 1 : Nat)) ∧
      e' = { prepared with
        btfe := some { w with
          types := w.types ++ cu.types.filterMap (tagRecord prepared.arrayIndexId w.nrTypes) ++
            indexed ++ added,
          percpuSecinfo := w.percpuSecinfo ++ infos },
        needIndexType := prepared.needIndexType || cu.types.any Tag.isArrayType,
        hasIndexType := prepared.hasIndexType ||
          (prepared.needIndexType || cu.types.any Tag.isArrayType),
        table := (selectFunctions cu.functions e.table).2 } := by
  have tableKept : (prepareIndexType { e with btfElfForce := force } cu w.nrTypes).table =
      e.table := by
    unfold prepareIndexType; split <;> [rfl; split <;> rfl]
  simp only [encodeCu] at ok
  generalize prepareIndexType { e with btfElfForce := force } cu w.nrTypes = prepared at ok tableKept ⊢
  rcases typePass_spec env prepared.arrayIndexId w.nrTypes cu.types 1 w prepared.needIndexType rfl
    with ⟨supported, run⟩ | ⟨failed, -⟩
  · rw [run] at ok
    simp only [ne_eq, not_true_eq_false, if_false] at ok
    obtain ⟨indexed, indexedEq, shape, taken⟩ := addIndexType_spec env
      { prepared with
        btfe := some { w with
          types := w.types ++ cu.types.filterMap (tagRecord prepared.arrayIndexId w.nrTypes) },
        needIndexType := prepared.needIndexType || cu.types.any Tag.isArrayType }
      { w with types := w.types ++ cu.types.filterMap (tagRecord prepared.arrayIndexId w.nrTypes) }
    rw [indexedEq] at ok
    simp only at ok
    generalize functionsEq : functionPass env w.nrTypes cu.functions
      { w with types := w.types ++ cu.types.filterMap (tagRecord prepared.arrayIndexId w.nrTypes) ++
        indexed } prepared.table = functions at ok
    obtain ⟨result, w3, t3⟩ := functions
    simp only at ok
    split at ok
    · simp at ok
    rename_i passed
    obtain rfl : result = 0 := by simpa using passed
    obtain ⟨added, rfl, names, decl, rfl⟩ := functionPass_ok env w.nrTypes functionsEq
    rw [tableKept] at names ok
    split at ok
    · simp only [Prod.mk.injEq, true_and] at ok
      exact ⟨prepared, indexed, added, [], rfl, supported, shape, taken, decl, names, by simp,
        by simp [← ok]⟩
    generalize varsEq : variablePass env prepared.percpuVars force w.nrTypes cu.vars _ = vars at ok
    obtain ⟨result, w4⟩ := vars
    simp only [Prod.mk.injEq] at ok
    obtain ⟨rfl, rfl⟩ := ok
    obtain ⟨varRecords, infos, rfl, varNames, varDecl, named⟩ := variablePass_ok _ _ _ _ varsEq
    refine ⟨prepared, indexed, added ++ varRecords, infos, rfl, supported, shape, taken, ?_, ?_, ?_,
      by simp⟩
    · exact fun record member => (List.mem_append.1 member).elim (decl record) (varDecl record)
    · rw [funcNames, List.filterMap_append, ← funcNames, ← funcNames, names, varNames,
        List.append_nil]
    · intro info member
      obtain ⟨k, type, name, linkage, found, named⟩ := named info member
      refine ⟨added.length + k, type, name, linkage, ?_, ?_⟩
      · rw [List.getElem?_append_right (by omega), Nat.add_sub_cancel_left, found]
      · rw [named]
        congr 2
        simp only [BtfElf.nrTypes, List.length_append]
        omega
  · rw [if_pos (by omega)] at ok
    simp at ok

end Dwarves
