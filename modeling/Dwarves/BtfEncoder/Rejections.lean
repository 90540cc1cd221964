import Dwarves.BtfEncoder.IndexType

/-
What the encoder does with the writer's rejections. The type, function and variable
passes check the result of every btf_elf__add_* call, and cu__encode_btf ends the session
on a negative one. Two calls are not checked: __ARRAY_SIZE_TYPE__, added after the type
pass, and the per-CPU DATASEC, added by btf_encoder__encode just before the flush. A
rejection of either goes unnoticed.
-/

namespace Dwarves

/-! ## What a session's end flushes -/

/-- cu__encode_btf flushes only what its session switch flushes. -/
theorem cuEncodeBtf_flushed (env : Env) (e : Encoder) (cu : Cu) (force skipEncodingVars : Bool) :
    (cuEncodeBtf env e cu force skipEncodingVars).2.2 = (sessionSwitch env e cu).2.2 := by
  simp only [cuEncodeBtf]
  split_ifs
  · rfl
  split
  · rfl
  · split_ifs <;> rfl

/-- btf_encoder__encode flushes its writer, with the DATASEC when it added one. -/
theorem btfEncoderEncode_flushed (env : Env) (e : Encoder) (w : BtfElf) :
    ∀ w' ∈ (btfEncoderEncode env e w).2.2, w'.filename = w.filename ∧
      (w'.types = w.types ∨ w'.types = w.types ++ [.datasec percpuSection w.percpuSecinfo]) := by
  intro w' flushed
  unfold btfEncoderEncode at flushed
  simp only [Option.mem_def, ite_eq_left_iff, reduceCtorEq, imp_false, not_not] at flushed
  split_ifs at flushed <;> obtain rfl := Option.some.inj flushed
  · rcases BtfElf.addType_spec env w (.datasec percpuSection w.percpuSecinfo) with
      ⟨-, rejected⟩ | ⟨-, accepted⟩
    · simp [btfElfAddDatasecType, rejected]
    · simp [btfElfAddDatasecType, accepted]
  · exact ⟨rfl, .inl rfl⟩

/-- A call of cu__encode_btf that fails ends its session without flushing it: it leaves no
session, and the one writer it may have flushed is that of the session it ended first, of
another file, as it was or with its DATASEC. -/
theorem failed_call_flushes_no_partial_session (baseBtf : Nat) (e : Encoder)
    (reachable : Reachable baseBtf e) (env : Env) (cu : Cu) (force skipEncodingVars : Bool)
    (failed : (cuEncodeBtf env e cu force skipEncodingVars).1 ≠ 0) :
    (cuEncodeBtf env e cu force skipEncodingVars).2.1.btfe = none ∧
    ∀ w' ∈ (cuEncodeBtf env e cu force skipEncodingVars).2.2, ∃ w, e.btfe = some w ∧
      w.filename ≠ cu.filename ∧ w'.filename = w.filename ∧
      (w'.types = w.types ∨ w'.types = w.types ++ [.datasec percpuSection w.percpuSecinfo]) := by
  refine ⟨(cuEncodeBtf_idle env e cu force skipEncodingVars reachable.consistent.idle).2 failed,
    fun w' flushed => ?_⟩
  rw [cuEncodeBtf_flushed] at flushed
  unfold sessionSwitch at flushed
  split at flushed
  · rename_i w active
    split_ifs at flushed with other
    · exact ⟨w, active, fun same => other ((CStr.strcmp_eq_iff _ _).2 same),
        btfEncoderEncode_flushed env e w w' flushed⟩
    · simp at flushed
  · simp at flushed

/-- A writer that rejects every call. -/
def rejectsAll : Env := { Env.reliable with rejects := fun _ _ => true }

/-- A CU of b.o with one array of two void elements. -/
def otherFileCu : Cu := ⟨.ofAscii "b.o", arrayObjectElf, [.arrayType 0 [2]], [], []⟩

/-- In the session of a.o, the call on b.o ends and flushes that session, then fails in its
own type pass: the one writer flushed is that of a.o. -/
theorem failed_call_flushes_no_partial_session_after_other_file :
    Reachable 0 arrayCuEncoded ∧
    (cuEncodeBtf rejectsAll arrayCuEncoded otherFileCu false false).1 ≠ 0 ∧
    (cuEncodeBtf rejectsAll arrayCuEncoded otherFileCu false false).2.2.isSome ∧
    (cuEncodeBtf rejectsAll arrayCuEncoded otherFileCu false false).2.1.btfe = none ∧
    ∀ w' ∈ (cuEncodeBtf rejectsAll arrayCuEncoded otherFileCu false false).2.2, ∃ w,
      arrayCuEncoded.btfe = some w ∧ w.filename ≠ otherFileCu.filename ∧ w'.filename = w.filename ∧
      (w'.types = w.types ∨ w'.types = w.types ++ [.datasec percpuSection w.percpuSecinfo]) :=
  have reachable : Reachable 0 arrayCuEncoded := Reachable.init.after_cuEncodeBtf _ _ _ _
  ⟨reachable, by decide, by decide, failed_call_flushes_no_partial_session 0 arrayCuEncoded
    reachable rejectsAll otherFileCu false false (by decide)⟩

/-! ## The calls whose result is checked -/

/-- A successful function pass took every call it made: it does what it does with a writer
that rejects nothing. -/
theorem functionPass_reliable (env : Env) (typeIdOff : Nat) :
    ∀ {fns : List Function} {w w' : BtfElf} {t t' : FunctionTable},
      functionPass env typeIdOff fns w t = (0, w', t') →
      functionPass Env.reliable typeIdOff fns w t = (0, w', t')
  | [], _, _, _, _, ok => ok
  | fn :: rest, w, w', t, t', ok => by
    simp only [functionPass, btfElfAddFuncProto, btfElfAddRefType] at ok ⊢
    split_ifs at ok with selected failed
    · simp at ok
    · rw [not_or, not_lt, not_lt] at failed
      rw [if_pos selected, BtfElf.addType_reliable failed.1, BtfElf.addType_reliable failed.2,
        if_neg (by omega)]
      exact functionPass_reliable env typeIdOff ok
    · rw [if_neg selected]
      exact functionPass_reliable env typeIdOff ok

/-- A successful variable pass took every call it made. -/
theorem variablePass_reliable (env : Env) (percpuVars : List VarInfo) (force : Bool)
    (typeIdOff : Nat) :
    ∀ {vars : List Variable} {w w' : BtfElf},
      variablePass env percpuVars force typeIdOff vars w = (0, w') →
      variablePass Env.reliable percpuVars force typeIdOff vars w = (0, w')
  | [], _, _, ok => ok
  | var :: rest, w, w', ok => by
    have next := @variablePass_reliable env percpuVars force typeIdOff rest
    simp only [variablePass, btfElfAddVarType] at ok ⊢
    by_cases skipped : var.declaration = true ∧ var.spec = none
    · rw [if_pos skipped] at ok ⊢; exact next ok
    rw [if_neg skipped] at ok ⊢
    by_cases notGlobal : var.scope ≠ .vscopeGlobal ∧ var.spec = none
    · rw [if_pos notGlobal] at ok ⊢; exact next ok
    rw [if_neg notGlobal] at ok ⊢
    generalize percpuVarExists percpuVars var.addr = entry at ok ⊢
    rcases entry with _ | ⟨size, name⟩
    · exact next ok
    dsimp only at ok ⊢
    by_cases void : (var.spec.map VariableSpec.type).getD var.type = 0
    · rw [if_pos void] at ok ⊢
      by_cases forced : force = true
      · rw [if_pos forced] at ok ⊢; exact next ok
      · rw [if_neg forced] at ok; simp at ok
    rw [if_neg void] at ok ⊢
    generalize (if (var.spec.map VariableSpec.external).getD var.external then
      Linkage.globalAllocated else .static) = linkage at ok ⊢
    split_ifs at ok with added secinfoFailed
    · simp at ok
    · simp at ok
    · rw [BtfElf.addType_reliable (not_lt.1 added), if_neg added,
        btfElfAddVarSecinfo_reliable (not_lt.1 secinfoFailed), if_neg secinfoFailed]
      exact next ok

/-- A successful type pass took every call it made. -/
theorem typePass_reliable {env : Env} {arrayIndexId typeIdOff coreId : Nat} {tags : List Tag}
    {w w' : BtfElf} {needIndexType needIndexType' : Bool} (count : w.nrTypes + 1 = typeIdOff + coreId)
    (ok : typePass env arrayIndexId typeIdOff tags coreId w needIndexType = (0, w', needIndexType')) :
    typePass Env.reliable arrayIndexId typeIdOff tags coreId w needIndexType = (0, w', needIndexType') := by
  rcases typePass_spec env arrayIndexId typeIdOff tags coreId w needIndexType count with
    ⟨supported, run⟩ | ⟨failed, -⟩
  · rcases typePass_spec Env.reliable arrayIndexId typeIdOff tags coreId w needIndexType count with
      ⟨-, reliableRun⟩ | ⟨-, rejects⟩
    · rw [reliableRun, ← run, ok]
    · obtain ⟨_, _, never⟩ := rejects supported
      simp [Env.reliable] at never
  · simp [ok] at failed

/-- __ARRAY_SIZE_TYPE__, when the writer takes it, is added as with a writer that rejects
nothing. -/
theorem addIndexType_reliable {env : Env} {e : Encoder} {w : BtfElf}
    (accepted : env.rejects w (.addType (.int (some arraySizeTypeName) arraySizeType)) = false) :
    addIndexType Env.reliable e w = addIndexType env e w := by
  unfold addIndexType
  split_ifs <;> simp [btfElfAddBaseType, accepted, Env.reliable]

/-- When the writer takes __ARRAY_SIZE_TYPE__, a successful body of cu__encode_btf took every
call it made. -/
theorem encodeCu_reliable {env : Env} {e e' : Encoder} {w : BtfElf} {cu : Cu}
    {force skipEncodingVars : Bool}
    (syntheticAccepted :
      ∀ w, env.rejects w (.addType (.int (some arraySizeTypeName) arraySizeType)) = false)
    (ok : encodeCu env e w cu force skipEncodingVars = (0, e')) :
    encodeCu Env.reliable e w cu force skipEncodingVars = (0, e') := by
  simp only [encodeCu] at ok ⊢
  generalize prepareIndexType { e with btfElfForce := force } cu w.nrTypes = prepared at ok ⊢
  rcases typePass_spec env prepared.arrayIndexId w.nrTypes cu.types 1 w prepared.needIndexType rfl
    with ⟨-, run⟩ | ⟨failed, -⟩
  · rw [typePass_reliable rfl run, addIndexType_reliable (syntheticAccepted _)]
    rw [run] at ok
    simp only [ne_eq, not_true_eq_false, if_false] at ok ⊢
    generalize addIndexType env _ _ = indexed at ok ⊢
    generalize functionsEq : functionPass env w.nrTypes cu.functions indexed.1 indexed.2.table =
      functions at ok
    obtain ⟨result, w2, t2⟩ := functions
    split at ok
    · simp at ok
    obtain rfl : result = 0 := not_not.1 ‹_›
    rw [functionPass_reliable env w.nrTypes functionsEq]
    simp only [ne_eq, not_true_eq_false, if_false] at ok ⊢
    split at ok
    · rw [if_pos ‹_›]; exact ok
    rw [if_neg ‹_›]
    generalize varsEq : variablePass env _ force w.nrTypes cu.vars w2 = vars at ok
    obtain ⟨result, w3⟩ := vars
    obtain ⟨rfl, rfl⟩ := Prod.mk.inj ok
    rw [variablePass_reliable env _ force w.nrTypes varsEq]
  · rw [if_pos (by omega)] at ok
    simp at ok

/-- Every rejection of a checked call is fatal: when the writer takes __ARRAY_SIZE_TYPE__, a
call of cu__encode_btf within a session that returns 0 does exactly what it does with a
writer that rejects nothing, so no rejected btf_elf__add_* call of the type, function or
variable pass goes unnoticed. -/
theorem checked_rejections_fatal (env : Env) (e : Encoder) (w : BtfElf) (cu : Cu)
    (force skipEncodingVars : Bool) (active : e.btfe = some w) (sameFile : cu.filename = w.filename)
    (syntheticAccepted :
      ∀ w, env.rejects w (.addType (.int (some arraySizeTypeName) arraySizeType)) = false)
    (ok : (cuEncodeBtf env e cu force skipEncodingVars).1 = 0) :
    cuEncodeBtf env e cu force skipEncodingVars =
      cuEncodeBtf Env.reliable e cu force skipEncodingVars := by
  rw [cuEncodeBtf_of_session force skipEncodingVars active sameFile] at ok ⊢
  rw [cuEncodeBtf_of_session force skipEncodingVars active sameFile,
    encodeCu_reliable syntheticAccepted (Prod.ext ok rfl)]
  simp only at ok
  simp [ok]

/-- The writer of the session of the two array CUs. -/
def arraySessionWriter : BtfElf :=
  ⟨.ofAscii "a.o", arrayObjectElf, 0,
    [.array 0 2 2, .int (some arraySizeTypeName) arraySizeType, .array 0 2 2], []⟩

/-- A writer that rejects only the DATASEC of its per-CPU entries. -/
def rejectsDatasec : Env :=
  { Env.reliable with rejects := fun w call => call == .addType (.datasec percpuSection w.percpuSecinfo) }

/-- A third array CU in that session is encoded as with a writer that rejects nothing. -/
theorem checked_rejections_fatal_in_session :
    arraySessionEnd.btfe = some arraySessionWriter ∧ arrayCu.filename = arraySessionWriter.filename ∧
    (∀ w, rejectsDatasec.rejects w (.addType (.int (some arraySizeTypeName) arraySizeType)) = false) ∧
    (cuEncodeBtf rejectsDatasec arraySessionEnd arrayCu false false).1 = 0 ∧
    cuEncodeBtf rejectsDatasec arraySessionEnd arrayCu false false =
      cuEncodeBtf Env.reliable arraySessionEnd arrayCu false false :=
  ⟨by decide, rfl, fun _ => rfl, by decide,
    checked_rejections_fatal rejectsDatasec arraySessionEnd arraySessionWriter arrayCu false false
      (by decide) rfl (fun _ => rfl) (by decide)⟩

/-! ## The calls whose result is not checked -/

/-- A rejected __ARRAY_SIZE_TYPE__ leaves the writer as it was, and the session is marked as
having an index type all the same. -/
theorem addIndexType_rejected (env : Env) (e : Encoder) (w : BtfElf)
    (rejected : env.rejects w (.addType (.int (some arraySizeTypeName) arraySizeType)) = true) :
    addIndexType env e w = (w, { e with hasIndexType := e.hasIndexType || e.needIndexType }) := by
  unfold addIndexType
  split_ifs with needed
  · simp only [Bool.not_eq_true', Bool.not_eq_eq_eq_not, Bool.not_true] at needed
    simp [btfElfAddBaseType, rejected, needed]
  · have kept : (e.hasIndexType || e.needIndexType) = e.hasIndexType := by
      revert needed; cases e.hasIndexType <;> cases e.needIndexType <;> simp
    rw [kept]

/-- A rejected DATASEC leaves the writer as it was, and btf_encoder__encode returns what the
flush of that writer returns. -/
theorem btfEncoderEncode_datasec_rejected (env : Env) (e : Encoder) (w : BtfElf)
    (rejected : env.rejects w (.addType (.datasec percpuSection w.percpuSecinfo)) = true) :
    btfEncoderEncode env e w =
      (btfElfEncode env w, e.teardown, if btfElfEncode env w = 0 then some w else none) := by
  unfold btfEncoderEncode
  split_ifs <;> simp_all [btfElfAddDatasecType]

/-- An ELF file with one per-CPU variable "v" of 4 bytes at 0x100. -/
def percpuElf : Elf := ⟨[], [⟨.ofAscii "v", 256, 4, 1, sttObject⟩], 1, 0⟩

def longName : CStr := .ofAscii "long"

/-- A CU of p.o without "int": a long, an array of two longs and the global variable "v" of
type long. -/
def percpuCu : Cu :=
  ⟨.ofAscii "p.o", percpuElf, [.baseType (some longName) ⟨64, true, false⟩, .arrayType 1 [2]], [],
    [⟨false, none, .vscopeGlobal, 256, 1, true⟩]⟩

/-- A writer that rejects __ARRAY_SIZE_TYPE__ and the DATASEC of its per-CPU entries, and
takes every other call. -/
def uncheckedRejects : Env :=
  { Env.reliable with
    rejects := fun w call => call == .addType (.int (some arraySizeTypeName) arraySizeType) ||
      call == .addType (.datasec percpuSection w.percpuSecinfo) }

/-- The globals after cu__encode_btf on that CU with that writer. -/
def percpuSessionEnd : Encoder :=
  (cuEncodeBtf uncheckedRejects (Encoder.init 0) percpuCu false false).2.1

/-- The writer of that session: the ARRAY names ID 3 as index type, which is the VAR. -/
def percpuWriter : BtfElf :=
  ⟨.ofAscii "p.o", percpuElf, 0,
    [.int (some longName) ⟨64, true, false⟩, .array 1 3 2, .var 1 (.ofAscii "v") .globalAllocated],
    [⟨3, 256, 4⟩]⟩

theorem collectSymbols_percpuElf :
    collectSymbols uncheckedRejects percpuElf false true deleteFunctions =
      (0, deleteFunctions, [⟨256, 4, .ofAscii "v"⟩]) := by
  decide

/-- The writer rejects __ARRAY_SIZE_TYPE__ after the type pass and the per-CPU DATASEC at the
end of the session; yet cu__encode_btf returns 0, and btf_encoder__encode returns 0 and
flushes a writer with per-CPU entries, no DATASEC and no index type for its ARRAY. -/
theorem rejected_adds_not_fatal :
    (cuEncodeBtf uncheckedRejects (Encoder.init 0) percpuCu false false).1 = 0 ∧
    uncheckedRejects.rejects ⟨.ofAscii "p.o", percpuElf, 0,
        [.int (some longName) ⟨64, true, false⟩, .array 1 3 2], []⟩
      (.addType (.int (some arraySizeTypeName) arraySizeType)) = true ∧
    percpuSessionEnd.btfe = some percpuWriter ∧
    uncheckedRejects.rejects percpuWriter
      (.addType (.datasec percpuSection percpuWriter.percpuSecinfo)) = true ∧
    step uncheckedRejects percpuSessionEnd .btfEncoderEncode =
      some (0, percpuSessionEnd.teardown, some percpuWriter) := by
  unfold percpuSessionEnd
  rw [@cuEncodeBtf_of_collected uncheckedRejects (Encoder.init 0) percpuCu false false _ _
      rfl rfl collectSymbols_percpuElf]
  decide

end Dwarves
