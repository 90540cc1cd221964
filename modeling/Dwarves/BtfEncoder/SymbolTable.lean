import Dwarves.BtfEncoder.Driver

/-
What a session reads of the symbol table of its ELF file. Past collect_symbols,
nothing of cu__encode_btf or btf_encoder__encode looks at the symbol table: every
writer call, pass and session step made on a writer whose symbol table is replaced
returns the same, with the table replaced in the writer it returns. So two runs whose
CUs differ only in their symbol tables, and on whose tables collect_symbols agrees,
emit the same BTF. A symbol table and the same table without its per-CPU symbols of
invalid name are such a pair as long as collect_symbols runs forced.
-/

namespace Dwarves

/-- The writer with the symbol table of its ELF file replaced. -/
def BtfElf.withSymtab (w : BtfElf) (symtab : List Sym) : BtfElf :=
  { w with elf := { w.elf with symtab } }

/-- The globals with the symbol table of the session's writer replaced. -/
def Encoder.withSymtab (e : Encoder) (symtab : List Sym) : Encoder :=
  { e with btfe := e.btfe.map fun w => w.withSymtab symtab }

/-- The CU with the symbol table of its ELF file replaced. -/
def Cu.withSymtab (cu : Cu) (symtab : List Sym) : Cu := { cu with elf := { cu.elf with symtab } }

/-- The collaborators do not look at the symbol table of a writer's ELF file: which
calls the writer rejects and whether it can be flushed depend on the rest of it. -/
structure Env.SymtabBlind (env : Env) : Prop where
  rejects : ∀ w symtab call, env.rejects (w.withSymtab symtab) call = env.rejects w call
  encodeFails : ∀ w symtab, env.encodeFails (w.withSymtab symtab) = env.encodeFails w

theorem Env.reliable_symtabBlind : Env.reliable.SymtabBlind := ⟨fun _ _ _ => rfl, fun _ _ => rfl⟩

namespace BtfElf

variable (w : BtfElf) (symtab : List Sym)

@[simp] theorem withSymtab_types : (w.withSymtab symtab).types = w.types := rfl

@[simp] theorem withSymtab_nrTypes : (w.withSymtab symtab).nrTypes = w.nrTypes := rfl

@[simp] theorem withSymtab_percpuSecinfo :
    (w.withSymtab symtab).percpuSecinfo = w.percpuSecinfo := rfl

@[simp] theorem withSymtab_filename : (w.withSymtab symtab).filename = w.filename := rfl

@[simp] theorem withSymtab_percpuShndx :
    (w.withSymtab symtab).elf.percpuShndx = w.elf.percpuShndx := rfl

@[simp] theorem withSymtab_percpuBaseAddr :
    (w.withSymtab symtab).elf.percpuBaseAddr = w.elf.percpuBaseAddr := rfl

@[simp] theorem withSymtab_withSymtab (other : List Sym) :
    (w.withSymtab symtab).withSymtab other = w.withSymtab other := rfl

end BtfElf

namespace Encoder

variable (e : Encoder) (symtab : List Sym)

@[simp] theorem withSymtab_table : (e.withSymtab symtab).table = e.table := rfl

@[simp] theorem withSymtab_percpuVars : (e.withSymtab symtab).percpuVars = e.percpuVars := rfl

@[simp] theorem withSymtab_arrayIndexId : (e.withSymtab symtab).arrayIndexId = e.arrayIndexId := rfl

@[simp] theorem withSymtab_hasIndexType : (e.withSymtab symtab).hasIndexType = e.hasIndexType := rfl

@[simp] theorem withSymtab_needIndexType :
    (e.withSymtab symtab).needIndexType = e.needIndexType := rfl

@[simp] theorem withSymtab_btfElfForce : (e.withSymtab symtab).btfElfForce = e.btfElfForce := rfl

@[simp] theorem withSymtab_baseBtf : (e.withSymtab symtab).baseBtf = e.baseBtf := rfl

@[simp] theorem withSymtab_btfe :
    (e.withSymtab symtab).btfe = e.btfe.map fun w => w.withSymtab symtab := rfl

@[simp] theorem withSymtab_teardown : (e.withSymtab symtab).teardown = e.teardown := rfl

@[simp] theorem teardown_withSymtab : e.teardown.withSymtab symtab = e.teardown := rfl

@[simp] theorem withSymtab_withSymtab (other : List Sym) :
    (e.withSymtab symtab).withSymtab other = e.withSymtab other := by
  cases e with
  | mk btfe => cases btfe <;> rfl

end Encoder

namespace Cu

variable (cu : Cu) (symtab : List Sym)

@[simp] theorem withSymtab_filename : (cu.withSymtab symtab).filename = cu.filename := rfl

@[simp] theorem withSymtab_types : (cu.withSymtab symtab).types = cu.types := rfl

@[simp] theorem withSymtab_functions : (cu.withSymtab symtab).functions = cu.functions := rfl

@[simp] theorem withSymtab_vars : (cu.withSymtab symtab).vars = cu.vars := rfl

@[simp] theorem withSymtab_findBaseTypeByName (name : CStr) :
    (cu.withSymtab symtab).findBaseTypeByName name = cu.findBaseTypeByName name := rfl

@[simp] theorem withSymtab_nrEntries : (cu.withSymtab symtab).nrEntries = cu.nrEntries := rfl

end Cu

/-- __ARRAY_SIZE_TYPE__ is added when the session's arrays need an index type it does
not have, and the session has one after. -/
theorem addIndexType_eq (env : Env) (e : Encoder) (w : BtfElf) :
    addIndexType env e w =
      (if e.needIndexType ∧ !e.hasIndexType then
          (btfElfAddBaseType env w arraySizeType (some arraySizeTypeName)).2 else w,
        { e with hasIndexType := e.hasIndexType || e.needIndexType }) := by
  obtain ⟨btfe, table, percpuVars, arrayIndexId, hasIndexType, needIndexType, force, baseBtf⟩ := e
  cases hasIndexType <;> cases needIndexType <;> rfl

/-- prepare the index type: the CU's "int" or the ID past its types, unless the session has
an index type already. -/
theorem prepareIndexType_eq (e : Encoder) (cu : Cu) (typeIdOff : Nat) :
    prepareIndexType e cu typeIdOff =
      { e with
        hasIndexType := e.hasIndexType || (cu.findBaseTypeByName intName).isSome
        arrayIndexId := if e.hasIndexType then e.arrayIndexId
          else typeIdOff + (cu.findBaseTypeByName intName).getD cu.nrEntries } := by
  obtain ⟨btfe, table, percpuVars, arrayIndexId, hasIndexType, needIndexType, force, baseBtf⟩ := e
  cases hasIndexType
  · unfold prepareIndexType
    cases cu.findBaseTypeByName intName <;> rfl
  · rfl

/-! ## The force flag collect_symbols reads -/

/-- Ending the previous session keeps btf_elf__force. -/
theorem sessionSwitch_btfElfForce (env : Env) (e : Encoder) (cu : Cu) :
    (sessionSwitch env e cu).2.1.btfElfForce = e.btfElfForce := by
  unfold sessionSwitch btfEncoderEncode
  split
  · split_ifs <;> rfl
  · rfl

/-- Starting a session keeps btf_elf__force. -/
theorem sessionStart_btfElfForce (env : Env) (e : Encoder) (cu : Cu) (skipEncodingVars : Bool) :
    ∀ started ∈ sessionStart env e cu skipEncodingVars, started.2.1.btfElfForce = e.btfElfForce := by
  unfold sessionStart
  split
  · simp
  · simp only [Option.mem_def, Option.map_eq_some']
    rintro started ⟨w, -, rfl⟩
    split_ifs <;> rfl

/-- The body of cu__encode_btf sets btf_elf__force. -/
theorem encodeCu_btfElfForce (env : Env) (e : Encoder) (w : BtfElf) (cu : Cu)
    (force skipEncodingVars : Bool) : (encodeCu env e w cu force skipEncodingVars).2.btfElfForce = force := by
  have prepared :
      (prepareIndexType { e with btfElfForce := force } cu w.nrTypes).btfElfForce = force := by
    rw [prepareIndexType_eq]
  simp only [encodeCu]
  generalize prepareIndexType { e with btfElfForce := force } cu w.nrTypes = p at prepared
  have indexed : ∀ writer need,
      (addIndexType env { p with btfe := some writer, needIndexType := need } writer).2.btfElfForce =
        force := fun _ _ => by
    rw [addIndexType_eq]
    exact prepared
  split_ifs
  exacts [prepared, indexed _ _, indexed _ _, indexed _ _]

/-- The body of cu__encode_btf reads of the globals neither the session's writer nor, of the
CU, its ELF file. -/
theorem encodeCu_globals_withSymtab (env : Env) (e : Encoder) (other : List Sym) (w : BtfElf)
    (cu : Cu) (cuSymtab : List Sym) (force skipEncodingVars : Bool) :
    encodeCu env (e.withSymtab other) w cu force skipEncodingVars =
      encodeCu env e w (cu.withSymtab cuSymtab) force skipEncodingVars := by
  simp only [encodeCu, prepareIndexType_eq, Encoder.withSymtab_table, Encoder.withSymtab_percpuVars,
    Encoder.withSymtab_arrayIndexId, Encoder.withSymtab_hasIndexType,
    Encoder.withSymtab_needIndexType, Encoder.withSymtab_baseBtf, Cu.withSymtab_types,
    Cu.withSymtab_functions, Cu.withSymtab_vars, Cu.withSymtab_findBaseTypeByName,
    Cu.withSymtab_nrEntries]

/-- A forced call keeps btf_elf__force set: the body of cu__encode_btf sets it, and the
paths that skip the body leave it. -/
theorem cuEncodeBtf_btfElfForce (env : Env) (e : Encoder) (cu : Cu) (skipEncodingVars : Bool)
    (forced : e.btfElfForce = true) : (cuEncodeBtf env e cu true skipEncodingVars).2.1.btfElfForce = true := by
  have switchKept := sessionSwitch_btfElfForce env e cu
  have startKept := sessionStart_btfElfForce env (sessionSwitch env e cu).2.1 cu skipEncodingVars
  unfold cuEncodeBtf
  generalize sessionSwitch env e cu = switched at switchKept startKept
  dsimp only
  split_ifs
  · exact switchKept.trans forced
  · split
    · exact switchKept.trans forced
    · rename_i started
      have kept := (startKept _ started).trans (switchKept.trans forced)
      dsimp only at kept
      split_ifs
      exacts [kept, encodeCu_btfElfForce env _ _ cu true skipEncodingVars,
        encodeCu_btfElfForce env _ _ cu true skipEncodingVars]

/-! ## The writer calls and the passes -/

section Blind

variable {env : Env} (blind : env.SymtabBlind) (symtab : List Sym)

include blind

/-- An add call of one type on a writer whose symbol table is replaced. -/
theorem BtfElf.addType_withSymtab (w : BtfElf) (type : BtfType) :
    (w.withSymtab symtab).addType env type =
      ((w.addType env type).1, (w.addType env type).2.withSymtab symtab) := by
  unfold BtfElf.addType
  rw [blind.rejects]
  split <;> rfl

/-- An extending call on a writer whose symbol table is replaced. -/
theorem BtfElf.extendLast_withSymtab (w : BtfElf) (call : BtfCall)
    (extend : BtfType → Option BtfType) :
    (w.withSymtab symtab).extendLast env call extend =
      ((w.extendLast env call extend).1, (w.extendLast env call extend).2.withSymtab symtab) := by
  simp only [BtfElf.extendLast, BtfElf.withSymtab_types, blind.rejects]
  split
  · rfl
  · split <;> rfl

/-- btf_elf__add_var_secinfo on a writer whose symbol table is replaced. -/
theorem btfElfAddVarSecinfo_withSymtab (w : BtfElf) (type offset size : Nat) :
    btfElfAddVarSecinfo env (w.withSymtab symtab) type offset size =
      ((btfElfAddVarSecinfo env w type offset size).1,
        (btfElfAddVarSecinfo env w type offset size).2.withSymtab symtab) := by
  simp only [btfElfAddVarSecinfo, blind.rejects]
  split <;> rfl

omit blind in
/-- The loops over members and enumerators, with a writer call that commutes with replacing
the symbol table. -/
theorem forEachEntry_withSymtab {α : Type} (add : BtfElf → α → Int × BtfElf)
    (commutes : ∀ w entry, add (w.withSymtab symtab) entry =
      ((add w entry).1, (add w entry).2.withSymtab symtab)) :
    ∀ (entries : List α) (w : BtfElf), forEachEntry add entries (w.withSymtab symtab) =
      ((forEachEntry add entries w).1, (forEachEntry add entries w).2.withSymtab symtab)
  | [], _ => rfl
  | entry :: rest, w => by
    simp only [forEachEntry, commutes]
    split_ifs
    · rfl
    · exact forEachEntry_withSymtab add commutes rest _

/-- structure_type__encode on a writer whose symbol table is replaced. -/
theorem structureTypeEncode_withSymtab (w : BtfElf) (tag : Tag) (type : CompositeType)
    (typeIdOff : Nat) :
    structureTypeEncode env (w.withSymtab symtab) tag type typeIdOff =
      ((structureTypeEncode env w tag type typeIdOff).1,
        (structureTypeEncode env w tag type typeIdOff).2.withSymtab symtab) := by
  simp only [structureTypeEncode, btfElfAddStruct, BtfElf.addType_withSymtab blind]
  generalize BtfElf.addType env w _ = added
  obtain ⟨id, added⟩ := added
  dsimp only
  rw [forEachEntry_withSymtab symtab (fun w (pos : ClassMember) => btfElfAddMember env w pos.name
      (typeIdOff + pos.type) pos.bitfieldSize pos.bitOffset)
      fun w _ => BtfElf.extendLast_withSymtab blind symtab w _ _]
  split_ifs <;> rfl

/-- enumeration_type__encode on a writer whose symbol table is replaced. -/
theorem enumerationTypeEncode_withSymtab (w : BtfElf) (etype : EnumerationType) :
    enumerationTypeEncode env (w.withSymtab symtab) etype =
      ((enumerationTypeEncode env w etype).1,
        (enumerationTypeEncode env w etype).2.withSymtab symtab) := by
  simp only [enumerationTypeEncode, btfElfAddEnum, BtfElf.addType_withSymtab blind,
    forEachEntry_withSymtab symtab (fun w (pos : Enumerator) => btfElfAddEnumVal env w pos.name
      pos.value) fun w _ => BtfElf.extendLast_withSymtab blind symtab w _ _]
  split_ifs <;> rfl

/-- tag__encode_btf on a writer whose symbol table is replaced. -/
theorem tagEncodeBtf_withSymtab (w : BtfElf) (needIndexType : Bool) (tag : Tag)
    (arrayIndexId typeIdOff : Nat) :
    tagEncodeBtf env (w.withSymtab symtab) needIndexType tag arrayIndexId typeIdOff =
      (((tagEncodeBtf env w needIndexType tag arrayIndexId typeIdOff).1.1,
        (tagEncodeBtf env w needIndexType tag arrayIndexId typeIdOff).1.2.withSymtab symtab),
        (tagEncodeBtf env w needIndexType tag arrayIndexId typeIdOff).2) := by
  cases tag <;>
    simp only [tagEncodeBtf, btfElfAddBaseType, btfElfAddRefType, btfElfAddArray,
      btfElfAddFuncProto, BtfElf.addType_withSymtab blind, structureTypeEncode_withSymtab blind,
      enumerationTypeEncode_withSymtab blind] <;>
    split_ifs <;> rfl

/-- The type pass on a writer whose symbol table is replaced. -/
theorem typePass_withSymtab (arrayIndexId typeIdOff : Nat) :
    ∀ (tags : List Tag) (coreId : Nat) (w : BtfElf) (needIndexType : Bool),
      typePass env arrayIndexId typeIdOff tags coreId (w.withSymtab symtab) needIndexType =
        ((typePass env arrayIndexId typeIdOff tags coreId w needIndexType).1,
          (typePass env arrayIndexId typeIdOff tags coreId w needIndexType).2.1.withSymtab symtab,
          (typePass env arrayIndexId typeIdOff tags coreId w needIndexType).2.2)
  | [], _, _, _ => rfl
  | tag :: rest, coreId, w, needIndexType => by
    simp only [typePass, tagEncodeBtf_withSymtab blind]
    split_ifs
    · rfl
    · exact typePass_withSymtab arrayIndexId typeIdOff rest _ _ _

/-- The function pass on a writer whose symbol table is replaced. -/
theorem functionPass_withSymtab (typeIdOff : Nat) :
    ∀ (fns : List Function) (w : BtfElf) (t : FunctionTable),
      functionPass env typeIdOff fns (w.withSymtab symtab) t =
        ((functionPass env typeIdOff fns w t).1,
          (functionPass env typeIdOff fns w t).2.1.withSymtab symtab,
          (functionPass env typeIdOff fns w t).2.2)
  | [], _, _ => rfl
  | fn :: rest, w, t => by
    simp only [functionPass, btfElfAddFuncProto, btfElfAddRefType, BtfElf.addType_withSymtab blind]
    split_ifs
    · rfl
    · exact functionPass_withSymtab typeIdOff rest _ _
    · exact functionPass_withSymtab typeIdOff rest _ _

/-- The variable pass on a writer whose symbol table is replaced: it reads of the ELF
file only the address of the per-CPU section. -/
theorem variablePass_withSymtab (percpuVars : List VarInfo) (force : Bool) (typeIdOff : Nat) :
    ∀ (vars : List Variable) (w : BtfElf),
      variablePass env percpuVars force typeIdOff vars (w.withSymtab symtab) =
        ((variablePass env percpuVars force typeIdOff vars w).1,
          (variablePass env percpuVars force typeIdOff vars w).2.withSymtab symtab)
  | [], _ => rfl
  | var :: rest, w => by
    have recurse := variablePass_withSymtab percpuVars force typeIdOff rest
    unfold variablePass
    by_cases skipped : var.declaration ∧ var.spec = none
    · rw [if_pos skipped, if_pos skipped]
      exact recurse w
    by_cases notGlobal : var.scope ≠ .vscopeGlobal ∧ var.spec = none
    · rw [if_neg skipped, if_neg skipped, if_pos notGlobal, if_pos notGlobal]
      exact recurse w
    rw [if_neg skipped, if_neg skipped, if_neg notGlobal, if_neg notGlobal]
    cases percpuVarExists percpuVars var.addr with
    | none => exact recurse w
    | some found =>
      obtain ⟨size, name⟩ := found
      dsimp only
      by_cases void : (var.spec.map VariableSpec.type).getD var.type = 0
      · rw [if_pos void, if_pos void]
        cases force
        · rfl
        · exact recurse w
      rw [if_neg void, if_neg void, btfElfAddVarType, btfElfAddVarType,
        BtfElf.addType_withSymtab blind]
      generalize BtfElf.addType env w _ = added
      obtain ⟨id, added⟩ := added
      dsimp only
      by_cases rejected : id < 0
      · rw [if_pos rejected, if_pos rejected]
      rw [if_neg rejected, if_neg rejected, BtfElf.withSymtab_percpuBaseAddr,
        btfElfAddVarSecinfo_withSymtab blind]
      generalize btfElfAddVarSecinfo env added _ _ _ = info
      obtain ⟨infoRes, info⟩ := info
      dsimp only
      by_cases infoRejected : infoRes < 0
      · rw [if_pos infoRejected, if_pos infoRejected]
      · rw [if_neg infoRejected, if_neg infoRejected]
        exact recurse info

/-- The writer after the __ARRAY_SIZE_TYPE__ step, on a writer whose symbol table is
replaced. -/
theorem indexedWriter_withSymtab (needed : Prop) [Decidable needed] (w : BtfElf) :
    (if needed then (btfElfAddBaseType env (w.withSymtab symtab) arraySizeType
        (some arraySizeTypeName)).2 else w.withSymtab symtab) =
      (if needed then (btfElfAddBaseType env w arraySizeType (some arraySizeTypeName)).2
        else w).withSymtab symtab := by
  split
  · simp only [btfElfAddBaseType, BtfElf.addType_withSymtab blind]
  · rfl

/-- The body of cu__encode_btf on a writer whose symbol table is replaced. -/
theorem encodeCu_writer_withSymtab (e : Encoder) (w : BtfElf) (cu : Cu)
    (force skipEncodingVars : Bool) :
    encodeCu env e (w.withSymtab symtab) cu force skipEncodingVars =
      ((encodeCu env e w cu force skipEncodingVars).1,
        (encodeCu env e w cu force skipEncodingVars).2.withSymtab symtab) := by
  simp only [encodeCu, BtfElf.withSymtab_nrTypes, BtfElf.withSymtab_percpuShndx,
    typePass_withSymtab blind]
  generalize prepareIndexType { e with btfElfForce := force } cu w.nrTypes = prepared
  generalize typePass env prepared.arrayIndexId w.nrTypes cu.types 1 w prepared.needIndexType = typed
  obtain ⟨typeErr, typedWriter, needIndexType⟩ := typed
  dsimp only
  by_cases typeFailed : typeErr ≠ 0
  · rw [if_pos typeFailed, if_pos typeFailed]
    rfl
  rw [if_neg typeFailed, if_neg typeFailed, addIndexType_eq, addIndexType_eq,
    indexedWriter_withSymtab blind, functionPass_withSymtab blind]
  generalize functionPass env w.nrTypes cu.functions _ _ = functions
  obtain ⟨functionErr, functionWriter, table⟩ := functions
  dsimp only
  by_cases functionFailed : functionErr ≠ 0
  · rw [if_pos functionFailed, if_pos functionFailed]
    rfl
  rw [if_neg functionFailed, if_neg functionFailed]
  by_cases skipped : skipEncodingVars = true ∨ w.elf.percpuShndx = 0
  · rw [if_pos skipped, if_pos skipped]
    rfl
  rw [if_neg skipped, if_neg skipped, variablePass_withSymtab blind]
  rfl

/-- The body of cu__encode_btf on globals and a writer whose symbol table is replaced, for a
CU whose symbol table is replaced. -/
theorem encodeCu_withSymtab (e : Encoder) (other : List Sym) (w : BtfElf) (cu : Cu)
    (cuSymtab : List Sym) (force skipEncodingVars : Bool) :
    encodeCu env (e.withSymtab other) (w.withSymtab symtab) cu force skipEncodingVars =
      ((encodeCu env e w (cu.withSymtab cuSymtab) force skipEncodingVars).1,
        (encodeCu env e w (cu.withSymtab cuSymtab) force skipEncodingVars).2.withSymtab symtab) := by
  rw [encodeCu_globals_withSymtab env e other _ cu cuSymtab, encodeCu_writer_withSymtab blind]

/-- btf_encoder__encode on a writer whose symbol table is replaced flushes the same BTF. -/
theorem btfEncoderEncode_withSymtab (e : Encoder) (w : BtfElf) :
    btfEncoderEncode env e (w.withSymtab symtab) =
      ((btfEncoderEncode env e w).1, (btfEncoderEncode env e w).2.1,
        (btfEncoderEncode env e w).2.2.map fun w => w.withSymtab symtab) := by
  unfold btfEncoderEncode btfElfEncode
  by_cases entries : w.percpuSecinfo.length ≠ 0
  · simp only [entries, if_true, ne_eq, not_false_eq_true, btfElfAddDatasecType,
      BtfElf.withSymtab_percpuSecinfo, BtfElf.addType_withSymtab blind, blind.encodeFails]
    split_ifs <;> rfl
  · simp only [entries, if_false, BtfElf.withSymtab_percpuSecinfo, blind.encodeFails]
    split_ifs <;> rfl

/-- The start of cu__encode_btf, on globals whose writer's symbol table is replaced and a CU
whose symbol table is replaced. -/
theorem sessionSwitch_withSymtab (e : Encoder) (cu : Cu) (cuSymtab : List Sym) :
    sessionSwitch env (e.withSymtab symtab) cu =
      ((sessionSwitch env e (cu.withSymtab cuSymtab)).1,
        (sessionSwitch env e (cu.withSymtab cuSymtab)).2.1.withSymtab symtab,
        (sessionSwitch env e (cu.withSymtab cuSymtab)).2.2.map fun w => w.withSymtab symtab) := by
  unfold sessionSwitch
  cases active : e.btfe with
  | none => simp only [Encoder.withSymtab_btfe, active, Option.map_none']
  | some w =>
    simp only [Encoder.withSymtab_btfe, active, Option.map_some', BtfElf.withSymtab_filename,
      Cu.withSymtab_filename]
    split_ifs
    · rw [btfEncoderEncode_withSymtab blind]
      rfl
    · rfl

omit blind in
/-- Without a session, the start of a session on a CU whose symbol table is replaced, when
collect_symbols agrees on both tables; with one, the session's writer. -/
theorem sessionStart_withSymtab (e : Encoder) (cu : Cu) (cuSymtab : List Sym)
    (skipEncodingVars : Bool)
    (collected : ∀ table, collectSymbols env cu.elf e.btfElfForce (!skipEncodingVars) table =
      collectSymbols env (cu.withSymtab cuSymtab).elf e.btfElfForce (!skipEncodingVars) table) :
    ∃ other, sessionStart env (e.withSymtab symtab) cu skipEncodingVars =
      (sessionStart env e (cu.withSymtab cuSymtab) skipEncodingVars).map fun started =>
        (started.1, started.2.1.withSymtab other, started.2.2.withSymtab other) := by
  unfold sessionStart
  cases active : e.btfe with
  | some w =>
    exact ⟨symtab, by simp only [Encoder.withSymtab_btfe, active, Option.map_some']⟩
  | none =>
    refine ⟨cu.elf.symtab, ?_⟩
    simp only [Encoder.withSymtab_btfe, active, Option.map_none', btfElfNew]
    split_ifs
    · rfl
    · simp only [Option.map_some', Encoder.withSymtab_btfElfForce, Encoder.withSymtab_table]
      rw [collected]
      split_ifs <;> rfl

/-- cu__encode_btf on globals whose writer's symbol table is replaced, and on a CU whose
symbol table is replaced, when collect_symbols agrees on both tables: the same result and
the same globals and flushed writer, up to symbol tables. -/
theorem cuEncodeBtf_withSymtab (e : Encoder) (cu : Cu) (cuSymtab : List Sym)
    (force skipEncodingVars : Bool)
    (collected : ∀ table, collectSymbols env cu.elf e.btfElfForce (!skipEncodingVars) table =
      collectSymbols env (cu.withSymtab cuSymtab).elf e.btfElfForce (!skipEncodingVars) table) :
    ∃ other, cuEncodeBtf env (e.withSymtab symtab) cu force skipEncodingVars =
      ((cuEncodeBtf env e (cu.withSymtab cuSymtab) force skipEncodingVars).1,
        (cuEncodeBtf env e (cu.withSymtab cuSymtab) force skipEncodingVars).2.1.withSymtab other,
        (cuEncodeBtf env e (cu.withSymtab cuSymtab) force skipEncodingVars).2.2.map
          fun w => w.withSymtab symtab) := by
  have forceKept := sessionSwitch_btfElfForce env e (cu.withSymtab cuSymtab)
  unfold cuEncodeBtf
  rw [sessionSwitch_withSymtab blind symtab e cu cuSymtab]
  generalize sessionSwitch env e (cu.withSymtab cuSymtab) = switched at forceKept ⊢
  obtain ⟨err, e1, flushed⟩ := switched
  dsimp only at forceKept ⊢
  by_cases failed : err ≠ 0
  · refine ⟨symtab, ?_⟩
    rw [if_pos failed, if_pos failed, Encoder.withSymtab_teardown, Encoder.teardown_withSymtab]
  obtain ⟨other, started⟩ := sessionStart_withSymtab symtab e1 cu cuSymtab skipEncodingVars
    (by rw [forceKept]; exact collected)
  rw [if_neg failed, if_neg failed, started]
  generalize sessionStart env e1 (cu.withSymtab cuSymtab) skipEncodingVars = start
  rcases start with _ | ⟨err', e2, w2⟩
  · exact ⟨symtab, rfl⟩
  · refine ⟨other, ?_⟩
    by_cases failed' : err' ≠ 0
    · simp only [Option.map_some']
      rw [if_pos failed', if_pos failed', Encoder.withSymtab_teardown, Encoder.teardown_withSymtab]
    · simp only [Option.map_some']
      rw [if_neg failed', if_neg failed', encodeCu_withSymtab blind other e2 other w2 cu cuSymtab]
      split_ifs <;> rfl

end Blind

/-! ## Runs with and without the invalid per-CPU names -/

/-- Whether a call passes force to cu__encode_btf. -/
def Call.forced : Call → Bool
  | .cuEncodeBtf _ force _ => force
  | .btfEncoderEncode => true

/-- Modelled from the spec: the call on the CU whose symbol table lacks the symbols
collect_percpu_var reports for their name. -/
def Call.withoutInvalidPercpuNames : Call → Call
  | .cuEncodeBtf cu force skipEncodingVars =>
    .cuEncodeBtf (cu.withSymtab (dropInvalidPercpuNames cu.elf)) force skipEncodingVars
  | .btfEncoderEncode => .btfEncoderEncode

/-- The calls of a run in turn: the result of each and the writer it flushed, and the
globals after the last; a btf_encoder__encode without a session, which the C code does
not make, is left out. -/
def runCalls (env : Env) : Encoder → List Call → List (Int × Option BtfElf) × Encoder
  | e, [] => ([], e)
  | e, call :: rest =>
    match step env e call with
    | none => runCalls env e rest
    | some (result, e', flushed) =>
      ((result, flushed) :: (runCalls env e' rest).1, (runCalls env e' rest).2)

/-- A run from a reachable state ends in a reachable state. -/
theorem Reachable.after_runCalls {baseBtf : Nat} {env : Env} :
    ∀ {e : Encoder} (calls : List Call), Reachable baseBtf e →
      Reachable baseBtf (runCalls env e calls).2
  | _, [], reachable => reachable
  | e, call :: rest, reachable => by
    simp only [runCalls]
    cases stepped : Dwarves.step env e call with
    | none => exact after_runCalls rest reachable
    | some r =>
      obtain ⟨result, e', flushed⟩ := r
      exact after_runCalls rest (reachable.step stepped)

/-- A call's result and flushed writer, the symbol table of the writer left out. -/
def withoutSymtab (outcome : Int × Option BtfElf) : Int × Option BtfElf :=
  (outcome.1, outcome.2.map fun w => w.withSymtab [])

@[simp] theorem withoutSymtab_withSymtab (result : Int) (flushed : Option BtfElf)
    (symtab : List Sym) :
    withoutSymtab (result, flushed.map fun w => w.withSymtab symtab) =
      withoutSymtab (result, flushed) := by
  cases flushed <;> rfl

/-- Every state is its own relabelling: the globals with the writer's symbol table put back. -/
theorem Encoder.exists_withSymtab_eq (e : Encoder) : ∃ symtab, e.withSymtab symtab = e := by
  obtain ⟨_ | w, table, percpuVars, arrayIndexId, hasIndexType, needIndexType, force, baseBtf⟩ := e
  exacts [⟨[], rfl⟩, ⟨w.elf.symtab, rfl⟩]

/-- A forced call keeps btf_elf__force set. -/
theorem step_btfElfForce {env : Env} {e e' : Encoder} {call : Call} {result : Int} {flushed : Option BtfElf}
    (forced : e.btfElfForce = true) (forcedCall : call.forced = true)
    (stepped : step env e call = some (result, e', flushed)) : e'.btfElfForce = true := by
  cases call with
  | cuEncodeBtf cu force skipEncodingVars =>
    simp only [Call.forced] at forcedCall
    subst forcedCall
    simp only [step, Option.some.injEq] at stepped
    rw [← (Prod.mk.inj (Prod.mk.inj stepped).2).1]
    exact cuEncodeBtf_btfElfForce env e cu skipEncodingVars forced
  | btfEncoderEncode =>
    obtain ⟨w, -, encoded⟩ := Option.map_eq_some'.1 stepped
    rw [← (Prod.mk.inj (Prod.mk.inj encoded).2).1]
    exact forced

section Blind

variable {env : Env} (blind : env.SymtabBlind)

include blind

/-- One forced call on globals whose writer's symbol table is replaced, against the call
without the invalid per-CPU names: the same result and flushed writer, and the same
globals, up to symbol tables. -/
theorem step_dropInvalidPercpuNames (symtab : List Sym) (e : Encoder) (forced : e.btfElfForce = true)
    (call : Call) :
    ∃ other, step env (e.withSymtab symtab) call = (step env e call.withoutInvalidPercpuNames).map
      fun r => (r.1, r.2.1.withSymtab other, r.2.2.map fun w => w.withSymtab symtab) := by
  cases call with
  | cuEncodeBtf cu force skipEncodingVars =>
    obtain ⟨other, encoded⟩ := cuEncodeBtf_withSymtab blind symtab e cu
      (dropInvalidPercpuNames cu.elf) force skipEncodingVars fun table => by
        rw [forced]
        exact (collectSymbols_dropInvalidPercpuNames env cu.elf _ table).2
    exact ⟨other, by simp only [step, Option.map_some', encoded]; rfl⟩
  | btfEncoderEncode =>
    refine ⟨[], ?_⟩
    simp only [step, Call.withoutInvalidPercpuNames, Encoder.withSymtab_btfe]
    cases e.btfe with
    | none => rfl
    | some w =>
      simp only [Option.map_some', btfEncoderEncode_withSymtab blind, Encoder.withSymtab_teardown]
      rfl

/-- A run of forced calls from globals whose writer's symbol table is replaced, against the
run without the invalid per-CPU names: every call returns the same and flushes the same
writer, and the runs end in the same globals, up to symbol tables. -/
theorem runCalls_dropInvalidPercpuNames :
    ∀ (calls : List Call) (symtab : List Sym) (e : Encoder), e.btfElfForce = true →
      (∀ call ∈ calls, call.forced = true) →
      (runCalls env (e.withSymtab symtab) calls).1.map withoutSymtab =
          (runCalls env e (calls.map Call.withoutInvalidPercpuNames)).1.map withoutSymtab ∧
        ∃ other, (runCalls env (e.withSymtab symtab) calls).2 =
          (runCalls env e (calls.map Call.withoutInvalidPercpuNames)).2.withSymtab other
  | [], symtab, e, _, _ => ⟨rfl, symtab, rfl⟩
  | call :: rest, symtab, e, forced, allForced => by
    obtain ⟨other, stepped⟩ := step_dropInvalidPercpuNames blind symtab e forced call
    have forcedCall := allForced call (List.mem_cons_self _ _)
    have forcedRest := fun call member => allForced call (List.mem_cons_of_mem _ member)
    simp only [runCalls, List.map_cons, stepped]
    cases next : step env e call.withoutInvalidPercpuNames with
    | none => exact runCalls_dropInvalidPercpuNames rest symtab e forced forcedRest
    | some r =>
      obtain ⟨result, e', flushed⟩ := r
      have forced' := step_btfElfForce forced
        (by cases call <;> exact forcedCall) next
      obtain ⟨later, ended⟩ :=
        runCalls_dropInvalidPercpuNames rest other e' forced' forcedRest
      exact ⟨by simp only [Option.map_some', List.map_cons, later, withoutSymtab_withSymtab], ended⟩

end Blind

/-- Invalid per-CPU names are inert under force. With per-CPU collection and btf_elf__force
set, the symbol pass of collect_symbols on an ELF file's symbol table and on the table
without the symbols collect_percpu_var reports for their name end alike (result, function
table, per-CPU table and funcs layout), and so does collect_symbols. And a run of forced
calls, from globals with btf_elf__force set and collaborators that do not read the symbol
table, gives on its CUs and on the same CUs without those symbols the same result and
flushed BTF at every call and the same globals at the end, up to symbol tables. -/
theorem invalid_percpu_names_inert {env : Env} (blind : env.SymtabBlind) (elf : Elf)
    (table : FunctionTable) (e : Encoder) (forced : e.btfElfForce = true) (calls : List Call)
    (allForced : ∀ call ∈ calls, call.forced = true) :
    let kept : Elf := { elf with symtab := dropInvalidPercpuNames elf }
    collectSymbolsLoop env elf true true elf.symtab ⟨table, [], .empty⟩ =
        collectSymbolsLoop env kept true true kept.symtab ⟨table, [], .empty⟩ ∧
      collectSymbols env elf true true table = collectSymbols env kept true true table ∧
      (runCalls env e calls).1.map withoutSymtab =
        (runCalls env e (calls.map Call.withoutInvalidPercpuNames)).1.map withoutSymtab ∧
      (runCalls env e calls).2.withSymtab [] =
        (runCalls env e (calls.map Call.withoutInvalidPercpuNames)).2.withSymtab [] := by
  obtain ⟨pass, collected⟩ := collectSymbols_dropInvalidPercpuNames env elf true table
  obtain ⟨symtab, own⟩ := e.exists_withSymtab_eq
  obtain ⟨outcomes, other, ended⟩ :=
    runCalls_dropInvalidPercpuNames blind calls symtab e forced allForced
  rw [own] at outcomes ended
  exact ⟨pass, collected, outcomes, by rw [ended, Encoder.withSymtab_withSymtab]⟩

/-- cu__encode_btf sets btf_elf__force from its force argument only after collect_symbols,
so a session started while it is unset, as it is at program start, collects unforced: on
a CU whose ELF file holds a per-CPU object of invalid name, a forced call without a
session fails in collect_percpu_var and leaves no session, whatever else fails. -/
theorem first_session_collects_unforced (env : Env) (e : Encoder) (cu : Cu)
    (noSession : e.btfe = none) (unforced : e.btfElfForce = false)
    (invalid : ∃ sym ∈ cu.elf.symtab, percpuInvalidName cu.elf.percpuShndx sym) :
    (cuEncodeBtf env e cu true false).1 = -1 ∧ (cuEncodeBtf env e cu true false).2.1.btfe = none := by
  have collected := collectSymbols_unforced_invalid env cu.elf e.table invalid
  simp only [cuEncodeBtf, sessionSwitch, sessionStart, noSession, btfElfNew]
  cases env.newFails
  · simp [unforced, collected, Encoder.teardown]
  · simp [noSession]

/-- A vmlinux whose per-CPU section 1 holds one object, named "1v": no valid BTF name. -/
def invalidNameElf : Elf := ⟨[], [⟨.ofAscii "1v", 64, 4, 1, sttObject⟩], 1, 0⟩

/-- A CU of that vmlinux without types, functions or variables. -/
def invalidNameCu : Cu := ⟨.ofAscii "vmlinux", invalidNameElf, [], [], []⟩

/-- One forced call on that CU, then the end of the session. -/
def invalidNameCalls : List Call := [.cuEncodeBtf invalidNameCu true false, .btfEncoderEncode]

/-- The globals after a forced session on that vmlinux without its object of invalid name:
no session, and btf_elf__force set. -/
def forcedSessionEnd : Encoder :=
  (runCalls Env.reliable (Encoder.init 0) (invalidNameCalls.map Call.withoutInvalidPercpuNames)).2

/-- The theorem on the second forced session, the run on that CU from forcedSessionEnd. -/
theorem invalid_percpu_names_inert_after_forced_session :
    Reachable 0 forcedSessionEnd ∧ Env.reliable.SymtabBlind ∧ forcedSessionEnd.btfElfForce = true ∧
      (∀ call ∈ invalidNameCalls, call.forced = true) ∧
      (let kept : Elf := { invalidNameElf with symtab := dropInvalidPercpuNames invalidNameElf }
      collectSymbolsLoop Env.reliable invalidNameElf true true invalidNameElf.symtab
          ⟨deleteFunctions, [], .empty⟩ =
        collectSymbolsLoop Env.reliable kept true true kept.symtab ⟨deleteFunctions, [], .empty⟩ ∧
      collectSymbols Env.reliable invalidNameElf true true deleteFunctions =
        collectSymbols Env.reliable kept true true deleteFunctions ∧
      (runCalls Env.reliable forcedSessionEnd invalidNameCalls).1.map withoutSymtab =
        (runCalls Env.reliable forcedSessionEnd
          (invalidNameCalls.map Call.withoutInvalidPercpuNames)).1.map withoutSymtab ∧
      (runCalls Env.reliable forcedSessionEnd invalidNameCalls).2.withSymtab [] =
        (runCalls Env.reliable forcedSessionEnd
          (invalidNameCalls.map Call.withoutInvalidPercpuNames)).2.withSymtab []) :=
  ⟨Reachable.init.after_runCalls _, Env.reliable_symtabBlind, by decide, by decide,
    invalid_percpu_names_inert Env.reliable_symtabBlind invalidNameElf deleteFunctions
      forcedSessionEnd (by decide) invalidNameCalls (by decide)⟩

/-- From program start, the forced call on that CU fails, while the same call without the
invalid name encodes it. -/
theorem first_session_collects_unforced_on_invalid_name :
    (Encoder.init 0).btfe = none ∧ (Encoder.init 0).btfElfForce = false ∧
      (∃ sym ∈ invalidNameCu.elf.symtab, percpuInvalidName invalidNameCu.elf.percpuShndx sym) ∧
      ((cuEncodeBtf Env.reliable (Encoder.init 0) invalidNameCu true false).1 = -1 ∧
        (cuEncodeBtf Env.reliable (Encoder.init 0) invalidNameCu true false).2.1.btfe = none) ∧
      (cuEncodeBtf Env.reliable (Encoder.init 0)
        (invalidNameCu.withSymtab (dropInvalidPercpuNames invalidNameCu.elf)) true false).1 = 0 :=
  ⟨rfl, rfl, by decide,
    first_session_collects_unforced Env.reliable (Encoder.init 0) invalidNameCu rfl rfl (by decide),
    by decide⟩

end Dwarves
