import Dwarves.BtfEncoder.References
import Dwarves.BtfEncoder.SymbolTable

/-
Where the per-CPU section info comes from. collect_symbols stores, for each object of the
per-CPU section with a nonzero address, a nonzero size and a valid name, its address, size
and name, sorted by address. The variable pass looks each global variable's address up
there and, for a symbol it finds, adds a VAR named after the symbol and a section info
entry with the symbol's offset in the section and its size. So every entry of a session's
writer, which btf_encoder__encode emits as the DATASEC, describes a per-CPU symbol of the
session's ELF file under the VAR record it names.
-/

namespace Dwarves

/-- Every address the per-CPU table finds is that of a symbol of the ELF file that
collect_percpu_var stores, with the symbol's size as a uint32_t and its name. -/
def PercpuVarsFromSymtab (percpuVars : List VarInfo) (elf : Elf) : Prop :=
  ∀ addr size name, percpuVarExists percpuVars addr = some (size, name) →
    ∃ sym ∈ elf.symtab, percpuQualifies elf.percpuShndx sym ∧ sym.value = addr ∧
      size = sym.size % 2 ^ 32 ∧ name = sym.name

/-- Every per-CPU section info entry of the writer describes a symbol of the ELF file that
collect_percpu_var stores: its offset in the per-CPU section, its size as a uint32_t, and
the ID of a VAR record named after it. -/
def BtfElf.SecinfoFromSymtab (w : BtfElf) (elf : Elf) : Prop :=
  ∀ info ∈ w.percpuSecinfo, ∃ sym ∈ elf.symtab, percpuQualifies elf.percpuShndx sym ∧
    info.offset = ulongSub sym.value elf.percpuBaseAddr % 2 ^ 32 ∧
    info.size = sym.size % 2 ^ 32 ∧
    ∃ type linkage, w.record info.type = some (.var type sym.name linkage)

/-! ## The per-CPU table -/

/-- An empty table finds no address. -/
theorem PercpuVarsFromSymtab.nil (elf : Elf) : PercpuVarsFromSymtab [] elf := by
  intro addr size name found
  simp [percpuVarExists, bsearch, bsearchLoop] at found

/-- Without per-CPU collection the symbol pass leaves the per-CPU table alone. -/
theorem collectSymbolsLoop_percpuVars_false (env : Env) (elf : Elf) (force : Bool) :
    ∀ (syms : List Sym) (st : SymbolPass),
      (collectSymbolsLoop env elf force false syms st).2.percpuVars = st.percpuVars
  | [], _ => rfl
  | sym :: rest, st => by
    have step : (collectSymbolsStep env elf force false st sym).2.percpuVars = st.percpuVars := by
      simp only [collectSymbolsStep, Bool.false_eq_true, if_false]
      split_ifs <;> rfl
    simp only [collectSymbolsLoop]
    split_ifs
    · exact step
    · rw [collectSymbolsLoop_percpuVars_false env elf force rest, step]

/-- After a successful collect_symbols the per-CPU table finds only the symbols of the ELF
file that collect_percpu_var stores, with their size and name. -/
theorem collectSymbols_percpuVarsFromSymtab {env : Env} {elf : Elf}
    {force collectPercpuVars : Bool} {table table' : FunctionTable} {percpuVars : List VarInfo}
    (ok : collectSymbols env elf force collectPercpuVars table = (0, table', percpuVars)) :
    PercpuVarsFromSymtab percpuVars elf := by
  cases collectPercpuVars with
  | false =>
    obtain ⟨-, sorted⟩ := collectSymbols_of_ok ok
    simp only [sorted, sortPercpuVars, Bool.false_eq_true, false_and, if_false,
      collectSymbolsLoop_percpuVars_false]
    exact PercpuVarsFromSymtab.nil elf
  | true =>
    rw [collectSymbols_percpuVars_of_ok ok]
    intro addr size name found
    obtain ⟨entry, member, rfl, rfl, rfl⟩ := (percpuVarExists_qsort _ addr).2 size name found
    obtain ⟨sym, qualifying, rfl⟩ := List.mem_map.1 member
    obtain ⟨present, qualifies⟩ := List.mem_filter.1 qualifying
    exact ⟨sym, present, qualifies, rfl, rfl, rfl⟩

/-! ## The writer's entries -/

/-- Appending records keeps every entry describing its symbol. -/
theorem BtfElf.SecinfoFromSymtab.appendTypes {w w' : BtfElf} {elf : Elf}
    (entries : w.SecinfoFromSymtab elf) {more : List BtfType}
    (base : w'.baseNrTypes = w.baseNrTypes) (types : w'.types = w.types ++ more)
    (secinfo : w'.percpuSecinfo = w.percpuSecinfo) : w'.SecinfoFromSymtab elf := by
  intro info member
  obtain ⟨sym, present, qualifies, offset, size, type, linkage, found⟩ :=
    entries info (secinfo ▸ member)
  exact ⟨sym, present, qualifies, offset, size, type, linkage,
    record_of_prefix base types found⟩

/-- A section info entry the writer takes is appended. -/
theorem btfElfAddVarSecinfo_of_taken {env : Env} {w : BtfElf} {type offset size : Nat}
    (taken : ¬(btfElfAddVarSecinfo env w type offset size).1 < 0) :
    (btfElfAddVarSecinfo env w type offset size).2 =
      { w with percpuSecinfo := w.percpuSecinfo ++ [⟨type, offset, size⟩] } := by
  by_cases rejected : env.rejects w (.addVarSecinfo ⟨type, offset, size⟩)
  · simp [btfElfAddVarSecinfo, rejected] at taken
  · simp [btfElfAddVarSecinfo, rejected]

/-- A successful variable pass only appends. -/
theorem variablePass_nrTypes_le {env : Env} {percpuVars : List VarInfo} {force : Bool}
    {typeIdOff : Nat} {vars : List Variable} {w w' : BtfElf}
    (ok : variablePass env percpuVars force typeIdOff vars w = (0, w')) :
    w.nrTypes ≤ w'.nrTypes := by
  obtain ⟨added, infos, rfl, -⟩ := variablePass_ok env percpuVars force typeIdOff ok
  simp [BtfElf.nrTypes]

/-- A successful variable pass on a writer of the ELF file the per-CPU table comes from,
while IDs fit in 32 bits, adds for each variable the table finds a VAR named after the
symbol found and an entry with that symbol's offset and size naming the VAR. -/
theorem variablePass_secinfoFromSymtab (env : Env) {percpuVars : List VarInfo} {force : Bool}
    {typeIdOff : Nat} {elf : Elf} (fromSymtab : PercpuVarsFromSymtab percpuVars elf) :
    ∀ {vars : List Variable} {w w' : BtfElf},
      variablePass env percpuVars force typeIdOff vars w = (0, w') → w.elf = elf →
      w'.nrTypes < 2 ^ 32 → w.SecinfoFromSymtab elf → w'.SecinfoFromSymtab elf
  | [], w, w', ok, _, _, entries => by
    simp only [variablePass, Prod.mk.injEq, true_and] at ok
    exact ok ▸ entries
  | var :: rest, w, w', ok, sameElf, fits, entries => by
    have later := @variablePass_secinfoFromSymtab env percpuVars force typeIdOff elf fromSymtab
      rest
    simp only [variablePass] at ok
    by_cases skipped : var.declaration = true ∧ var.spec = none
    · rw [if_pos skipped] at ok
      exact later ok sameElf fits entries
    rw [if_neg skipped] at ok
    by_cases notGlobal : var.scope ≠ .vscopeGlobal ∧ var.spec = none
    · rw [if_pos notGlobal] at ok
      exact later ok sameElf fits entries
    rw [if_neg notGlobal] at ok
    generalize entryEq : percpuVarExists percpuVars var.addr = entry at ok
    rcases entry with _ | ⟨size, name⟩
    · exact later ok sameElf fits entries
    dsimp only at ok
    generalize (var.spec.map VariableSpec.type).getD var.type = type at ok
    by_cases void : type = 0
    · rw [if_pos void] at ok
      by_cases forced : force = true
      · rw [if_pos forced] at ok
        exact later ok sameElf fits entries
      · rw [if_neg forced] at ok
        simp at ok
    rw [if_neg void] at ok
    generalize (if (var.spec.map VariableSpec.external).getD var.external then
      Linkage.globalAllocated else .static) = linkage at ok
    rcases BtfElf.addType_result env w (.var (type + typeIdOff) name linkage) with
      added | ⟨failed, -⟩
    swap
    · simp only [btfElfAddVarType, failed] at ok
      rw [if_pos (by omega)] at ok
      simp at ok
    simp only [btfElfAddVarType, added] at ok
    rw [if_neg (by omega)] at ok
    split at ok
    · simp at ok
    rename_i taken
    rw [btfElfAddVarSecinfo_of_taken taken] at ok
    have small : w.nrTypes + 1 < 2 ^ 32 := by
      have := variablePass_nrTypes_le ok
      simp only [BtfElf.nrTypes, List.length_append, List.length_singleton] at this fits ⊢
      omega
    refine later ok sameElf fits fun info member => ?_
    rcases List.mem_append.1 member with old | new
    · obtain ⟨sym, present, qualifies, offset, sized, type', linkage', found⟩ :=
        entries info old
      exact ⟨sym, present, qualifies, offset, sized, type', linkage',
        @BtfElf.record_of_prefix w _ [.var (type + typeIdOff) name linkage] _ _ rfl rfl found⟩
    · obtain rfl := List.mem_singleton.1 new
      obtain ⟨sym, present, qualifies, addr, rfl, rfl⟩ := fromSymtab _ _ _ entryEq
      refine ⟨sym, present, qualifies, by rw [addr, sameElf], rfl, type + typeIdOff, linkage,
        ?_⟩
      rw [toU32_of_lt small]
      exact @BtfElf.record_appended w _ [.var (type + typeIdOff) sym.name linkage] 0 rfl rfl

/-- A successful body of cu__encode_btf keeps the writer's ELF file and the per-CPU
table. -/
theorem encodeCu_frame {env : Env} {e e' : Encoder} {w : BtfElf} {cu : Cu}
    {force skipEncodingVars : Bool} (ok : encodeCu env e w cu force skipEncodingVars = (0, e')) :
    ∃ w', e'.btfe = some w' ∧ w'.elf = w.elf ∧ e'.percpuVars = e.percpuVars := by
  obtain ⟨prepared, -, -, -, rfl, -, -, -, -, -, -, rfl⟩ := encodeCu_ok ok
  exact ⟨_, rfl, rfl, by rw [prepareIndexType_eq]⟩

/-- A successful body of cu__encode_btf on a writer of the ELF file the per-CPU table comes
from keeps every entry describing its symbol, while IDs fit in 32 bits. -/
theorem encodeCu_secinfoFromSymtab {env : Env} {e e' : Encoder} {w : BtfElf} {cu : Cu}
    {force skipEncodingVars : Bool} {elf : Elf} (sameElf : w.elf = elf)
    (fromSymtab : PercpuVarsFromSymtab e.percpuVars elf)
    (entries : w.nrTypes < 2 ^ 32 → w.SecinfoFromSymtab elf)
    (ok : encodeCu env e w cu force skipEncodingVars = (0, e')) :
    ∃ w', e'.btfe = some w' ∧ w'.filename = w.filename ∧ w'.elf = w.elf ∧
      e'.percpuVars = e.percpuVars ∧ (w'.nrTypes < 2 ^ 32 → w'.SecinfoFromSymtab elf) := by
  obtain ⟨w', active, sameName, base, grows⟩ := encodeCu_appends ok
  obtain ⟨w'', active', elfKept, varsKept⟩ := encodeCu_frame ok
  cases active.symm.trans active'
  refine ⟨w', active, sameName, elfKept, varsKept, fun fits => ?_⟩
  replace entries := entries ((BtfElf.nrTypes_le_of_prefix base grows).trans_lt fits)
  obtain ⟨prepared, indexed, w3, t3, preparedEq, -, -, functions, vars⟩ := encodeCu_passes ok
  obtain ⟨added, rfl, -⟩ := functionPass_ok env _ functions
  have typed : BtfElf.SecinfoFromSymtab
      { w with
        types := w.types ++ cu.types.filterMap (tagRecord prepared.arrayIndexId w.nrTypes) ++
          indexed }
      elf :=
    entries.appendTypes rfl (List.append_assoc _ _ _) rfl
  rcases vars with found | ⟨w4, ran, found⟩ <;> rw [active] at found <;> cases found
  · exact typed.appendTypes rfl rfl rfl
  · have preparedVars : prepared.percpuVars = e.percpuVars := by
      rw [preparedEq, prepareIndexType_eq]
    exact variablePass_secinfoFromSymtab env (preparedVars ▸ fromSymtab) ran sameElf fits
      (typed.appendTypes rfl rfl rfl)

/-- btf_encoder__encode flushes its writer's entries as they are. -/
theorem btfEncoderEncode_percpuSecinfo (env : Env) (e : Encoder) (w : BtfElf) :
    ∀ flushed ∈ (btfEncoderEncode env e w).2.2, flushed.percpuSecinfo = w.percpuSecinfo := by
  intro flushed member
  simp only [btfEncoderEncode, Option.mem_def, ite_eq_left_iff, reduceCtorEq, imp_false,
    not_not] at member
  split_ifs at member <;> obtain rfl := Option.some.inj member
  · rcases BtfElf.addType_spec env w (.datasec percpuSection w.percpuSecinfo) with
      ⟨-, rejected⟩ | ⟨-, added⟩
    · simp [btfElfAddDatasecType, rejected]
    · simp [btfElfAddDatasecType, added]
  · rfl

/-! ## Sessions -/

/-- Under any rejections of the writer and while its IDs fit in 32 bits, every per-CPU
section info entry of a session of successfully encoded CUs, and so of the DATASEC
btf_encoder__encode emits from them, describes an object of the per-CPU section of the
first CU's ELF file with a nonzero address, a nonzero size and a valid name: it stores the
object's offset in the section, its size as a uint32_t, and the ID of a VAR record named
after it. -/
theorem session_percpu_secinfo_from_symtab (env : Env) (e e' : Encoder)
    (first : Cu × Bool × Bool) (rest : List (Cu × Bool × Bool)) (idle : e.btfe = none)
    (sameFile : ∀ call ∈ rest, call.1.filename = first.1.filename)
    (ran : runCus env e (first :: rest) = some e') :
    ∃ w', e'.btfe = some w' ∧ (w'.nrTypes < 2 ^ 32 → w'.SecinfoFromSymtab first.1.elf) ∧
      ∀ flushed ∈ (btfEncoderEncode env e' w').2.2,
        flushed.nrTypes < 2 ^ 32 → flushed.SecinfoFromSymtab first.1.elf := by
  obtain ⟨w', active', -, -, holds⟩ := runCus_from_idle
    (fun _ e w => w.elf = first.1.elf ∧ PercpuVarsFromSymtab e.percpuVars first.1.elf ∧
      (w.nrTypes < 2 ^ 32 → w.SecinfoFromSymtab first.1.elf))
    (fun ⟨sameElf, fromSymtab, entries⟩ _ ok => by
      obtain ⟨w', active, sameName, elfKept, varsKept, entries'⟩ :=
        encodeCu_secinfoFromSymtab sameElf fromSymtab entries ok
      exact ⟨w', active, sameName, elfKept.trans sameElf, varsKept ▸ fromSymtab, entries'⟩)
    (fun _ _ collected => ⟨rfl, collectSymbols_percpuVarsFromSymtab collected,
      fun _ _ member => absurd member (List.not_mem_nil _)⟩)
    idle sameFile ran
  refine ⟨w', active', holds, fun flushed member fits => ?_⟩
  obtain ⟨base, more, types⟩ := btfEncoderEncode_appends env e' w' flushed member
  exact (holds ((BtfElf.nrTypes_le_of_prefix base ⟨more, types⟩).trans_lt fits)).appendTypes
    base types.symm (btfEncoderEncode_percpuSecinfo env e' w' flushed member)

/-- The per-CPU session of p.o, whose one entry describes the symbol v. -/
theorem session_percpu_secinfo_from_symtab_in_percpu_session :
    (Encoder.init 0).btfe = none ∧
    (∀ call ∈ ([] : List (Cu × Bool × Bool)), call.1.filename = percpuCu.filename) ∧
    runCus uncheckedRejects (Encoder.init 0) [(percpuCu, false, false)] =
      some percpuSessionEnd ∧
    ∃ w', percpuSessionEnd.btfe = some w' ∧
      (w'.nrTypes < 2 ^ 32 → w'.SecinfoFromSymtab percpuElf) ∧
      ∀ flushed ∈ (btfEncoderEncode uncheckedRejects percpuSessionEnd w').2.2,
        flushed.nrTypes < 2 ^ 32 → flushed.SecinfoFromSymtab percpuElf :=
  ⟨rfl, by simp, by decide,
    session_percpu_secinfo_from_symtab uncheckedRejects (Encoder.init 0) percpuSessionEnd
      (percpuCu, false, false) [] rfl (by simp) (by decide)⟩

end Dwarves
