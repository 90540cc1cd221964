import Dwarves.BtfEncoder.Functions
import Dwarves.BtfEncoder.NameValid

/-
The one pass collect_symbols makes over the ELF symbol table, feeding three
consumers at once: the per-CPU variable table, the function table and the
funcs layout anchors; then the sorting of both tables and the decision between
ftrace filtering and the fallback to DWARF declarations.
-/

namespace Dwarves

def maxPercpuVarCnt : Nat := 4096

/-- An entry of the per-CPU table, struct var_info: address, size and name. -/
structure VarInfo where
  addr : Nat
  sz : Nat
  name : CStr
deriving DecidableEq

/-- collect_percpu_var on percpu_vars[0, percpu_var_cnt), with force the value of
btf_elf__force. The size is kept in a uint32_t. -/
def collectPercpuVar (percpuShndx : Nat) (force : Bool) (percpuVars : List VarInfo) (sym : Sym) :
    Int × List VarInfo :=
  if sym.shndx ≠ percpuShndx then (0, percpuVars)
  else if sym.type ≠ sttObject then (0, percpuVars)
  else if sym.value = 0 then (0, percpuVars)
  else
    let size := sym.size % 2 ^ 32
    if size = 0 then (0, percpuVars)
    else if !btfNameValid sym.name then (if force then 0 else -1, percpuVars)
    else if percpuVars.length = maxPercpuVarCnt then (-1, percpuVars)
    else (0, percpuVars ++ [⟨sym.value, size, sym.name⟩])

/-- percpu_var_exists: the size and name of the entry bsearch finds by address. -/
def percpuVarExists (percpuVars : List VarInfo) (addr : Nat) : Option (Nat × CStr) :=
  (bsearch addr (percpuVars.map VarInfo.addr)).bind fun i =>
    percpuVars[i]?.map fun p => (p.sz, p.name)

def startMcountLoc : CStr := .ofAscii "__start_mcount_loc"

def stopMcountLoc : CStr := .ofAscii "__stop_mcount_loc"

def initBeginName : CStr := .ofAscii "__init_begin"

def initEndName : CStr := .ofAscii "__init_end"

def initBpfBeginName : CStr := .ofAscii "__init_bpf_preserve_type_begin"

def initBpfEndName : CStr := .ofAscii "__init_bpf_preserve_type_end"

/-- collect_symbol: each anchor keeps the value of the first symbol of its name. -/
def collectSymbol (fl : FuncsLayout) (sym : Sym) : FuncsLayout :=
  let fl := if fl.mcountStart = 0 ∧ sym.name = startMcountLoc then
    { fl with mcountStart := sym.value, mcountSecIdx := sym.shndx } else fl
  let fl := if fl.mcountStop = 0 ∧ sym.name = stopMcountLoc then
    { fl with mcountStop := sym.value } else fl
  let fl := if fl.initBegin = 0 ∧ sym.name = initBeginName then
    { fl with initBegin := sym.value } else fl
  let fl := if fl.initEnd = 0 ∧ sym.name = initEndName then
    { fl with initEnd := sym.value } else fl
  let fl := if fl.initBpfBegin = 0 ∧ sym.name = initBpfBeginName then
    { fl with initBpfBegin := sym.value } else fl
  if fl.initBpfEnd = 0 ∧ sym.name = initBpfEndName then { fl with initBpfEnd := sym.value } else fl

/-- has_all_symbols: every one of the six anchors was found with a nonzero value. -/
def hasAllSymbols (fl : FuncsLayout) : Bool :=
  fl.mcountStart ≠ 0 && fl.mcountStop ≠ 0 && fl.initBegin ≠ 0 && fl.initEnd ≠ 0 &&
    fl.initBpfBegin ≠ 0 && fl.initBpfEnd ≠ 0

/-- What the symbol pass of collect_symbols writes. -/
structure SymbolPass where
  table : FunctionTable
  percpuVars : List VarInfo
  layout : FuncsLayout

/-- The body of the symbol pass for one symbol. -/
def collectSymbolsStep (env : Env) (elf : Elf) (force collectPercpuVars : Bool) (st : SymbolPass)
    (sym : Sym) : Int × SymbolPass :=
  let percpu := if collectPercpuVars then collectPercpuVar elf.percpuShndx force st.percpuVars sym
    else (0, st.percpuVars)
  if percpu.1 ≠ 0 then (-1, { st with percpuVars := percpu.2 })
  else
    let function := collectFunction env st.table sym
    if function.1 ≠ 0 then (-1, { st with percpuVars := percpu.2, table := function.2 })
    else (0, ⟨function.2, percpu.2, collectSymbol st.layout sym⟩)

/-- The symbol pass: the step on each symbol until one fails. -/
def collectSymbolsLoop (env : Env) (elf : Elf) (force collectPercpuVars : Bool) :
    List Sym → SymbolPass → Int × SymbolPass
  | [], st => (0, st)
  | sym :: rest, st =>
    let step := collectSymbolsStep env elf force collectPercpuVars st sym
    if step.1 ≠ 0 then (-1, step.2) else collectSymbolsLoop env elf force collectPercpuVars rest step.2

/-- The funcs layout before the pass: all anchors 0. -/
def FuncsLayout.empty : FuncsLayout := ⟨0, 0, 0, 0, 0, 0, 0⟩

/-- The per-CPU table after the pass of collect_symbols: sorted by address when collected
and not empty. -/
def sortPercpuVars (collectPercpuVars : Bool) (percpuVars : List VarInfo) : List VarInfo :=
  if collectPercpuVars ∧ percpuVars ≠ [] then qsort VarInfo.addr percpuVars else percpuVars

/-- collect_symbols on the writer's ELF file, with force the value of btf_elf__force:
the function table and the per-CPU table it leaves. -/
def collectSymbols (env : Env) (elf : Elf) (force collectPercpuVars : Bool) (table : FunctionTable) :
    Int × FunctionTable × List VarInfo :=
  let pass := collectSymbolsLoop env elf force collectPercpuVars elf.symtab ⟨table, [], .empty⟩
  if pass.1 ≠ 0 then (-1, pass.2.table, pass.2.percpuVars)
  else
    let st := pass.2
    let percpuVars := sortPercpuVars collectPercpuVars st.percpuVars
    if st.table.functionsCnt ≠ 0 ∧ hasAllSymbols st.layout then
      let filtered := filterFunctions env elf st.layout
        { st.table with functions := st.table.functions.map (qsort ElfFunction.name) }
      if filtered.1 ≠ 0 then (-1, filtered.2, percpuVars) else (0, filtered.2, percpuVars)
    else (0, deleteFunctions, percpuVars)

end Dwarves

namespace Dwarves

/-- An object of the per-CPU section with a nonzero address and a nonzero 32-bit size:
the symbols collect_percpu_var looks at the name of. -/
def percpuCandidate (percpuShndx : Nat) (sym : Sym) : Bool :=
  sym.shndx = percpuShndx && sym.type = sttObject && sym.value ≠ 0 && sym.size % 2 ^ 32 ≠ 0

/-- The symbols collect_percpu_var stores. -/
def percpuQualifies (percpuShndx : Nat) (sym : Sym) : Bool :=
  percpuCandidate percpuShndx sym && btfNameValid sym.name

/-- The symbols collect_percpu_var reports for their name. -/
def percpuInvalidName (percpuShndx : Nat) (sym : Sym) : Bool :=
  percpuCandidate percpuShndx sym && !btfNameValid sym.name

/-- The entry collect_percpu_var stores for a symbol. -/
def percpuEntry (sym : Sym) : VarInfo := ⟨sym.value, sym.size % 2 ^ 32, sym.name⟩

/-- collect_percpu_var stores a qualifying symbol unless the table is full, reports an
invalid name unless forced, and ignores every other symbol. -/
theorem collectPercpuVar_eq (percpuShndx : Nat) (force : Bool) (percpuVars : List VarInfo)
    (sym : Sym) :
    collectPercpuVar percpuShndx force percpuVars sym =
      if percpuQualifies percpuShndx sym then
        if percpuVars.length = maxPercpuVarCnt then (-1, percpuVars)
        else (0, percpuVars ++ [percpuEntry sym])
      else if percpuInvalidName percpuShndx sym then (if force then 0 else -1, percpuVars)
      else (0, percpuVars) := by
  unfold collectPercpuVar percpuQualifies percpuInvalidName percpuCandidate percpuEntry
  by_cases shndx : sym.shndx = percpuShndx
  swap; · simp [shndx]
  by_cases type : sym.type = sttObject
  swap; · simp [shndx, type]
  by_cases value : sym.value = 0
  · simp [shndx, type, value]
  by_cases size : sym.size % 2 ^ 32 = 0
  · simp only [Nat.reducePow] at size
    simp [shndx, type, value, size]
  cases valid : btfNameValid sym.name <;> simp [shndx, type, value, size, valid]

/-- collect_function fails only when a reallocation does. -/
theorem collectFunction_ok {env : Env} (reallocOk : ∀ capacity, env.reallocFails capacity = false)
    (t : FunctionTable) (sym : Sym) : (collectFunction env t sym).1 = 0 := by
  simp only [collectFunction, reallocOk, Bool.false_eq_true, if_false]
  split_ifs <;> rfl

section PercpuPass

variable (env : Env) (elf : Elf) (force : Bool)

/-- Failing or not, a step leaves the per-CPU table as collect_percpu_var left it. -/
theorem collectSymbolsStep_percpuVars (st : SymbolPass) (sym : Sym) :
    (collectSymbolsStep env elf force true st sym).2.percpuVars =
      (collectPercpuVar elf.percpuShndx force st.percpuVars sym).2 := by
  simp only [collectSymbolsStep, if_true]
  split_ifs <;> rfl

/-- A step fails when collect_percpu_var does, and otherwise when collect_function does. -/
theorem collectSymbolsStep_fst (st : SymbolPass) (sym : Sym) :
    (collectSymbolsStep env elf force true st sym).1 =
      if (collectPercpuVar elf.percpuShndx force st.percpuVars sym).1 ≠ 0 then -1
      else if (collectFunction env st.table sym).1 ≠ 0 then -1 else 0 := by
  simp only [collectSymbolsStep, if_true]
  split_ifs <;> rfl

/-- A step never fills the per-CPU table past MAX_PERCPU_VAR_CNT. -/
theorem collectSymbolsStep_percpu_le (st : SymbolPass) (sym : Sym)
    (bounded : st.percpuVars.length ≤ maxPercpuVarCnt) :
    (collectSymbolsStep env elf force true st sym).2.percpuVars.length ≤ maxPercpuVarCnt := by
  rw [collectSymbolsStep_percpuVars, collectPercpuVar_eq]
  split_ifs <;> simp <;> omega

theorem collectSymbolsLoop_percpu_le :
    ∀ (syms : List Sym) (st : SymbolPass), st.percpuVars.length ≤ maxPercpuVarCnt →
      (collectSymbolsLoop env elf force true syms st).2.percpuVars.length ≤ maxPercpuVarCnt
  | [], _, bounded => bounded
  | sym :: rest, st, bounded => by
    have step := collectSymbolsStep_percpu_le env elf force st sym bounded
    simp only [collectSymbolsLoop]
    split_ifs
    · exact step
    · exact collectSymbolsLoop_percpu_le rest _ step

/-- A successful step stores the entry of a qualifying symbol and nothing else. -/
theorem collectSymbolsStep_percpu_of_ok (st : SymbolPass) (sym : Sym)
    (ok : (collectSymbolsStep env elf force true st sym).1 = 0) :
    (collectSymbolsStep env elf force true st sym).2.percpuVars =
      st.percpuVars ++ ([sym].filter (percpuQualifies elf.percpuShndx)).map percpuEntry := by
  rw [collectSymbolsStep_fst, collectPercpuVar_eq] at ok
  rw [collectSymbolsStep_percpuVars, collectPercpuVar_eq]
  by_cases qualifies : percpuQualifies elf.percpuShndx sym
  · have notFull : st.percpuVars.length ≠ maxPercpuVarCnt := fun full => by
      simp [qualifies, full] at ok
    simp [qualifies, notFull]
  · split_ifs <;> simp [qualifies]

/-- A successful pass has stored the entries of all qualifying symbols, in order. -/
theorem collectSymbolsLoop_percpu_of_ok :
    ∀ (syms : List Sym) (st : SymbolPass), (collectSymbolsLoop env elf force true syms st).1 = 0 →
      (collectSymbolsLoop env elf force true syms st).2.percpuVars =
        st.percpuVars ++ (syms.filter (percpuQualifies elf.percpuShndx)).map percpuEntry
  | [], _, _ => by simp [collectSymbolsLoop]
  | sym :: rest, st, ok => by
    simp only [collectSymbolsLoop] at ok ⊢
    split_ifs at ok ⊢ with failed
    · simp at ok
    · have head := collectSymbolsStep_percpu_of_ok env elf force st sym (by simpa using failed)
      rw [collectSymbolsLoop_percpu_of_ok rest _ ok, head]
      by_cases qualifies : percpuQualifies elf.percpuShndx sym <;> simp [List.filter_cons, qualifies]

/-- With reallocations succeeding, the pass fails exactly when the qualifying symbols
overflow the table or, unforced, a candidate has an invalid name. -/
theorem collectSymbolsLoop_fails_iff (reallocOk : ∀ capacity, env.reallocFails capacity = false) :
    ∀ (syms : List Sym) (st : SymbolPass), st.percpuVars.length ≤ maxPercpuVarCnt →
      ((collectSymbolsLoop env elf force true syms st).1 ≠ 0 ↔
        maxPercpuVarCnt < st.percpuVars.length + (syms.filter (percpuQualifies elf.percpuShndx)).length ∨
          (force = false ∧ ∃ sym ∈ syms, percpuInvalidName elf.percpuShndx sym))
  | [], st, bounded => by simp [collectSymbolsLoop]; omega
  | sym :: rest, st, bounded => by
    have next := collectSymbolsStep_percpuVars env elf force st sym
    have first := collectSymbolsStep_fst env elf force st sym
    have recurse := collectSymbolsLoop_fails_iff reallocOk rest
      (collectSymbolsStep env elf force true st sym).2
    rw [collectPercpuVar_eq, collectFunction_ok reallocOk] at first
    rw [collectPercpuVar_eq] at next
    simp only [collectSymbolsLoop]
    by_cases qualifies : percpuQualifies elf.percpuShndx sym
    · have valid : percpuInvalidName elf.percpuShndx sym = false := by
        simp only [percpuQualifies, Bool.and_eq_true] at qualifies
        simp [percpuInvalidName, qualifies.2]
      by_cases full : st.percpuVars.length = maxPercpuVarCnt
      · simp only [qualifies, full, if_true] at first
        simp [first, List.filter_cons, qualifies]
        omega
      · simp only [qualifies, full, if_true, if_false] at first next
        rw [if_neg (by simp [first]), recurse (by simp [next]; omega), next,
          List.filter_cons_of_pos qualifies, List.length_cons, List.length_append,
          List.length_singleton, show ∀ a b : Nat, a + 1 + b = a + (b + 1) from fun a b => by omega]
        simp [valid]
    · by_cases invalid : percpuInvalidName elf.percpuShndx sym
      · cases force
        · simp only [qualifies, invalid, if_true, if_false] at first
          simp [first, invalid]
        · simp only [qualifies, invalid, if_true, if_false] at first next
          rw [if_neg (by simp [first]), recurse (by simp [next, bounded]), next]
          simp [List.filter_cons, qualifies]
      · simp only [qualifies, invalid, if_false] at first next
        rw [if_neg (by simp [first]), recurse (by simp [next, bounded]), next]
        simp [List.filter_cons, qualifies, invalid]

end PercpuPass

end Dwarves

namespace Dwarves

/-- On a table sorted by qsort, percpu_var_exists finds an address exactly when an entry
has it, and returns the size and name of such an entry. -/
theorem percpuVarExists_qsort (entries : List VarInfo) (addr : Nat) :
    ((percpuVarExists (qsort VarInfo.addr entries) addr).isSome ↔
        addr ∈ entries.map VarInfo.addr) ∧
      ∀ size name, percpuVarExists (qsort VarInfo.addr entries) addr = some (size, name) →
        ∃ entry ∈ entries, entry.addr = addr ∧ entry.sz = size ∧ entry.name = name := by
  have sorted := qsort_sorted VarInfo.addr entries
  have perm := qsort_perm VarInfo.addr entries
  constructor
  · rw [← (perm.map VarInfo.addr).mem_iff, ← bsearch_isSome_iff sorted]
    unfold percpuVarExists
    cases found : bsearch addr ((qsort VarInfo.addr entries).map VarInfo.addr) with
    | none => simp
    | some i =>
      have within := bsearch_found found
      simp only [List.getElem?_map, Option.map_eq_some'] at within
      obtain ⟨p, atI, _⟩ := within
      simp [atI]
  · intro size name returned
    unfold percpuVarExists at returned
    obtain ⟨i, found, returnedAt⟩ := Option.bind_eq_some.1 returned
    obtain ⟨p, atI, same⟩ := Option.map_eq_some'.1 returnedAt
    have key := bsearch_found found
    rw [List.getElem?_map, atI] at key
    simp only [Option.map_some', Option.some.injEq, Prod.mk.injEq] at key same
    exact ⟨p, perm.mem_iff.1 (List.mem_iff_getElem?.2 ⟨i, atI⟩), key, same.1, same.2⟩

theorem sortPercpuVars_true (percpuVars : List VarInfo) :
    sortPercpuVars true percpuVars = qsort VarInfo.addr percpuVars := by
  unfold sortPercpuVars
  split_ifs with nonempty
  · rfl
  · simp only [true_and, not_not] at nonempty
    rw [nonempty]
    rfl

/-- collect_symbols succeeds only after a successful pass, and leaves the pass's per-CPU
table sorted. -/
theorem collectSymbols_of_ok {env : Env} {elf : Elf} {force collectPercpuVars : Bool}
    {table table' : FunctionTable} {percpuVars : List VarInfo}
    (ok : collectSymbols env elf force collectPercpuVars table = (0, table', percpuVars)) :
    let pass := collectSymbolsLoop env elf force collectPercpuVars elf.symtab ⟨table, [], .empty⟩
    pass.1 = 0 ∧ percpuVars = sortPercpuVars collectPercpuVars pass.2.percpuVars := by
  simp only [collectSymbols] at ok
  split_ifs at ok <;> simp only [Prod.mk.injEq] at ok <;> simp_all

/-- After a successful collect_symbols, the per-CPU table is the sorted table of the
entries of the qualifying symbols. -/
theorem collectSymbols_percpuVars_of_ok {env : Env} {elf : Elf} {force : Bool}
    {table table' : FunctionTable} {percpuVars : List VarInfo}
    (ok : collectSymbols env elf force true table = (0, table', percpuVars)) :
    percpuVars = qsort VarInfo.addr
      ((elf.symtab.filter (percpuQualifies elf.percpuShndx)).map percpuEntry) := by
  obtain ⟨passOk, sorted⟩ := collectSymbols_of_ok ok
  rw [sorted, sortPercpuVars_true, collectSymbolsLoop_percpu_of_ok env elf force _ _ passOk]
  rfl

/-- The per-CPU variable index: with reallocations succeeding, the symbol pass fails
exactly when more than MAX_PERCPU_VAR_CNT symbols qualify or, unforced, a candidate has an
invalid name; the table never grows past MAX_PERCPU_VAR_CNT; and after a successful
collect_symbols an address is found exactly when a qualifying symbol has it, with that
symbol's size as a uint32_t and its name. -/
theorem collectSymbols_percpu_index (env : Env) (elf : Elf) (force : Bool) (table : FunctionTable) :
    let pass := collectSymbolsLoop env elf force true elf.symtab ⟨table, [], .empty⟩
    ((∀ capacity, env.reallocFails capacity = false) →
      (pass.1 ≠ 0 ↔ maxPercpuVarCnt < (elf.symtab.filter (percpuQualifies elf.percpuShndx)).length ∨
        (force = false ∧ ∃ sym ∈ elf.symtab, percpuInvalidName elf.percpuShndx sym))) ∧
    pass.2.percpuVars.length ≤ maxPercpuVarCnt ∧
    ∀ table' percpuVars, collectSymbols env elf force true table = (0, table', percpuVars) →
      ∀ addr, ((percpuVarExists percpuVars addr).isSome ↔
          ∃ sym ∈ elf.symtab, percpuQualifies elf.percpuShndx sym ∧ sym.value = addr) ∧
        ∀ size name, percpuVarExists percpuVars addr = some (size, name) →
          ∃ sym ∈ elf.symtab, percpuQualifies elf.percpuShndx sym ∧ sym.value = addr ∧
            size = sym.size % 2 ^ 32 ∧ name = sym.name := by
  refine ⟨fun reallocOk => ?_, collectSymbolsLoop_percpu_le env elf force _ _ (by simp),
    fun table' percpuVars ok addr => ?_⟩
  · simpa using collectSymbolsLoop_fails_iff env elf force reallocOk elf.symtab ⟨table, [], .empty⟩
      (by simp)
  · rw [collectSymbols_percpuVars_of_ok ok]
    obtain ⟨found, returned⟩ := percpuVarExists_qsort
      ((elf.symtab.filter (percpuQualifies elf.percpuShndx)).map percpuEntry) addr
    refine ⟨found.trans (by simp [percpuEntry, and_assoc]), fun size name hit => ?_⟩
    obtain ⟨entry, stored, atAddr, sameSize, sameName⟩ := returned size name hit
    obtain ⟨sym, ⟨present, qualifies⟩, rfl⟩ := by simpa using stored
    exact ⟨sym, present, qualifies, atAddr, sameSize.symm, sameName.symm⟩

/-- A per-CPU object of 4 GiB named "v" at 0x40. -/
def hugePercpuSym : Sym := ⟨.ofAscii "v", 64, 2 ^ 32, 1, sttObject⟩

/-- An ELF file whose per-CPU section 1 holds hugePercpuSym only. -/
def hugePercpuElf : Elf := ⟨[], [hugePercpuSym], 1, 0⟩

/-- The symbol has a nonzero size and a valid name, yet collect_symbols leaves the per-CPU
table empty: its size is 0 as a uint32_t. -/
theorem percpu_size_truncated :
    hugePercpuSym.shndx = hugePercpuElf.percpuShndx ∧ hugePercpuSym.type = sttObject ∧
      hugePercpuSym.value ≠ 0 ∧ hugePercpuSym.size ≠ 0 ∧ btfNameValid hugePercpuSym.name = true ∧
      collectSymbols Env.reliable hugePercpuElf false true deleteFunctions = (0, deleteFunctions, []) ∧
      percpuVarExists [] hugePercpuSym.value = none := by
  decide

/-! ## The pass in parts -/

/-- The symbol pass over two lists is the pass over the second after a successful pass over
the first. -/
theorem collectSymbolsLoop_append (env : Env) (elf : Elf) (force collectPercpuVars : Bool) :
    ∀ (first second : List Sym) (st : SymbolPass),
      (collectSymbolsLoop env elf force collectPercpuVars first st).1 = 0 →
      collectSymbolsLoop env elf force collectPercpuVars (first ++ second) st =
        collectSymbolsLoop env elf force collectPercpuVars second
          (collectSymbolsLoop env elf force collectPercpuVars first st).2
  | [], _, _, _ => rfl
  | sym :: rest, second, st, passed => by
    simp only [List.cons_append, collectSymbolsLoop] at passed ⊢
    split_ifs at passed ⊢
    · simp at passed
    · exact collectSymbolsLoop_append env elf force collectPercpuVars rest second _ passed

/-- The pass over symbols that are neither functions nor objects records their anchors and
nothing else. -/
theorem collectSymbolsLoop_untyped (env : Env) (elf : Elf) (force collectPercpuVars : Bool) :
    ∀ (syms : List Sym) (st : SymbolPass), (∀ sym ∈ syms, sym.type ≠ sttFunc ∧ sym.type ≠ sttObject) →
      collectSymbolsLoop env elf force collectPercpuVars syms st =
        (0, { st with layout := syms.foldl collectSymbol st.layout })
  | [], _, _ => rfl
  | sym :: rest, st, untyped => by
    obtain ⟨notFunc, notObject⟩ := untyped sym (List.mem_cons_self _ _)
    have notCandidate : percpuCandidate elf.percpuShndx sym = false := by
      simp [percpuCandidate, notObject]
    have percpuSkipped : collectPercpuVar elf.percpuShndx force st.percpuVars sym = (0, st.percpuVars) := by
      simp [collectPercpuVar_eq, percpuQualifies, percpuInvalidName, notCandidate]
    have functionSkipped : collectFunction env st.table sym = (0, st.table) := by
      simp [collectFunction, notFunc]
    have stepped : collectSymbolsStep env elf force collectPercpuVars st sym =
        (0, { st with layout := collectSymbol st.layout sym }) := by
      cases collectPercpuVars <;> simp only [collectSymbolsStep, percpuSkipped, functionSkipped] <;> rfl
    have later := collectSymbolsLoop_untyped env elf force collectPercpuVars rest
      { st with layout := collectSymbol st.layout sym }
      fun other member => untyped other (List.mem_cons_of_mem _ member)
    dsimp only at later
    simp only [collectSymbolsLoop, stepped, ne_eq, not_true_eq_false, if_false, List.foldl_cons, later]

/-! ## Invalid per-CPU names under force

A forced run skips a per-CPU symbol of invalid name with a warning. Such a symbol is an
object, so collect_function skips it too, and no anchor has an invalid name, so
collect_symbol skips it as well: the one pass over the symbol table, and so
collect_symbols, comes out as if the symbol were not there.
-/

/-- The names collect_symbol records anchors for. -/
def anchorNames : List CStr :=
  [startMcountLoc, stopMcountLoc, initBeginName, initEndName, initBpfBeginName, initBpfEndName]

/-- collect_symbol leaves the layout alone for a symbol of no anchor's name. -/
theorem collectSymbol_of_not_anchor (fl : FuncsLayout) {sym : Sym} (other : sym.name ∉ anchorNames) :
    collectSymbol fl sym = fl := by
  simp only [anchorNames, List.mem_cons, List.not_mem_nil, or_false, not_or] at other
  simp [collectSymbol, other]

/-- Every anchor name is a valid BTF name. -/
theorem anchorNames_valid : ∀ name ∈ anchorNames, btfNameValid name = true := by
  decide

/-- The symbol pass reads of the ELF file only the index of its per-CPU section. -/
theorem collectSymbolsLoop_congr_elf {elf elf' : Elf} (same : elf.percpuShndx = elf'.percpuShndx)
    (env : Env) (force collectPercpuVars : Bool) :
    ∀ (syms : List Sym) (st : SymbolPass),
      collectSymbolsLoop env elf force collectPercpuVars syms st =
        collectSymbolsLoop env elf' force collectPercpuVars syms st
  | [], _ => rfl
  | sym :: rest, st => by
    simp only [collectSymbolsLoop, collectSymbolsStep, same,
      collectSymbolsLoop_congr_elf same env force collectPercpuVars rest]

/-- Modelled from the spec: the symbol table without the symbols collect_percpu_var
reports for their name. -/
def dropInvalidPercpuNames (elf : Elf) : List Sym :=
  elf.symtab.filter fun sym => !percpuInvalidName elf.percpuShndx sym

section InvalidNames

variable (env : Env) (elf : Elf) (collectPercpuVars : Bool)

/-- Under force, a step on a symbol whose name collect_percpu_var reports succeeds and
changes nothing, per-CPU variables collected or not. -/
theorem collectSymbolsStep_invalid (st : SymbolPass) {sym : Sym}
    (invalid : percpuInvalidName elf.percpuShndx sym = true) :
    collectSymbolsStep env elf true collectPercpuVars st sym = (0, st) := by
  obtain ⟨candidate, nameInvalid⟩ :
      percpuCandidate elf.percpuShndx sym = true ∧ btfNameValid sym.name = false := by
    simpa [percpuInvalidName] using invalid
  have object : sym.type = sttObject := by
    simp only [percpuCandidate, Bool.and_eq_true, decide_eq_true_eq] at candidate
    exact candidate.1.1.2
  have notQualified : percpuQualifies elf.percpuShndx sym = false := by
    simp [percpuQualifies, nameInvalid]
  have skipped : (if collectPercpuVars then collectPercpuVar elf.percpuShndx true st.percpuVars sym
      else (0, st.percpuVars)) = (0, st.percpuVars) := by
    cases collectPercpuVars
    · rfl
    · simp only [if_true, collectPercpuVar_eq, notQualified, invalid]
      rfl
  have notFunction : collectFunction env st.table sym = (0, st.table) := by
    simp [collectFunction, object, sttObject, sttFunc]
  have notAnchor : sym.name ∉ anchorNames := fun anchor => by
    simp [anchorNames_valid _ anchor] at nameInvalid
  simp only [collectSymbolsStep, skipped, notFunction, collectSymbol_of_not_anchor _ notAnchor]
  rfl

/-- Unforced, collect_percpu_var fails on a per-CPU object of invalid name. -/
theorem collectPercpuVar_unforced_invalid (percpuVars : List VarInfo) {sym : Sym}
    (invalid : percpuInvalidName elf.percpuShndx sym = true) :
    (collectPercpuVar elf.percpuShndx false percpuVars sym).1 = -1 := by
  have notQualified : percpuQualifies elf.percpuShndx sym = false := by
    simp only [percpuInvalidName, Bool.and_eq_true, Bool.not_eq_true'] at invalid
    simp [percpuQualifies, invalid.2]
  simp [collectPercpuVar_eq, notQualified, invalid]

/-- Unforced, the pass with per-CPU collection fails on every symbol table holding a
per-CPU object of invalid name, whatever else fails on the way to it. -/
theorem collectSymbolsLoop_unforced_invalid :
    ∀ (syms : List Sym) (st : SymbolPass), (∃ sym ∈ syms, percpuInvalidName elf.percpuShndx sym) →
      (collectSymbolsLoop env elf false true syms st).1 = -1
  | [], _, ⟨_, member, _⟩ => (List.not_mem_nil _ member).elim
  | sym :: rest, st, ⟨bad, member, invalid⟩ => by
    simp only [collectSymbolsLoop]
    split_ifs with failed
    · rfl
    · rcases List.mem_cons.1 member with rfl | later
      · rw [collectSymbolsStep_fst, collectPercpuVar_unforced_invalid elf _ invalid] at failed
        simp at failed
      · exact collectSymbolsLoop_unforced_invalid rest _ ⟨bad, later, invalid⟩

/-- Unforced, collect_symbols with per-CPU collection fails on such a symbol table. -/
theorem collectSymbols_unforced_invalid (table : FunctionTable)
    (invalid : ∃ sym ∈ elf.symtab, percpuInvalidName elf.percpuShndx sym) :
    (collectSymbols env elf false true table).1 = -1 := by
  simp only [collectSymbols, collectSymbolsLoop_unforced_invalid env elf _ _ invalid]
  rfl

/-- Under force, the pass over a symbol table is the pass over its symbols of valid
per-CPU name. -/
theorem collectSymbolsLoop_filter_invalid :
    ∀ (syms : List Sym) (st : SymbolPass),
      collectSymbolsLoop env elf true collectPercpuVars syms st =
        collectSymbolsLoop env elf true collectPercpuVars
          (syms.filter fun sym => !percpuInvalidName elf.percpuShndx sym) st
  | [], _ => rfl
  | sym :: rest, st => by
    by_cases invalid : percpuInvalidName elf.percpuShndx sym = true
    · rw [List.filter_cons_of_neg (by simpa using invalid)]
      simp only [collectSymbolsLoop, collectSymbolsStep_invalid env elf collectPercpuVars st invalid,
        ne_eq, not_true_eq_false, if_false]
      exact collectSymbolsLoop_filter_invalid rest st
    · rw [List.filter_cons_of_pos (by simpa using invalid)]
      simp only [collectSymbolsLoop]
      split_ifs
      · rfl
      · exact collectSymbolsLoop_filter_invalid rest _

/-- Under force, the symbol pass on the symbol table and on it without the symbols
collect_percpu_var reports for their name end alike (result, function table, per-CPU
table and funcs layout), and so does collect_symbols. -/
theorem collectSymbols_dropInvalidPercpuNames (table : FunctionTable) :
    let kept : Elf := { elf with symtab := dropInvalidPercpuNames elf }
    collectSymbolsLoop env elf true collectPercpuVars elf.symtab ⟨table, [], .empty⟩ =
        collectSymbolsLoop env kept true collectPercpuVars kept.symtab ⟨table, [], .empty⟩ ∧
      collectSymbols env elf true collectPercpuVars table =
        collectSymbols env kept true collectPercpuVars table := by
  intro kept
  have pass : collectSymbolsLoop env elf true collectPercpuVars elf.symtab ⟨table, [], .empty⟩ =
      collectSymbolsLoop env kept true collectPercpuVars kept.symtab ⟨table, [], .empty⟩ := by
    rw [collectSymbolsLoop_filter_invalid]
    exact @collectSymbolsLoop_congr_elf elf kept rfl env true collectPercpuVars _ _
  refine ⟨pass, ?_⟩
  unfold collectSymbols
  rw [pass]
  rfl

end InvalidNames

end Dwarves
