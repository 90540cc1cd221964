import Dwarves.BtfEncoder.Emission
import Mathlib.Order.Iterate

/-
The growth of the function table in collect_function. When the table is full,
functions_alloc becomes max(1000, functions_alloc * 3 / 2), computed in int. The
capacities reached from an empty table are 1000, 1500, 2250, ...; the 35th growth
reaches 970543810, whose product by 3 does not fit in an int, and the next growth
gives 1000 back while the table holds 970543811 entries. A vmlinux with that many traced
function symbols keeps them all through filter_functions, so the state cu__encode_btf
leaves holds more functions than its capacity.
-/

namespace Dwarves

/-- The count and capacity of the function table after n more STT_FUNC symbols with a
nonzero value, when no reallocation fails. -/
def growRun : Nat → Nat × Int → Nat × Int
  | 0, state => state
  | n + 1, (count, capacity) =>
    growRun n (count + 1, if (count : Int) = capacity then growFunctionsAlloc capacity else capacity)

/-- The capacity after j growths from an empty table. -/
def allocAfter : Nat → Int
  | 0 => 0
  | j + 1 => growFunctionsAlloc (allocAfter j)

theorem growRun_add (m n : Nat) (state : Nat × Int) :
    growRun (m + n) state = growRun n (growRun m state) := by
  induction m generalizing state with
  | zero => rw [Nat.zero_add]; rfl
  | succ m ih =>
    obtain ⟨count, capacity⟩ := state
    rw [Nat.add_right_comm]
    exact ih _

/-- Below the capacity the table only fills. -/
theorem growRun_below :
    ∀ (k count : Nat) (capacity : Int), (count + k : Int) ≤ capacity →
      growRun k (count, capacity) = (count + k, capacity)
  | 0, _, _, _ => rfl
  | k + 1, count, capacity, room => by
    rw [growRun, if_neg (by omega), growRun_below k (count + 1) capacity (by omega)]
    congr 1
    omega

/-- From a full table whose capacity grows, the table fills up to the new capacity. -/
theorem growRun_fill {capacity : Int} (nonneg : 0 ≤ capacity)
    (grows : capacity < growFunctionsAlloc capacity) :
    growRun (growFunctionsAlloc capacity - capacity).toNat (capacity.toNat, capacity) =
      ((growFunctionsAlloc capacity).toNat, growFunctionsAlloc capacity) := by
  obtain ⟨k, hk⟩ : ∃ k, (growFunctionsAlloc capacity - capacity).toNat = k + 1 :=
    ⟨(growFunctionsAlloc capacity - capacity).toNat - 1, by omega⟩
  rw [hk, growRun, if_pos (by omega), growRun_below k _ _ (by omega)]
  congr 1
  omega

/-- While every growth increases the capacity, the table is full after each one. -/
theorem growRun_allocAfter :
    ∀ j : Nat, (∀ i < j, allocAfter i < allocAfter (i + 1)) →
      0 ≤ allocAfter j ∧ growRun (allocAfter j).toNat (0, 0) = ((allocAfter j).toNat, allocAfter j)
  | 0, _ => ⟨le_rfl, rfl⟩
  | j + 1, increasing => by
    obtain ⟨nonneg, full⟩ := growRun_allocAfter j fun i below => increasing i (by omega)
    have grows := increasing j (by omega)
    simp only [allocAfter] at grows ⊢
    refine ⟨by omega, ?_⟩
    rw [show (growFunctionsAlloc (allocAfter j)).toNat =
        (allocAfter j).toNat + (growFunctionsAlloc (allocAfter j) - allocAfter j).toNat by omega,
      growRun_add, full, growRun_fill nonneg grows]
    congr 1
    omega

/-- The growth in unbounded arithmetic: max(1000, functions_alloc * 3 / 2). -/
def natGrow (functionsAlloc : Nat) : Nat := max 1000 (functionsAlloc * 3 / 2)

theorem lt_natGrow (functionsAlloc : Nat) : functionsAlloc < natGrow functionsAlloc := by
  unfold natGrow
  omega

/-- While functions_alloc * 3 fits in an int, the growth is natGrow. -/
theorem growFunctionsAlloc_of_small {functionsAlloc : Nat} (small : functionsAlloc * 3 < 2 ^ 31) :
    growFunctionsAlloc functionsAlloc = natGrow functionsAlloc := by
  unfold growFunctionsAlloc natGrow wrapInt
  rw [Int.emod_eq_of_lt (by omega) (by omega), Int.tdiv_eq_ediv (by omega) (by omega)]
  dsimp only
  split_ifs <;> omega

theorem natGrow_iterate_thirtyFour : natGrow^[34] 0 = 647029207 := by
  have half : natGrow^[17] 0 = 656709 := by decide
  rw [show 34 = 17 + 17 from rfl, Function.iterate_add_apply, half]
  decide

/-- The first 35 capacities from an empty table are those of natGrow: until then
functions_alloc * 3 fits in an int. -/
theorem allocAfter_eq_natGrow : ∀ j ≤ 35, allocAfter j = (natGrow^[j] 0 : Nat)
  | 0, _ => rfl
  | j + 1, le => by
    have below : natGrow^[j] 0 ≤ natGrow^[34] 0 :=
      Function.monotone_iterate_of_id_le (fun x => (lt_natGrow x).le) (by omega : j ≤ 34) 0
    rw [natGrow_iterate_thirtyFour] at below
    rw [allocAfter, allocAfter_eq_natGrow j (by omega), growFunctionsAlloc_of_small (by omega),
      Function.iterate_succ_apply']

/-- The 35th growth from an empty table reaches 970543810. -/
theorem allocAfter_thirtyFive : allocAfter 35 = 970543810 := by
  rw [allocAfter_eq_natGrow 35 le_rfl, Function.iterate_succ_apply', natGrow_iterate_thirtyFour]
  rfl

/-- From an empty table, 970543810 functions fill the table exactly, after 35 growths. -/
theorem growRun_full : growRun 970543810 (0, 0) = (970543810, 970543810) := by
  have increasing : ∀ i < 35, allocAfter i < allocAfter (i + 1) := fun i below => by
    rw [allocAfter_eq_natGrow i (by omega), allocAfter_eq_natGrow (i + 1) below,
      Function.iterate_succ_apply']
    exact_mod_cast lt_natGrow _
  have full := (growRun_allocAfter 35 increasing).2
  rw [allocAfter_thirtyFive] at full
  exact full

/-- From an empty table, 970543811 functions leave a capacity of 1000: the 35th growth reaches
970543810, and the 36th wraps around. -/
theorem growRun_wraps : growRun 970543811 (0, 0) = (970543811, 1000) := by
  rw [show (970543811 : Nat) = 970543810 + 1 from rfl, growRun_add, growRun_full]
  decide

/-! ## The symbol pass on function symbols -/

/-- The entry collect_function stores for a symbol. -/
def functionEntry (sym : Sym) : ElfFunction := ⟨sym.name, sym.value, false⟩

/-- collect_function on an STT_FUNC symbol with a nonzero value appends its entry, growing
the capacity when the table is full. -/
theorem collectFunction_func {env : Env} (reallocOk : ∀ capacity, env.reallocFails capacity = false)
    (t : FunctionTable) {sym : Sym} (isFunc : sym.type = sttFunc) (nonzero : sym.value ≠ 0) :
    (collectFunction env t sym).1 = 0 ∧
      (collectFunction env t sym).2.entries = t.entries ++ [functionEntry sym] ∧
      ((collectFunction env t sym).2.functionsCnt, (collectFunction env t sym).2.functionsAlloc) =
        growRun 1 (t.functionsCnt, t.functionsAlloc) := by
  simp only [collectFunction, isFunc, nonzero, ne_eq, not_true_eq_false, not_false_eq_true,
    if_false, reallocOk, Bool.false_eq_true]
  split_ifs <;>
    simp_all [growRun, FunctionTable.functionsCnt, FunctionTable.entries, functionEntry]

/-- The symbol pass over n copies of an STT_FUNC symbol with a nonzero value, which is no
anchor and no per-CPU object, succeeds, appends n entries and grows the table as growRun
says. -/
theorem collectSymbolsLoop_funcs {env : Env} (reallocOk : ∀ capacity, env.reallocFails capacity = false)
    (elf : Elf) (force : Bool) {sym : Sym} (isFunc : sym.type = sttFunc) (nonzero : sym.value ≠ 0)
    (noAnchor : ∀ fl, collectSymbol fl sym = fl) :
    ∀ (n : Nat) (st : SymbolPass),
      let pass := collectSymbolsLoop env elf force true (List.replicate n sym) st
      pass.1 = 0 ∧ pass.2.table.entries = st.table.entries ++ List.replicate n (functionEntry sym) ∧
        (pass.2.table.functionsCnt, pass.2.table.functionsAlloc) =
          growRun n (st.table.functionsCnt, st.table.functionsAlloc) ∧
        pass.2.percpuVars = st.percpuVars ∧ pass.2.layout = st.layout
  | 0, _ => ⟨rfl, (List.append_nil _).symm, rfl, rfl, rfl⟩
  | n + 1, st => by
    obtain ⟨added, appended, grown⟩ := collectFunction_func reallocOk st.table isFunc nonzero
    have notPercpu : collectPercpuVar elf.percpuShndx force st.percpuVars sym = (0, st.percpuVars) := by
      unfold collectPercpuVar
      split_ifs <;> simp_all [sttFunc, sttObject]
    have stepped : collectSymbolsStep env elf force true st sym =
        (0, ⟨(collectFunction env st.table sym).2, st.percpuVars, st.layout⟩) := by
      simp [collectSymbolsStep, notPercpu, added, noAnchor]
    obtain ⟨passed, entries, counts, percpu, layout⟩ :=
      collectSymbolsLoop_funcs reallocOk elf force isFunc nonzero noAnchor n
        ⟨(collectFunction env st.table sym).2, st.percpuVars, st.layout⟩
    rw [List.replicate_succ, collectSymbolsLoop, stepped]
    simp only [ne_eq, not_true_eq_false, if_false]
    refine ⟨passed, ?_, ?_, percpu, layout⟩
    · rw [entries, appended, List.append_assoc, List.singleton_append, ← List.replicate_succ]
    · rw [show n + 1 = 1 + n by omega, growRun_add, ← grown]
      exact counts

/-! ## A vmlinux with many copies of a traced function -/

/-- An STT_FUNC symbol "f" at 0x1000, the address the mcount table holds. -/
def funcSym : Sym := ⟨fName, 4096, 0, 1, sttFunc⟩

/-- "f" is no anchor name. -/
theorem funcSym_noAnchor (fl : FuncsLayout) : collectSymbol fl funcSym = fl := by
  have start : funcSym.name ≠ startMcountLoc := by decide
  have stop : funcSym.name ≠ stopMcountLoc := by decide
  have initBegin : funcSym.name ≠ initBeginName := by decide
  have initEnd : funcSym.name ≠ initEndName := by decide
  have bpfBegin : funcSym.name ≠ initBpfBeginName := by decide
  have bpfEnd : funcSym.name ≠ initBpfEndName := by decide
  simp [collectSymbol, start, stop, initBegin, initEnd, bpfBegin, bpfEnd]

/-- A vmlinux with all six anchors and n copies of the traced function symbol. -/
def copiesElf (n : Nat) : Elf := ⟨[mcountSection], layoutAnchors ++ List.replicate n funcSym, 0, 0⟩

/-- A CU of that vmlinux without types, functions or variables. -/
def copiesCu (n : Nat) : Cu := ⟨.ofAscii "vmlinux", copiesElf n, [], [], []⟩

/-- collect_symbols on a vmlinux with n > 0 copies of the traced function keeps all n
entries, with the capacity growRun gives. -/
theorem collectSymbols_copies (n : Nat) (pos : 0 < n) :
    collectSymbols Env.reliable (copiesElf n) false true deleteFunctions =
      (0, ⟨some (List.replicate n (functionEntry funcSym)), (growRun n (0, 0)).2⟩, []) := by
  set anchorsPass := collectSymbolsLoop Env.reliable (copiesElf n) false true layoutAnchors
    ⟨deleteFunctions, [], .empty⟩ with anchorsEq
  have anchors : anchorsPass.1 = 0 ∧ anchorsPass.2.table = deleteFunctions ∧
      anchorsPass.2.percpuVars = [] ∧ anchorsPass.2.layout = oneMcountLayout := by
    rw [anchorsEq, collectSymbolsLoop_layoutAnchors]
    exact ⟨rfl, rfl, rfl, rfl⟩
  obtain ⟨passed, entries, counts, percpu, layout⟩ := @collectSymbolsLoop_funcs Env.reliable
    (fun _ => rfl) (copiesElf n) false funcSym rfl (by decide) funcSym_noAnchor n anchorsPass.2
  rw [anchors.2.1, anchors.2.2.1, anchors.2.2.2] at *
  have pass : collectSymbolsLoop Env.reliable (copiesElf n) false true (copiesElf n).symtab
      ⟨deleteFunctions, [], .empty⟩ =
        collectSymbolsLoop Env.reliable (copiesElf n) false true (List.replicate n funcSym)
          anchorsPass.2 := by
    rw [show (copiesElf n).symtab = layoutAnchors ++ List.replicate n funcSym from rfl,
      collectSymbolsLoop_append _ _ _ _ _ _ _ anchors.1]
  simp only [collectSymbols]
  rw [pass]
  generalize collectSymbolsLoop Env.reliable (copiesElf n) false true (List.replicate n funcSym)
    anchorsPass.2 = result at passed entries counts percpu layout ⊢
  obtain ⟨result, table, percpuVars, fl⟩ := result
  dsimp only at passed entries counts percpu layout ⊢
  subst passed percpu layout
  have functions : table.functions = some (List.replicate n (functionEntry funcSym)) := by
    rcases table with ⟨_ | stored, capacity⟩
    · simp [FunctionTable.entries, deleteFunctions] at entries
      omega
    · simpa [FunctionTable.entries, deleteFunctions] using entries
  have capacity : table.functionsAlloc = (growRun n (0, 0)).2 := congrArg Prod.snd counts
  have nonempty : table.functionsCnt ≠ 0 := by
    simp [FunctionTable.functionsCnt, FunctionTable.entries, functions]
    omega
  have sorted : qsort ElfFunction.name (List.replicate n (functionEntry funcSym)) =
      List.replicate n (functionEntry funcSym) :=
    List.perm_replicate.1 (qsort_perm _ _)
  have kept : keptByFilter oneMcountLayout (qsort id (readMcountAddrs [0, 16, 0, 0, 0, 0, 0, 0]
      (mcountOffset oneMcountLayout ⟨256⟩) (mcountCount oneMcountLayout))) (functionEntry funcSym) =
        true := by
    decide
  rw [filterFunctions_eq
    (show (copiesElf n).getscn oneMcountLayout.mcountSecIdx = some mcountSection from rfl) rfl rfl]
  simp [nonempty, functions, sorted, kept, capacity, sortPercpuVars, Env.reliable,
    show hasAllSymbols oneMcountLayout = true from rfl]

/-- The first call on the CU of that vmlinux succeeds and leaves that table. -/
theorem cuEncodeBtf_copies (n : Nat) (pos : 0 < n) :
    (cuEncodeBtf Env.reliable (Encoder.init 0) (copiesCu n) false false).1 = 0 ∧
    (cuEncodeBtf Env.reliable (Encoder.init 0) (copiesCu n) false false).2.1.table =
      ⟨some (List.replicate n (functionEntry funcSym)), (growRun n (0, 0)).2⟩ := by
  have fresh : Env.reliable.newFails = false := rfl
  have collected := collectSymbols_copies n pos
  simp only [cuEncodeBtf, sessionSwitch, Encoder.init, sessionStart, btfElfNew, fresh, copiesCu,
    Bool.false_eq_true, if_false, Option.map_some', Bool.not_false, collected, ne_eq, not_true_eq_false]
  simp [encodeCu, prepareIndexType, Cu.findBaseTypeByName, Cu.nrEntries, typePass, addIndexType,
    functionPass, copiesElf]

/-- The function table outgrows its capacity at a reachable state: on a vmlinux with
970543811 traced copies of a function symbol, cu__encode_btf returns 0 and leaves
functions_cnt = 970543811 with functions_alloc = 1000. -/
theorem functions_table_overflows :
    (cuEncodeBtf Env.reliable (Encoder.init 0) (copiesCu 970543811) false false).1 = 0 ∧
    Reachable 0 (cuEncodeBtf Env.reliable (Encoder.init 0) (copiesCu 970543811) false false).2.1 ∧
    (cuEncodeBtf Env.reliable (Encoder.init 0) (copiesCu 970543811) false false).2.1.table.functionsCnt =
      970543811 ∧
    (cuEncodeBtf Env.reliable (Encoder.init 0) (copiesCu 970543811) false false).2.1.table.functionsAlloc =
      1000 := by
  obtain ⟨ok, table⟩ := cuEncodeBtf_copies 970543811 (by omega)
  rw [growRun_wraps] at table
  refine ⟨ok, Reachable.init.after_cuEncodeBtf _ _ _ _, ?_, congrArg FunctionTable.functionsAlloc table⟩
  simp only [table, FunctionTable.functionsCnt, FunctionTable.entries, Option.getD_some,
    List.length_replicate]


/-- The growth of the table can fall below functions_cnt. For any ELF file and any STT_FUNC
symbol with a nonzero value that is no anchor, with every reallocation succeeding, the
symbol pass over 970543810 copies from an empty table leaves it full at a count that fits
in an int, and collect_function on one more copy grows its capacity to 1000 while storing
entry 970543811. -/
theorem growth_falls_below_count {env : Env} (reallocOk : ∀ capacity, env.reallocFails capacity = false)
    (elf : Elf) (force : Bool) {sym : Sym} (isFunc : sym.type = sttFunc) (nonzero : sym.value ≠ 0)
    (noAnchor : ∀ fl, collectSymbol fl sym = fl) (percpuVars : List VarInfo) (layout : FuncsLayout) :
    let pass := collectSymbolsLoop env elf force true (List.replicate 970543810 sym)
      ⟨deleteFunctions, percpuVars, layout⟩
    pass.1 = 0 ∧ pass.2.table.functionsCnt = 970543810 ∧ pass.2.table.functionsAlloc = 970543810 ∧
      (970543810 : Int) < 2 ^ 31 - 1 ∧ (collectFunction env pass.2.table sym).1 = 0 ∧
      (collectFunction env pass.2.table sym).2.functionsAlloc = 1000 ∧
      (collectFunction env pass.2.table sym).2.functionsCnt = 970543811 := by
  obtain ⟨passed, -, counts, -, -⟩ := collectSymbolsLoop_funcs reallocOk elf force isFunc nonzero
    noAnchor 970543810 ⟨deleteFunctions, percpuVars, layout⟩
  generalize collectSymbolsLoop env elf force true (List.replicate 970543810 sym)
    ⟨deleteFunctions, percpuVars, layout⟩ = pass at passed counts ⊢
  dsimp only at counts ⊢
  rw [show (deleteFunctions.functionsCnt, deleteFunctions.functionsAlloc) = ((0 : Nat), (0 : Int))
    from rfl, growRun_full] at counts
  obtain ⟨added, -, grown⟩ := collectFunction_func reallocOk pass.2.table isFunc nonzero
  rw [counts, show growRun 1 (970543810, 970543810) = (970543811, 1000) by decide] at grown
  exact ⟨passed, congrArg Prod.fst counts, congrArg Prod.snd counts, by decide, added,
    congrArg Prod.snd grown, congrArg Prod.fst grown⟩

/-- The symbol pass over the copies of the traced function "f" of the vmlinux above. -/
theorem growth_falls_below_count_on_copies :
    (∀ capacity, Env.reliable.reallocFails capacity = false) ∧ funcSym.type = sttFunc ∧
    funcSym.value ≠ 0 ∧ (∀ fl, collectSymbol fl funcSym = fl) ∧
    let pass := collectSymbolsLoop Env.reliable (copiesElf 970543811) false true
      (List.replicate 970543810 funcSym) ⟨deleteFunctions, [], .empty⟩
    pass.1 = 0 ∧ pass.2.table.functionsCnt = 970543810 ∧ pass.2.table.functionsAlloc = 970543810 ∧
      (970543810 : Int) < 2 ^ 31 - 1 ∧ (collectFunction Env.reliable pass.2.table funcSym).1 = 0 ∧
      (collectFunction Env.reliable pass.2.table funcSym).2.functionsAlloc = 1000 ∧
      (collectFunction Env.reliable pass.2.table funcSym).2.functionsCnt = 970543811 :=
  ⟨fun _ => rfl, rfl, by decide, funcSym_noAnchor,
    growth_falls_below_count (fun _ => rfl) (copiesElf 970543811) false rfl (by decide)
      funcSym_noAnchor [] .empty⟩

end Dwarves
