import Dwarves.BtfEncoder.Lifecycle

/-
Sessions of the encoder: the calls of cu__encode_btf on the CUs of one file,
between the call that creates the writer and the one that flushes it. Which
DWARF functions a session emits as BTF FUNCs: in kernel mode, those with named
arguments whose name collect_symbols retained, each name once; otherwise the
defined external ones.
-/

namespace Dwarves

/-- Modelled from the spec: the FUNC names emitted in kernel mode after the names emitted
so far: a function every parameter of which has a name, whose name is retained and not yet
emitted. -/
def kernelSelect (retained : List CStr) : List CStr → List Function → List CStr
  | emitted, [] => emitted
  | emitted, fn :: rest =>
    kernelSelect retained
      (if (∀ param ∈ fn.proto.params, param.name.isSome) ∧ fn.name ∈ retained ∧
          fn.name ∉ emitted then emitted ++ [fn.name]
        else emitted) rest

/-- Modelled from the spec: the FUNC names emitted without a function table: the defined
external functions. -/
def fallbackSelect (fns : List Function) : List CStr :=
  (fns.filter fun fn => !fn.declaration && fn.external).map Function.name

theorem kernelSelect_append (retained emitted : List CStr) (first second : List Function) :
    kernelSelect retained emitted (first ++ second) =
      kernelSelect retained (kernelSelect retained emitted first) second := by
  induction first generalizing emitted with
  | nil => rfl
  | cons fn rest ih => exact ih _

/-- Kernel mode never emits a name twice. -/
theorem kernelSelect_nodup (retained : List CStr) :
    ∀ {emitted : List CStr} (fns : List Function), emitted.Nodup →
      (kernelSelect retained emitted fns).Nodup
  | _, [], nodup => nodup
  | emitted, fn :: rest, nodup => by
    apply kernelSelect_nodup retained rest
    split_ifs with fresh
    · exact nodup.append (List.nodup_singleton _) (by simpa using fresh.2.2)
    · exact nodup

/-- Kernel mode emits only retained names. -/
theorem kernelSelect_retained (retained : List CStr) :
    ∀ {emitted : List CStr} (fns : List Function), (∀ name ∈ emitted, name ∈ retained) →
      ∀ name ∈ kernelSelect retained emitted fns, name ∈ retained
  | _, [], inRetained => inRetained
  | emitted, fn :: rest, inRetained => by
    apply kernelSelect_retained retained rest
    split_ifs with fresh
    · simpa [or_imp, forall_and, fresh.2.1] using inRetained
    · exact inRetained

/-! ## The function table during a session -/

/-- The function table of a session that has emitted the given FUNC names: sorted by name,
and the entry bsearch finds for a name is generated exactly when the name was emitted. -/
structure GeneratedAgree (t : FunctionTable) (emitted : List CStr) : Prop where
  sorted : t.names.Sorted (· ≤ ·)
  generated : ∀ name i func, bsearch name t.names = some i → t.entries[i]? = some func →
    func.generated = decide (name ∈ emitted)

theorem GeneratedAgree.of_noneGenerated {t : FunctionTable} (sorted : t.names.Sorted (· ≤ ·))
    (none : t.NoneGenerated) : GeneratedAgree t [] :=
  ⟨sorted, fun _ i func _ entry => by simpa using none func (List.mem_iff_getElem?.2 ⟨i, entry⟩)⟩

/-- should_generate_function lets a name through exactly when it is in the table and was not
emitted yet, and keeps the table's names and its agreement with the names emitted. -/
theorem shouldGenerateFunction_agree {t : FunctionTable} {emitted : List CStr} {name : CStr}
    (agree : GeneratedAgree t emitted) :
    (shouldGenerateFunction t name).1 = decide (name ∈ t.names ∧ name ∉ emitted) ∧
      (shouldGenerateFunction t name).2.names = t.names ∧
      GeneratedAgree (shouldGenerateFunction t name).2
        (if (shouldGenerateFunction t name).1 then emitted ++ [name] else emitted) := by
  unfold shouldGenerateFunction
  cases found : bsearch name t.names with
  | none =>
    have absent : name ∉ t.names := by
      rw [← bsearch_isSome_iff agree.sorted, found]; simp
    simp [absent, agree]
  | some i =>
    have atI := bsearch_found found
    have present : name ∈ t.names := List.mem_iff_getElem?.2 ⟨i, atI⟩
    obtain ⟨func, entry, named⟩ : ∃ func, t.entries[i]? = some func ∧ func.name = name := by
      simpa [FunctionTable.names] using atI
    have wasGenerated := agree.generated name i func found entry
    simp only [entry]
    by_cases generated : func.generated
    · have : name ∈ emitted := by simpa [generated] using wasGenerated
      simp [generated, this, agree]
    have fresh : name ∉ emitted := by simpa [generated] using wasGenerated
    set updated : FunctionTable :=
      ⟨some (t.entries.set i { func with generated := true }), t.functionsAlloc⟩
    have updatedEntries : updated.entries = t.entries.set i { func with generated := true } := rfl
    have updatedNames : updated.names = t.names := by
      rw [FunctionTable.names, updatedEntries, List.map_set, named]; exact set_of_getElem? atI
    simp only [generated, Bool.false_eq_true, ↓reduceIte, present, fresh, not_false_eq_true,
      and_self, decide_True, true_and]
    refine ⟨updatedNames, ⟨updatedNames ▸ agree.sorted, ?_⟩⟩
    intro other j q foundOther entryOther
    rw [updatedNames] at foundOther
    rw [updatedEntries] at entryOther
    by_cases same : j = i
    · subst same
      have : other = name := by
        have := bsearch_found foundOther; rw [atI] at this; exact (Option.some.inj this).symm
      subst this
      rw [List.getElem?_set_self (by simpa using (List.getElem?_eq_some_iff.1 entry).1)] at entryOther
      cases entryOther
      simp
    · rw [List.getElem?_set_ne (Ne.symm same)] at entryOther
      have differ : other ≠ name := by
        rintro rfl; exact same (Option.some.inj (foundOther.symm.trans found))
      simpa [differ] using agree.generated other j q foundOther entryOther

theorem FunctionTable.functionsCnt_eq (t : FunctionTable) : t.functionsCnt = t.names.length := by
  simp [FunctionTable.functionsCnt, FunctionTable.names]

/-- has_arg_names finds a name for every parameter. -/
theorem hasArgNames_iff (ftype : Ftype) :
    hasArgNames ftype = true ↔ ∀ param ∈ ftype.params, param.name.isSome := by
  simp [hasArgNames]

/-- In kernel mode the test of the function pass selects a function every parameter of which
has a name, whose name is in the table and not yet emitted. -/
theorem selectFunction_kernel {t : FunctionTable} {emitted : List CStr} (fn : Function)
    (kernel : t.functionsCnt ≠ 0) (agree : GeneratedAgree t emitted) :
    (selectFunction t fn).1 =
        decide ((∀ param ∈ fn.proto.params, param.name.isSome) ∧ fn.name ∈ t.names ∧
          fn.name ∉ emitted) ∧
      (selectFunction t fn).2.names = t.names ∧
      GeneratedAgree (selectFunction t fn).2
        (if (selectFunction t fn).1 then emitted ++ [fn.name] else emitted) := by
  unfold selectFunction
  rw [if_pos kernel]
  cases named : hasArgNames fn.proto
  · have unnamed : ¬∀ param ∈ fn.proto.params, param.name.isSome := by
      rw [← hasArgNames_iff, named]
      exact Bool.false_ne_true
    simp [unnamed, agree]
  · simp only [and_iff_right ((hasArgNames_iff _).1 named)]
    simpa using shouldGenerateFunction_agree agree

/-- In kernel mode the function pass selects what kernelSelect emits, and keeps the table's
names and its agreement with the names emitted. -/
theorem selectFunctions_kernel :
    ∀ (fns : List Function) {t : FunctionTable} {emitted : List CStr},
      t.functionsCnt ≠ 0 → GeneratedAgree t emitted →
      emitted ++ (selectFunctions fns t).1 = kernelSelect t.names emitted fns ∧
        (selectFunctions fns t).2.names = t.names ∧
        GeneratedAgree (selectFunctions fns t).2 (emitted ++ (selectFunctions fns t).1)
  | [], t, emitted, _, agree => by simp [selectFunctions, kernelSelect, agree]
  | fn :: rest, t, emitted, kernel, agree => by
    obtain ⟨selected, names, agree'⟩ := selectFunction_kernel fn kernel agree
    have kernel' : (selectFunction t fn).2.functionsCnt ≠ 0 := by
      rwa [FunctionTable.functionsCnt_eq, names, ← FunctionTable.functionsCnt_eq]
    obtain ⟨emittedLater, namesLater, agreeLater⟩ := selectFunctions_kernel rest kernel' agree'
    rw [names] at emittedLater
    simp only [selectFunctions, kernelSelect, namesLater, names, ← emittedLater]
    refine ⟨?_, trivial, ?_⟩
    · rw [selected]
      split_ifs <;> simp_all
    · convert agreeLater using 1
      split_ifs <;> simp

/-- Without a function table the function pass selects the defined external functions. -/
theorem selectFunctions_fallback {t : FunctionTable} (fallback : t.functionsCnt = 0) :
    ∀ fns : List Function, selectFunctions fns t = (fallbackSelect fns, t)
  | [] => rfl
  | fn :: rest => by
    simp only [selectFunctions, selectFunction, fallback, ne_eq, not_true_eq_false, if_false,
      selectFunctions_fallback fallback rest, fallbackSelect]
    cases declared : fn.declaration <;> cases external : fn.external <;>
      simp [List.filter_cons, declared, external]

/-! ## Sessions -/

/-- Modelled from the spec: the FUNC names a session emits after the names emitted so far:
in kernel mode when collect_symbols left a function table, else the fallback. -/
def sessionSelect (retained : FunctionTable) (emitted : List CStr) (fns : List Function) :
    List CStr :=
  if retained.functionsCnt ≠ 0 then kernelSelect retained.names emitted fns
  else emitted ++ fallbackSelect fns

theorem sessionSelect_append (retained : FunctionTable) (emitted : List CStr)
    (first second : List Function) :
    sessionSelect retained emitted (first ++ second) =
      sessionSelect retained (sessionSelect retained emitted first) second := by
  unfold sessionSelect
  split_ifs
  · exact kernelSelect_append _ _ _ _
  · simp [fallbackSelect]

/-- A session under way: the writer holds the FUNC names emitted so far, and the function
table keeps the names collect_symbols left, agreeing with the names emitted in kernel
mode. -/
structure SessionFuncs (retained : FunctionTable) (e : Encoder) (w : BtfElf)
    (emitted : List CStr) : Prop where
  active : e.btfe = some w
  funcs : funcNames w.types = emitted
  names : e.table.names = retained.names
  agree : retained.functionsCnt ≠ 0 → GeneratedAgree e.table emitted

/-- The records of a CU's types name no FUNC. -/
theorem funcNames_tagRecords (arrayIndexId typeIdOff : Nat) (tags : List Tag) :
    funcNames (tags.filterMap (tagRecord arrayIndexId typeIdOff)) = [] := by
  simp only [funcNames, List.filterMap_eq_nil_iff, List.mem_filterMap]
  rintro record ⟨tag, -, encoded⟩
  exact tagRecord_funcName encoded

/-- A successful body of cu__encode_btf emits the FUNC names sessionSelect gives for the
CU's functions, and keeps the session. -/
theorem encodeCu_funcs {env : Env} {e e' : Encoder} {w : BtfElf} {cu : Cu}
    {force skipEncodingVars : Bool} {retained : FunctionTable} {emitted : List CStr}
    (session : SessionFuncs retained e w emitted)
    (ok : encodeCu env e w cu force skipEncodingVars = (0, e')) :
    ∃ w', SessionFuncs retained e' w' (sessionSelect retained emitted cu.functions) ∧
      w'.filename = w.filename := by
  obtain ⟨prepared, indexed, added, infos, -, -, shape, -, -, names, -, rfl⟩ := encodeCu_ok ok
  have indexedNames : funcNames indexed = [] := by
    rcases shape with rfl | ⟨-, -, rfl⟩ <;> rfl
  have emittedNames : funcNames (w.types ++
      cu.types.filterMap (tagRecord prepared.arrayIndexId w.nrTypes) ++ indexed ++ added) =
      emitted ++ (selectFunctions cu.functions e.table).1 := by
    rw [funcNames_append, funcNames_append, funcNames_append, session.funcs, funcNames_tagRecords,
      indexedNames, names, List.append_nil, List.append_nil]
  have sameCount : e.table.functionsCnt = retained.functionsCnt := by
    rw [FunctionTable.functionsCnt_eq, FunctionTable.functionsCnt_eq, session.names]
  refine ⟨_, ⟨rfl, ?_, ?_, ?_⟩, rfl⟩
  · rw [emittedNames]
    unfold sessionSelect
    split_ifs with kernel
    · rw [← session.names]
      exact (selectFunctions_kernel cu.functions (sameCount ▸ kernel) (session.agree kernel)).1
    · rw [selectFunctions_fallback (by omega)]
  · by_cases kernel : retained.functionsCnt ≠ 0
    · rw [(selectFunctions_kernel cu.functions (sameCount ▸ kernel) (session.agree kernel)).2.1,
        session.names]
    · rw [selectFunctions_fallback (by omega), session.names]
  · intro kernel
    unfold sessionSelect
    rw [if_pos kernel, ← session.names,
      ← (selectFunctions_kernel cu.functions (sameCount ▸ kernel) (session.agree kernel)).1]
    exact (selectFunctions_kernel cu.functions (sameCount ▸ kernel) (session.agree kernel)).2.2

theorem sessionSelect_nil (retained : FunctionTable) (emitted : List CStr) :
    sessionSelect retained emitted [] = emitted := by
  unfold sessionSelect
  split_ifs <;> simp [kernelSelect, fallbackSelect]

/-- A session run from a state without one: the writer created by the first call holds, as
FUNCs, the names sessionSelect gives for all the functions of the session's CUs, from the
table collect_symbols leaves on an empty one. -/
theorem session_funcNames {env : Env} {e e' : Encoder} {first : Cu × Bool × Bool}
    {rest : List (Cu × Bool × Bool)} (consistent : e.Consistent) (idle : e.btfe = none)
    (sameFile : ∀ call ∈ rest, call.1.filename = first.1.filename)
    (ran : runCus env e (first :: rest) = some e') :
    ∃ w', e'.btfe = some w' ∧ funcNames w'.types =
      sessionSelect (collectSymbols env first.1.elf e.btfElfForce (!first.2.2) deleteFunctions).2.1
        [] ((first :: rest).flatMap fun call => call.1.functions) := by
  obtain ⟨cu, force, skipEncodingVars⟩ := first
  obtain ⟨table, percpuVars, e1, collected, sorted, noneGenerated, encoded, ranRest⟩ :=
    runCus_new_session consistent idle ran
  let inv : List Cu → Encoder → BtfElf → Prop := fun done e w =>
    SessionFuncs table e w (sessionSelect table [] (done.flatMap Cu.functions))
  have keeps : ∀ {done : List Cu} {e e' : Encoder} {w : BtfElf} {cu : Cu}
      {force skipEncodingVars : Bool}, inv done e w → e.btfe = some w →
      encodeCu env e w cu force skipEncodingVars = (0, e') →
      ∃ w', e'.btfe = some w' ∧ w'.filename = w.filename ∧ inv (done ++ [cu]) e' w' := by
    intro done e e' w cu force skipEncodingVars session _ ok
    obtain ⟨w', session', sameName⟩ := encodeCu_funcs session ok
    refine ⟨w', session'.active, sameName, ?_⟩
    simpa [inv, List.flatMap_append, sessionSelect_append] using session'
  have start : inv []
      { e with
        btfe := some ⟨cu.filename, cu.elf, e.baseBtf, [], []⟩, table, percpuVars,
        hasIndexType := false, needIndexType := false, arrayIndexId := 0 }
      ⟨cu.filename, cu.elf, e.baseBtf, [], []⟩ := by
    simp only [inv, List.flatMap_nil, sessionSelect_nil]
    exact ⟨rfl, rfl, rfl, fun _ => GeneratedAgree.of_noneGenerated sorted noneGenerated⟩
  obtain ⟨w1, active1, sameName, session1⟩ := keeps start rfl encoded
  obtain ⟨w', active', session'⟩ := runCus_invariant inv keeps active1 session1
    (fun call member => sameName ▸ sameFile call member) ranRest
  refine ⟨w', active', ?_⟩
  rw [collected]
  simpa [inv, List.flatMap_cons, List.flatMap_map] using session'.funcs

/-- In kernel mode a session emits a FUNC for a DWARF function exactly when its arguments
are named, its name is one collect_symbols retained, and no function of that name was
emitted before in the session, in any earlier CU or earlier in the same CU; so no name is
emitted twice. -/
theorem kernel_session_emits_once (env : Env) (baseBtf : Nat) (e e' : Encoder)
    (first : Cu × Bool × Bool) (rest : List (Cu × Bool × Bool))
    (reachable : Reachable baseBtf e) (idle : e.btfe = none)
    (sameFile : ∀ call ∈ rest, call.1.filename = first.1.filename)
    (ran : runCus env e (first :: rest) = some e')
    (kernelMode :
      (collectSymbols env first.1.elf e.btfElfForce (!first.2.2) deleteFunctions).2.1.functionsCnt ≠ 0) :
    ∃ w', e'.btfe = some w' ∧
      funcNames w'.types = kernelSelect
        (collectSymbols env first.1.elf e.btfElfForce (!first.2.2) deleteFunctions).2.1.names []
        ((first :: rest).flatMap fun call => call.1.functions) ∧
      (funcNames w'.types).Nodup := by
  obtain ⟨w', active, names⟩ := session_funcNames reachable.consistent idle sameFile ran
  rw [sessionSelect, if_pos kernelMode] at names
  exact ⟨w', active, names, names ▸ kernelSelect_nodup _ _ List.nodup_nil⟩

/-! ## A small vmlinux

The witnesses below encode CUs of vmlinux files of one shape: the six layout anchors, with
an mcount table of one address at 0x100 in section 0 and the init code at [1, 2), then one
STT_FUNC symbol "f". What collect_symbols does on such a file is worked out once, here.
-/

def fName : CStr := .ofAscii "f"

def gName : CStr := .ofAscii "g"

/-- A defined external function with one named argument. -/
def namedFunction (name : CStr) : Function := ⟨name, false, true, ⟨0, [⟨some (.ofAscii "x"), 0⟩]⟩⟩

/-- The six layout anchors of a small vmlinux: the mcount table at 0x100 in section 0, one
address long, and the init code at [1, 2). -/
def layoutAnchors : List Sym :=
  [⟨startMcountLoc, 256, 0, 0, 0⟩, ⟨stopMcountLoc, 264, 0, 0, 0⟩, ⟨initBeginName, 1, 0, 0, 0⟩,
    ⟨initEndName, 2, 0, 0, 0⟩, ⟨initBpfBeginName, 1, 0, 0, 0⟩, ⟨initBpfEndName, 2, 0, 0, 0⟩]

/-- The anchors record the layout of oneMcountLayout. -/
theorem layoutAnchors_foldl : layoutAnchors.foldl collectSymbol .empty = oneMcountLayout := by
  have mcount : [⟨startMcountLoc, 256, 0, 0, 0⟩, ⟨stopMcountLoc, 264, 0, 0, 0⟩,
      ⟨initBeginName, 1, 0, 0, 0⟩].foldl collectSymbol FuncsLayout.empty = ⟨256, 264, 1, 0, 0, 0, 0⟩ := by
    decide
  rw [show layoutAnchors = [⟨startMcountLoc, 256, 0, 0, 0⟩, ⟨stopMcountLoc, 264, 0, 0, 0⟩,
      ⟨initBeginName, 1, 0, 0, 0⟩] ++ [⟨initEndName, 2, 0, 0, 0⟩, ⟨initBpfBeginName, 1, 0, 0, 0⟩,
      ⟨initBpfEndName, 2, 0, 0, 0⟩] from rfl, List.foldl_append, mcount]
  decide

/-- The pass over the anchors, which are neither functions nor objects, records
oneMcountLayout and nothing else. -/
theorem collectSymbolsLoop_layoutAnchors (env : Env) (elf : Elf) (force collectPercpuVars : Bool)
    (table : FunctionTable) (percpuVars : List VarInfo) :
    collectSymbolsLoop env elf force collectPercpuVars layoutAnchors ⟨table, percpuVars, .empty⟩ =
      (0, ⟨table, percpuVars, oneMcountLayout⟩) := by
  rw [collectSymbolsLoop_untyped _ _ _ _ _ _ (by decide), layoutAnchors_foldl]

/-- The symbol pass over the anchors and "f" at a nonzero address records oneMcountLayout and
the one entry of "f". -/
theorem collectSymbolsLoop_anchored (elf : Elf) {addr : Nat} (nonzero : addr ≠ 0) :
    collectSymbolsLoop Env.reliable elf false true (layoutAnchors ++ [⟨fName, addr, 16, 1, sttFunc⟩])
        ⟨deleteFunctions, [], .empty⟩ =
      (0, ⟨⟨some [⟨fName, addr, false⟩], 1000⟩, [], oneMcountLayout⟩) := by
  have anchors := collectSymbolsLoop_layoutAnchors Env.reliable elf false true deleteFunctions []
  have notAnchor : ∀ fl, collectSymbol fl ⟨fName, addr, 16, 1, sttFunc⟩ = fl :=
    fun fl => collectSymbol_of_not_anchor fl (show fName ∉ anchorNames by decide)
  have stored : collectFunction Env.reliable deleteFunctions ⟨fName, addr, 16, 1, sttFunc⟩ =
      (0, ⟨some [⟨fName, addr, false⟩], 1000⟩) := by
    simp [collectFunction, nonzero]
    rfl
  have notPercpu : collectPercpuVar elf.percpuShndx false [] ⟨fName, addr, 16, 1, sttFunc⟩ = (0, []) := by
    simp [collectPercpuVar, sttFunc, sttObject]
  rw [collectSymbolsLoop_append _ _ _ _ _ _ _ (by rw [anchors]), anchors]
  simp [collectSymbolsLoop, collectSymbolsStep, notPercpu, stored, notAnchor]

/-- collect_symbols on such a vmlinux: filter_functions keeps the entry of "f" as its test on
the one mcount address of the section says. -/
theorem collectSymbols_anchored {elf : Elf} {scn : Scn} {data : List UInt8} {addr : Nat}
    (symtab : elf.symtab = layoutAnchors ++ [⟨fName, addr, 16, 1, sttFunc⟩])
    (found : elf.getscn 0 = some scn) (hasShdr : scn.shdr = some ⟨256⟩)
    (hasData : scn.data = some data) (nonzero : addr ≠ 0) :
    collectSymbols Env.reliable elf false true deleteFunctions =
      (0, ⟨some ([⟨fName, addr, false⟩].filter
        (keptByFilter oneMcountLayout (qsort id (readMcountAddrs data 0 1)))), 1000⟩, []) := by
  unfold collectSymbols
  rw [symtab, collectSymbolsLoop_anchored elf nonzero]
  dsimp only
  rw [filterFunctions_eq found hasShdr hasData]
  simp [FunctionTable.functionsCnt, FunctionTable.entries, sortPercpuVars, Env.reliable, qsort,
    show hasAllSymbols oneMcountLayout = true from rfl, show mcountOffset oneMcountLayout ⟨256⟩ = 0 from rfl,
    show mcountCount oneMcountLayout = 1 from rfl]

/-- The mcount section, holding the address 0x1000. -/
def mcountSection : Scn := ⟨some ⟨256⟩, some [0, 16, 0, 0, 0, 0, 0, 0]⟩

/-- A vmlinux whose function "f" at 0x1000 is traced. -/
def tracedElf : Elf := ⟨[mcountSection], layoutAnchors ++ [⟨fName, 4096, 16, 1, sttFunc⟩], 0, 0⟩

/-- A CU of that vmlinux defining "f" and "g". -/
def tracedCu : Cu :=
  ⟨.ofAscii "vmlinux", tracedElf, [], [namedFunction fName, namedFunction gName], []⟩

/-- The globals after encoding the CU twice in one session. -/
def tracedSessionEnd : Encoder :=
  (runCus Env.reliable (Encoder.init 0) [(tracedCu, false, false), (tracedCu, false, false)]).getD
    (Encoder.init 0)

theorem collectSymbols_tracedElf :
    collectSymbols Env.reliable tracedElf false true deleteFunctions =
      (0, ⟨some [⟨fName, 4096, false⟩], 1000⟩, []) := by
  rw [@collectSymbols_anchored tracedElf mcountSection _ _ rfl rfl rfl rfl (by decide)]
  decide

/-- Encoding the CU twice emits "f" once, and "g", which is not traced, never. -/
theorem kernel_session_emits_once_on_two_cus :
    Reachable 0 (Encoder.init 0) ∧ (Encoder.init 0).btfe = none ∧
    (∀ call ∈ [(tracedCu, false, false)], call.1.filename = tracedCu.filename) ∧
    runCus Env.reliable (Encoder.init 0) [(tracedCu, false, false), (tracedCu, false, false)] =
      some tracedSessionEnd ∧
    (collectSymbols Env.reliable tracedElf false true deleteFunctions).2.1.functionsCnt ≠ 0 ∧
    ∃ w', tracedSessionEnd.btfe = some w' ∧
      funcNames w'.types = kernelSelect
        (collectSymbols Env.reliable tracedElf false true deleteFunctions).2.1.names []
        ([(tracedCu, false, false), (tracedCu, false, false)].flatMap fun call => call.1.functions) ∧
      (funcNames w'.types).Nodup := by
  have ran : runCus Env.reliable (Encoder.init 0) [(tracedCu, false, false), (tracedCu, false, false)] =
      some tracedSessionEnd := runCus_eq_some_getD (by
    simp only [runCus, @cuEncodeBtf_of_collected Env.reliable (Encoder.init 0) tracedCu false false _ _
      rfl rfl collectSymbols_tracedElf]
    decide)
  have kernelMode : (collectSymbols Env.reliable tracedElf false true deleteFunctions).2.1.functionsCnt ≠ 0 := by
    rw [collectSymbols_tracedElf]
    decide
  -- the first call's arguments, read off the pair without evaluating collect_symbols
  have same : collectSymbols Env.reliable (tracedCu, false, false).1.elf (Encoder.init 0).btfElfForce
      (!(tracedCu, false, false).2.2) deleteFunctions =
        collectSymbols Env.reliable tracedElf false true deleteFunctions := rfl
  have general := kernel_session_emits_once Env.reliable 0 (Encoder.init 0) tracedSessionEnd
    (tracedCu, false, false) [(tracedCu, false, false)] .init rfl (by decide) ran (by rw [same]; exact kernelMode)
  rw [same] at general
  exact ⟨.init, rfl, by decide, ran, kernelMode, general⟩

/-- When collect_symbols leaves a function table, every FUNC a session emits has a name the
table retained; when it leaves none, because vmlinux was not detected or because
filter_functions retained no function, the session emits the defined external functions. -/
theorem session_funcs_retained_or_fallback (env : Env) (baseBtf : Nat) (e e' : Encoder)
    (first : Cu × Bool × Bool) (rest : List (Cu × Bool × Bool))
    (reachable : Reachable baseBtf e) (idle : e.btfe = none)
    (sameFile : ∀ call ∈ rest, call.1.filename = first.1.filename)
    (ran : runCus env e (first :: rest) = some e') :
    ∃ w', e'.btfe = some w' ∧
      ((collectSymbols env first.1.elf e.btfElfForce (!first.2.2) deleteFunctions).2.1.functionsCnt ≠ 0 →
        ∀ name ∈ funcNames w'.types,
          name ∈ (collectSymbols env first.1.elf e.btfElfForce (!first.2.2) deleteFunctions).2.1.names) ∧
      ((collectSymbols env first.1.elf e.btfElfForce (!first.2.2) deleteFunctions).2.1.functionsCnt = 0 →
        funcNames w'.types = fallbackSelect ((first :: rest).flatMap fun call => call.1.functions)) := by
  obtain ⟨w', active, names⟩ := session_funcNames reachable.consistent idle sameFile ran
  refine ⟨w', active, fun kernelMode => ?_, fun fallback => ?_⟩
  · rw [names, sessionSelect, if_pos kernelMode]
    exact kernelSelect_retained _ _ (by simp)
  · rw [names, sessionSelect, if_neg (by omega), List.nil_append]

/-- A vmlinux with all six anchors whose function "f", at 0x2000, is not in the mcount
table. -/
def untracedElf : Elf := ⟨[mcountSection], layoutAnchors ++ [⟨fName, 8192, 16, 1, sttFunc⟩], 0, 0⟩

/-- A CU of that vmlinux defining "g". -/
def untracedCu : Cu := ⟨.ofAscii "vmlinux", untracedElf, [], [namedFunction gName], []⟩

theorem collectSymbols_untracedElf :
    collectSymbols Env.reliable untracedElf false true deleteFunctions = (0, ⟨some [], 1000⟩, []) := by
  rw [@collectSymbols_anchored untracedElf mcountSection _ _ rfl rfl rfl rfl (by decide)]
  decide

/-- With all six anchors and a function symbol present but no function traced, the table is
emptied and the session emits "g", which no symbol retains. -/
theorem untraced_vmlinux_falls_back :
    hasAllSymbols (collectSymbolsLoop Env.reliable untracedElf false true untracedElf.symtab
      ⟨deleteFunctions, [], .empty⟩).2.layout = true ∧
    (∃ sym ∈ untracedElf.symtab, sym.type = sttFunc ∧ sym.value ≠ 0) ∧
    (collectSymbols Env.reliable untracedElf false true deleteFunctions).2.1.names = [] ∧
    ((runCus Env.reliable (Encoder.init 0) [(untracedCu, false, false)]).bind Encoder.btfe).map
      (fun w => funcNames w.types) = some [gName] := by
  refine ⟨by rw [untracedElf, collectSymbolsLoop_anchored _ (by decide)]; rfl,
    ⟨_, List.mem_append_right _ (List.mem_singleton_self _), rfl, by decide⟩,
    by rw [collectSymbols_untracedElf]; rfl, ?_⟩
  simp only [runCus, @cuEncodeBtf_of_collected Env.reliable (Encoder.init 0) untracedCu false false _ _
    rfl rfl collectSymbols_untracedElf]
  decide

/-- The globals after encoding the CU of the untraced vmlinux. -/
def untracedSessionEnd : Encoder :=
  (runCus Env.reliable (Encoder.init 0) [(untracedCu, false, false)]).getD (Encoder.init 0)

/-- The session on the untraced vmlinux falls back to the defined external functions. -/
theorem session_funcs_retained_or_fallback_untraced :
    Reachable 0 (Encoder.init 0) ∧ (Encoder.init 0).btfe = none ∧
    runCus Env.reliable (Encoder.init 0) [(untracedCu, false, false)] = some untracedSessionEnd ∧
    ∃ w', untracedSessionEnd.btfe = some w' ∧
      ((collectSymbols Env.reliable untracedElf false true deleteFunctions).2.1.functionsCnt ≠ 0 →
        ∀ name ∈ funcNames w'.types,
          name ∈ (collectSymbols Env.reliable untracedElf false true deleteFunctions).2.1.names) ∧
      ((collectSymbols Env.reliable untracedElf false true deleteFunctions).2.1.functionsCnt = 0 →
        funcNames w'.types = fallbackSelect
          ([(untracedCu, false, false)].flatMap fun call => call.1.functions)) := by
  have ran : runCus Env.reliable (Encoder.init 0) [(untracedCu, false, false)] =
      some untracedSessionEnd := runCus_eq_some_getD (by
    simp only [runCus, @cuEncodeBtf_of_collected Env.reliable (Encoder.init 0) untracedCu false false _ _
      rfl rfl collectSymbols_untracedElf]
    decide)
  have same : collectSymbols Env.reliable (untracedCu, false, false).1.elf (Encoder.init 0).btfElfForce
      (!(untracedCu, false, false).2.2) deleteFunctions =
        collectSymbols Env.reliable untracedElf false true deleteFunctions := rfl
  have general := session_funcs_retained_or_fallback Env.reliable 0 (Encoder.init 0) untracedSessionEnd
    (untracedCu, false, false) [] .init rfl (by simp) ran
  rw [same] at general
  exact ⟨.init, rfl, ran, general⟩

/-! ## The mcount table read

filter_functions copies count = (mcount_stop - mcount_start) / 8 addresses from offset
mcount_start - sh_addr of the section's data, and checks neither that the anchors lie in
the section nor that the range ends within d_size.
-/

/-- An mcount section whose data are only 4 bytes long. -/
def shortMcountSection : Scn := ⟨some ⟨256⟩, some [0, 16, 0, 0]⟩

/-- A vmlinux like the traced one whose anchors give an mcount table of one address, 8 bytes,
in that 4-byte section. -/
def shortMcountElf : Elf :=
  ⟨[shortMcountSection], layoutAnchors ++ [⟨fName, 4096, 16, 1, sttFunc⟩], 0, 0⟩

/-- A CU of that vmlinux defining "f". -/
def shortMcountCu : Cu := ⟨.ofAscii "vmlinux", shortMcountElf, [], [namedFunction fName], []⟩

theorem collectSymbols_shortMcountElf :
    collectSymbols Env.reliable shortMcountElf false true deleteFunctions =
      (0, ⟨some [⟨fName, 4096, false⟩], 1000⟩, []) := by
  rw [@collectSymbols_anchored shortMcountElf shortMcountSection _ _ rfl rfl rfl rfl (by decide)]
  decide

/-- On that vmlinux the symbol pass records all six anchors and one function, so
filter_functions runs; it reads 8 bytes from offset 0 of a section whose d_size is 4, and
cu__encode_btf returns 0 with "f" kept on the strength of the bytes past d_size. -/
theorem mcount_read_past_data :
    (cuEncodeBtf Env.reliable (Encoder.init 0) shortMcountCu false false).1 = 0 ∧
    (collectSymbols Env.reliable shortMcountElf false true deleteFunctions).2.1.names = [fName] ∧
    shortMcountSection.shdr = some ⟨256⟩ ∧ shortMcountSection.data.map List.length = some 4 ∧
    (let pass := collectSymbolsLoop Env.reliable shortMcountElf false true shortMcountElf.symtab
      ⟨deleteFunctions, [], .empty⟩
    pass.2.table.functionsCnt = 1 ∧ hasAllSymbols pass.2.layout = true ∧
      shortMcountElf.getscn pass.2.layout.mcountSecIdx = some shortMcountSection ∧
      mcountOffset pass.2.layout ⟨256⟩ = 0 ∧ 8 * mcountCount pass.2.layout = 8) := by
  refine ⟨?_, by rw [collectSymbols_shortMcountElf]; rfl, rfl, rfl, ?_⟩
  · rw [@cuEncodeBtf_of_collected Env.reliable (Encoder.init 0) shortMcountCu false false _ _
      rfl rfl collectSymbols_shortMcountElf]
    decide
  · simp only [shortMcountElf, collectSymbolsLoop_anchored _ (show 4096 ≠ 0 by decide)]
    decide

end Dwarves
