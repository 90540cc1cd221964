import Dwarves.Libc
import Dwarves.BtfEncoder.Writer
import Mathlib.Data.Nat.Digits

/-
The table of ELF functions: how collect_function fills it, how filter_functions
keeps only the traced functions, and how should_generate_function lets each name
through once.
-/

namespace Dwarves

/-- An entry of the function table, struct elf_function: a symbol's name and address, and
whether a FUNC was generated for it. -/
structure ElfFunction where
  name : CStr
  addr : Nat
  generated : Bool
deriving DecidableEq

/-- The globals functions and functions_alloc: the buffer, NULL or holding the first
functions_cnt entries, and its capacity. -/
structure FunctionTable where
  functions : Option (List ElfFunction)
  functionsAlloc : Int
deriving DecidableEq

namespace FunctionTable

/-- The stored entries, functions[0, functions_cnt). -/
def entries (t : FunctionTable) : List ElfFunction := t.functions.getD []

def functionsCnt (t : FunctionTable) : Nat := t.entries.length

/-- The names of the entries, which is all the table is searched by. -/
def names (t : FunctionTable) : List CStr := t.entries.map ElfFunction.name

end FunctionTable

/-- The table delete_functions leaves: no buffer and no capacity. -/
def deleteFunctions : FunctionTable := ⟨none, 0⟩

/-- An int computed in 32-bit two's complement. -/
def wrapInt (x : Int) : Int := (x + 2 ^ 31) % 2 ^ 32 - 2 ^ 31

/-- max(1000, functions_alloc * 3 / 2), in int. -/
def growFunctionsAlloc (functionsAlloc : Int) : Int :=
  let grown := (wrapInt (functionsAlloc * 3)).tdiv 2
  if 1000 < grown then grown else 1000

/-- collect_function: the entry of an STT_FUNC symbol with a nonzero value is appended, the
table growing first when it is full; -1 when that realloc fails. -/
def collectFunction (env : Env) (t : FunctionTable) (sym : Sym) : Int × FunctionTable :=
  if sym.type ≠ sttFunc then (0, t)
  else if sym.value = 0 then (0, t)
  else
    let entry : ElfFunction := ⟨sym.name, sym.value, false⟩
    if (t.functionsCnt : Int) = t.functionsAlloc then
      let functionsAlloc := growFunctionsAlloc t.functionsAlloc
      if env.reallocFails functionsAlloc then (-1, { t with functionsAlloc })
      else (0, ⟨some (t.entries ++ [entry]), functionsAlloc⟩)
    else (0, { t with functions := some (t.entries ++ [entry]) })

/-- The values of the six anchors and the section of the mcount table, struct
funcs_layout. -/
structure FuncsLayout where
  mcountStart : Nat
  mcountStop : Nat
  initBegin : Nat
  initEnd : Nat
  initBpfBegin : Nat
  initBpfEnd : Nat
  mcountSecIdx : Nat
deriving DecidableEq

/-- is_init: the address is in the init code. -/
def isInit (fl : FuncsLayout) (addr : Nat) : Bool := fl.initBegin ≤ addr && addr < fl.initEnd

/-- is_bpf_init: the address is in the bpf-preserve part of the init code. -/
def isBpfInit (fl : FuncsLayout) (addr : Nat) : Bool :=
  fl.initBpfBegin ≤ addr && addr < fl.initBpfEnd

/-- A difference of unsigned long values. -/
def ulongSub (a b : Nat) : Nat := (((a : Int) - b) % 2 ^ 64).toNat

/-- offset in filter_functions: __start_mcount_loc relative to its section. -/
def mcountOffset (fl : FuncsLayout) (shdr : Shdr) : Nat := ulongSub fl.mcountStart shdr.addr

/-- count in filter_functions: the number of mcount addresses. -/
def mcountCount (fl : FuncsLayout) : Nat := ulongSub fl.mcountStop fl.mcountStart / 8

/-- The size malloc is asked for: count * sizeof(addrs[0]), in size_t. -/
def mcountBytes (fl : FuncsLayout) : Nat := mcountCount fl * 8 % 2 ^ 64

/-- The unsigned long stored little-endian at a byte position of the section data.
Bytes past d_size, which the C code would read out of bounds, read as 0. -/
def readUlong (data : List UInt8) (pos : Nat) : Nat :=
  (List.range 8).foldr (fun j value => (data.getD (pos + j) 0).toNat + 256 * value) 0

/-- The count addresses memcpy copies from d_buf + offset. -/
def readMcountAddrs (data : List UInt8) (offset count : Nat) : List Nat :=
  (List.range count).map fun i => readUlong data (offset + 8 * i)

/-- The loop of filter_functions from functions[i] on: an entry outside the init code,
or in its bpf-preserve part, whose address bsearch finds among the sorted addrs moves
down to functions[functions_valid]. -/
def filterFunctionsLoop (fl : FuncsLayout) (addrs : List Nat) :
    Nat → List ElfFunction → Nat → Nat → List ElfFunction × Nat
  | 0, buf, _, functionsValid => (buf, functionsValid)
  | fuel + 1, buf, i, functionsValid =>
    match buf[i]? with
    | none => (buf, functionsValid)
    | some func =>
      if isInit fl func.addr && !isBpfInit fl func.addr then
        filterFunctionsLoop fl addrs fuel buf (i + 1) functionsValid
      else if (bsearch func.addr addrs).isSome then
        filterFunctionsLoop fl addrs fuel
          (if i ≠ functionsValid then buf.set functionsValid func else buf) (i + 1)
          (functionsValid + 1)
      else filterFunctionsLoop fl addrs fuel buf (i + 1) functionsValid

/-- filter_functions: the entries outside the init code, or in its bpf-preserve part, whose
address bsearch finds in the sorted mcount table are compacted to the front; -1 when the
mcount section or its data cannot be read or malloc fails. -/
def filterFunctions (env : Env) (elf : Elf) (fl : FuncsLayout) (t : FunctionTable) :
    Int × FunctionTable :=
  match elf.getscn fl.mcountSecIdx with
  | none => (-1, t)
  | some sec =>
    match sec.shdr with
    | none => (-1, t)
    | some shdr =>
      match sec.data with
      | none => (-1, t)
      | some data =>
        if env.mallocFails (mcountBytes fl) then (-1, t)
        else
          let addrs := qsort id (readMcountAddrs data (mcountOffset fl shdr) (mcountCount fl))
          let compacted := filterFunctionsLoop fl addrs t.functionsCnt t.entries 0 0
          (0, { t with functions := t.functions.map fun _ => compacted.1.take compacted.2 })

/-- should_generate_function: the entry bsearch finds by name is generated the first
time only. -/
def shouldGenerateFunction (t : FunctionTable) (name : CStr) : Bool × FunctionTable :=
  match bsearch name t.names with
  | none => (false, t)
  | some i =>
    match t.entries[i]? with
    | none => (false, t)
    | some p =>
      if p.generated then (false, t)
      else (true, { t with functions := some (t.entries.set i { p with generated := true }) })

section Compaction

variable (fl : FuncsLayout) (addrs : List Nat)

/-- What the loop of filter_functions keeps. -/
def keptByFilter (func : ElfFunction) : Bool :=
  !(isInit fl func.addr && !isBpfInit fl func.addr) && (bsearch func.addr addrs).isSome

/-- The in-place compaction: from i on, the kept entries of the original are appended to
the valid prefix, as long as the buffer still agrees with the original from i on. -/
theorem filterFunctionsLoop_take (original : List ElfFunction) :
    ∀ (fuel : Nat) (buf : List ElfFunction) (i functionsValid : Nat),
      functionsValid ≤ i → buf.length = original.length → buf.drop i = original.drop i →
      original.length ≤ i + fuel →
      let result := filterFunctionsLoop fl addrs fuel buf i functionsValid
      result.1.take result.2 =
        buf.take functionsValid ++ (original.drop i).filter (keptByFilter fl addrs)
  | 0, buf, i, functionsValid, _, _, _, bound => by
    simp [filterFunctionsLoop, List.drop_of_length_le (show original.length ≤ i by omega)]
  | fuel + 1, buf, i, functionsValid, below, sameLength, sameSuffix, bound => by
    by_cases inside : i < buf.length
    · have inOriginal : i < original.length := by omega
      have atI : buf[i] = original[i] := by
        have := congrArg (·[0]?) sameSuffix
        simpa [List.getElem?_drop, inside, inOriginal] using this
      have rest : original.drop i = original[i] :: original.drop (i + 1) :=
        List.drop_eq_getElem_cons inOriginal
      have nextSuffix : buf.drop (i + 1) = original.drop (i + 1) := by
        rw [← List.drop_drop, sameSuffix, List.drop_drop]
      simp only [filterFunctionsLoop, List.getElem?_eq_getElem inside, atI]
      rw [rest]
      by_cases excluded : (isInit fl original[i].addr && !isBpfInit fl original[i].addr) = true
      · rw [if_pos excluded, filterFunctionsLoop_take original fuel buf (i + 1) functionsValid
          (by omega) sameLength nextSuffix (by omega),
          List.filter_cons_of_neg (by simp [keptByFilter, excluded])]
      rw [if_neg excluded]
      by_cases found : (bsearch original[i].addr addrs).isSome = true
      · have step : ∀ moved : List ElfFunction, moved.length = original.length →
            moved.drop (i + 1) = original.drop (i + 1) →
            moved.take (functionsValid + 1) = buf.take functionsValid ++ [original[i]] →
            let result := filterFunctionsLoop fl addrs fuel moved (i + 1) (functionsValid + 1)
            result.1.take result.2 = buf.take functionsValid ++
              (original[i] :: original.drop (i + 1)).filter (keptByFilter fl addrs) := by
          intro moved movedLength movedSuffix movedPrefix
          dsimp only
          rw [filterFunctionsLoop_take original fuel moved (i + 1) (functionsValid + 1) (by omega)
            movedLength movedSuffix (by omega), movedPrefix,
            List.filter_cons_of_pos (by simp [keptByFilter, excluded, found])]
          simp
        rw [if_pos found]
        split_ifs with differ
        · apply step
          · simp [sameLength]
          · rw [List.drop_set_of_lt _ _ (by omega), nextSuffix]
          · rw [List.take_succ, List.set_take, List.set_eq_of_length_le (by simp),
              List.getElem?_set_self (by omega)]
            rfl
        · have same : functionsValid = i := by omega
          subst same
          apply step buf sameLength nextSuffix
          rw [List.take_succ, List.getElem?_eq_getElem inside, atI]
          rfl
      · rw [if_neg found, filterFunctionsLoop_take original fuel buf (i + 1) functionsValid
          (by omega) sameLength nextSuffix (by omega),
          List.filter_cons_of_neg (by simp [keptByFilter, excluded, found])]
    · have done : original.drop i = [] := List.drop_of_length_le (by omega)
      simp [filterFunctionsLoop, List.getElem?_eq_none (Nat.le_of_not_lt inside), done]

/-- The whole loop leaves exactly the kept entries, in their order. -/
theorem filterFunctionsLoop_filter (original : List ElfFunction) :
    let result := filterFunctionsLoop fl addrs original.length original 0 0
    result.1.take result.2 = original.filter (keptByFilter fl addrs) := by
  simpa using filterFunctionsLoop_take fl addrs original original.length original 0 0 le_rfl rfl
    rfl (by omega)

end Compaction

/-- A successful filter_functions keeps, in their order, the entries one test accepts. -/
theorem filterFunctions_ok {env : Env} {elf : Elf} {fl : FuncsLayout} {t t' : FunctionTable}
    (ok : filterFunctions env elf fl t = (0, t')) :
    ∃ keep : ElfFunction → Bool, t' = { t with functions := t.functions.map (·.filter keep) } := by
  simp only [filterFunctions] at ok
  split at ok
  · simp at ok
  split at ok
  · simp at ok
  split at ok
  · simp at ok
  split_ifs at ok
  · simp at ok
  rename_i shdr _ _ data _ _
  refine ⟨keptByFilter fl (qsort id (readMcountAddrs data (mcountOffset fl shdr) (mcountCount fl))),
    ?_⟩
  rw [← (Prod.mk.inj ok).2]
  rcases t with ⟨_ | entries, functionsAlloc⟩
  · rfl
  · simp [FunctionTable.entries, FunctionTable.functionsCnt, filterFunctionsLoop_filter]

/-- filter_functions on a layout whose mcount section is found: unless the address buffer
cannot be allocated, the entries the compaction loop keeps. -/
theorem filterFunctions_eq {env : Env} {elf : Elf} {fl : FuncsLayout} {t : FunctionTable}
    {sec : Scn} {shdr : Shdr} {data : List UInt8}
    (found : elf.getscn fl.mcountSecIdx = some sec) (hasShdr : sec.shdr = some shdr)
    (hasData : sec.data = some data) :
    filterFunctions env elf fl t =
      if env.mallocFails (mcountBytes fl) then (-1, t)
      else (0, { t with functions := t.functions.map (·.filter (keptByFilter fl
        (qsort id (readMcountAddrs data (mcountOffset fl shdr) (mcountCount fl))))) }) := by
  simp only [filterFunctions, found, hasShdr, hasData]
  split_ifs
  · rfl
  · rcases t with ⟨_ | entries, functionsAlloc⟩
    · rfl
    · simp [FunctionTable.entries, FunctionTable.functionsCnt, filterFunctionsLoop_filter]

/-- bsearch on the sorted copy of the mcount addresses finds exactly the addresses of the
table. -/
theorem bsearch_qsort_isSome_iff (mcount : List Nat) (addr : Nat) :
    (bsearch addr (qsort id mcount)).isSome ↔ addr ∈ mcount := by
  have sorted := qsort_sorted id mcount
  rw [List.map_id] at sorted
  rw [bsearch_isSome_iff sorted, (qsort_perm id mcount).mem_iff]

/-! ## What filter_functions keeps -/

/-- Modelled from the spec: the value of a little-endian word. -/
def leWord (bytes : List UInt8) : Nat := Nat.ofDigits 256 (bytes.map UInt8.toNat)

/-- Modelled from the spec: the mcount table, the count 8-byte little-endian words of the
section data from a byte offset on. -/
def mcountWords (data : List UInt8) (offset count : Nat) : List Nat :=
  (List.range count).map fun i => leWord ((data.drop (offset + 8 * i)).take 8)

/-- Modelled from the spec: a function filter_functions keeps: not in the init code
[init_begin, init_end) unless in its bpf-preserve part [init_bpf_begin, init_bpf_end), and
at an address of the mcount table. -/
def Traced (fl : FuncsLayout) (mcount : List Nat) (func : ElfFunction) : Prop :=
  ¬(fl.initBegin ≤ func.addr ∧ func.addr < fl.initEnd ∧
      ¬(fl.initBpfBegin ≤ func.addr ∧ func.addr < fl.initBpfEnd)) ∧
    func.addr ∈ mcount

instance (fl : FuncsLayout) (mcount : List Nat) : DecidablePred (Traced fl mcount) :=
  fun _ => inferInstanceAs (Decidable (¬_ ∧ _))

/-- Read within the data, the bytes readUlong assembles form the little-endian word there. -/
theorem foldr_range_getD_eq_leWord (data : List UInt8) :
    ∀ (n pos : Nat), pos + n ≤ data.length →
      (List.range n).foldr (fun j value => (data.getD (pos + j) 0).toNat + 256 * value) 0 =
        leWord ((data.drop pos).take n)
  | 0, _, _ => rfl
  | n + 1, pos, inside => by
    have later := foldr_range_getD_eq_leWord data n (pos + 1) (by omega)
    simp only [Nat.add_right_comm pos 1] at later
    simp only [List.range_succ_eq_map, List.foldr_cons, List.foldr_map, Nat.add_zero,
      Nat.succ_eq_add_one, ← Nat.add_assoc, later]
    rw [List.drop_eq_getElem_cons (show pos < data.length by omega), List.take_succ_cons, leWord,
      leWord, List.map_cons, Nat.ofDigits_cons, List.getD_eq_getElem?_getD,
      List.getElem?_eq_getElem (by omega), Option.getD_some]

/-- Within the data, memcpy copies the spec's mcount table. -/
theorem readMcountAddrs_eq_mcountWords {data : List UInt8} {offset count : Nat}
    (inside : offset + 8 * count ≤ data.length) :
    readMcountAddrs data offset count = mcountWords data offset count :=
  List.map_congr_left fun i member => by
    have below := List.mem_range.1 member
    exact foldr_range_getD_eq_leWord data 8 _ (by omega)

/-- A difference of unsigned long values that does not wrap. -/
theorem ulongSub_of_le {a b : Nat} (le : b ≤ a) (small : a < 2 ^ 64) : ulongSub a b = a - b := by
  unfold ulongSub
  rw [Int.emod_eq_of_lt (by omega) (by omega)]
  omega

/-- filter_functions keeps, in their order, exactly the functions outside the init code (or
in its bpf-preserve part) whose address is in the mcount table, the 8-byte words of the
section data between __start_mcount_loc and __stop_mcount_loc; so a table sorted by name
stays sorted, and the qsort and bsearch of the code find an address exactly when it is in
that table. It fails only when the address buffer cannot be allocated. -/
theorem filterFunctions_keeps_traced (env : Env) (elf : Elf) (fl : FuncsLayout)
    (t : FunctionTable) (sec : Scn) (shdr : Shdr) (data : List UInt8)
    (found : elf.getscn fl.mcountSecIdx = some sec) (hasShdr : sec.shdr = some shdr)
    (hasData : sec.data = some data)
    (ordered : shdr.addr ≤ fl.mcountStart ∧ fl.mcountStart ≤ fl.mcountStop ∧
      fl.mcountStop < 2 ^ 64)
    (inside : fl.mcountStop - shdr.addr ≤ data.length) :
    let mcount :=
      mcountWords data (fl.mcountStart - shdr.addr) ((fl.mcountStop - fl.mcountStart) / 8)
    filterFunctions env elf fl t =
        (if env.mallocFails (mcountBytes fl) then (-1, t)
        else (0, { t with functions := t.functions.map (·.filter (Traced fl mcount ·)) })) ∧
      (t.names.Sorted (· ≤ ·) →
        ((t.entries.filter (Traced fl mcount ·)).map ElfFunction.name).Sorted (· ≤ ·)) ∧
      ∀ addr, (bsearch addr
        (qsort id (readMcountAddrs data (mcountOffset fl shdr) (mcountCount fl)))).isSome ↔
          addr ∈ mcount := by
  intro mcount
  have read : readMcountAddrs data (mcountOffset fl shdr) (mcountCount fl) = mcount := by
    rw [mcountOffset, mcountCount, ulongSub_of_le ordered.1 (by omega),
      ulongSub_of_le ordered.2.1 ordered.2.2]
    exact readMcountAddrs_eq_mcountWords (by omega)
  have sameKeep : keptByFilter fl (qsort id mcount) = (Traced fl mcount ·) := by
    funext func
    rw [keptByFilter, Bool.eq_iff_iff, decide_eq_true_iff, Bool.and_eq_true,
      bsearch_qsort_isSome_iff mcount]
    refine and_congr_left fun _ => ?_
    simp only [isInit, isBpfInit, ← Bool.decide_and, ← decide_not, decide_eq_true_eq, and_assoc]
  refine ⟨?_, fun sorted => sorted.sublist ((List.filter_sublist _).map _), ?_⟩
  · rw [filterFunctions_eq found hasShdr hasData, read, sameKeep]
  · rw [read]
    exact bsearch_qsort_isSome_iff mcount

/-- The bytes of one mcount address, 0x1000. -/
def oneMcountData : List UInt8 := [0, 16, 0, 0, 0, 0, 0, 0]

/-- A section at 0x100 holding one mcount address. -/
def oneMcountScn : Scn := ⟨some ⟨256⟩, some oneMcountData⟩

/-- An ELF file whose section 0 is oneMcountScn. -/
def oneMcountElf : Elf := ⟨[oneMcountScn], [], 0, 0⟩

/-- The mcount table at 0x100..0x108 in section 0; init code at 1..2. -/
def oneMcountLayout : FuncsLayout := ⟨256, 264, 1, 2, 1, 2, 0⟩

/-- One function at the mcount address. -/
def oneMcountTable : FunctionTable := ⟨some [⟨.ofAscii "f", 4096, false⟩], 1000⟩

/-- The table of one function at the one mcount address. -/
theorem filterFunctions_keeps_traced_on_one_address :
    oneMcountElf.getscn oneMcountLayout.mcountSecIdx = some oneMcountScn ∧
      oneMcountScn.shdr = some ⟨256⟩ ∧ oneMcountScn.data = some oneMcountData ∧
      (256 ≤ oneMcountLayout.mcountStart ∧ oneMcountLayout.mcountStart ≤ oneMcountLayout.mcountStop ∧
        oneMcountLayout.mcountStop < 2 ^ 64) ∧
      oneMcountLayout.mcountStop - 256 ≤ oneMcountData.length ∧
      let mcount := mcountWords oneMcountData (oneMcountLayout.mcountStart - 256)
        ((oneMcountLayout.mcountStop - oneMcountLayout.mcountStart) / 8)
      filterFunctions Env.reliable oneMcountElf oneMcountLayout oneMcountTable =
          (if Env.reliable.mallocFails (mcountBytes oneMcountLayout) then (-1, oneMcountTable)
          else (0, { oneMcountTable with
            functions := oneMcountTable.functions.map (·.filter (Traced oneMcountLayout mcount ·)) })) ∧
        (oneMcountTable.names.Sorted (· ≤ ·) →
          ((oneMcountTable.entries.filter (Traced oneMcountLayout mcount ·)).map
            ElfFunction.name).Sorted (· ≤ ·)) ∧
        ∀ addr, (bsearch addr (qsort id (readMcountAddrs oneMcountData
          (mcountOffset oneMcountLayout ⟨256⟩) (mcountCount oneMcountLayout)))).isSome ↔
            addr ∈ mcount :=
  ⟨rfl, rfl, rfl, by decide, by decide,
    filterFunctions_keeps_traced _ _ _ _ _ ⟨256⟩ _ rfl rfl rfl (by decide) (by decide)⟩

end Dwarves
