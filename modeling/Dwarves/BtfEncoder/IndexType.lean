import Dwarves.BtfEncoder.Lifecycle

/-
The index type of ARRAY records. Before a CU's type pass the driver fixes the ID
every ARRAY of the CU names as index type: the CU's "int", or the ID just past
the CU's types, where __ARRAY_SIZE_TYPE__ is added after the pass when an array
needed it. When the writer takes that addition, every ARRAY of a session names an
index type of the session; when it rejects it, cu__encode_btf does not notice,
and the ARRAYs name whatever type the writer adds next.
-/

namespace Dwarves

/-- The record of a writer with a given BTF ID: the writer's own types follow those of
the base BTF. -/
def BtfElf.record (w : BtfElf) (id : Nat) : Option BtfType :=
  if w.baseNrTypes < id then w.types[id - w.baseNrTypes - 1]? else none

/-- A record an ARRAY can take as index type: a base type named "int", or
__ARRAY_SIZE_TYPE__. -/
def IndexRecord : BtfType → Prop
  | .int (some name) info => name = intName ∨ name = arraySizeTypeName ∧ info = arraySizeType
  | _ => False

/-- Appending keeps the records there are. -/
theorem BtfElf.record_of_prefix {w w' : BtfElf} {more : List BtfType} {id : Nat}
    {target : BtfType} (base : w'.baseNrTypes = w.baseNrTypes) (types : w'.types = w.types ++ more)
    (found : w.record id = some target) : w'.record id = some target := by
  unfold BtfElf.record at found ⊢
  split_ifs at found with above
  rw [if_pos (base ▸ above), base, types, List.getElem?_append_left]
  · exact found
  · exact (List.getElem?_eq_some_iff.1 found).1

/-- The records appended get the IDs after the writer's last. -/
theorem BtfElf.record_appended {w w' : BtfElf} {more : List BtfType} (k : Nat)
    (base : w'.baseNrTypes = w.baseNrTypes) (types : w'.types = w.types ++ more) :
    w'.record (w.nrTypes + k + 1) = more[k]? := by
  unfold BtfElf.record BtfElf.nrTypes
  rw [if_pos (by omega), base, types, List.getElem?_append_right (by omega)]
  congr 1
  omega

/-- An ARRAY record comes from an array tag and names the index type the pass was given. -/
theorem tagRecord_arrayIndex {arrayIndexId typeIdOff : Nat} {tag : Tag} {record : BtfType}
    (encoded : tagRecord arrayIndexId typeIdOff tag = some record) :
    record.arrayIndex = if tag.isArrayType then some arrayIndexId else none := by
  cases tag <;> simp only [tagRecord, Option.some.injEq, reduceCtorEq] at encoded <;>
    subst encoded <;> try rfl
  all_goals unfold compositeRecord; split <;> rfl

/-- With every tag supported, the k-th record is that of the k-th tag. -/
theorem getElem?_filterMap_tagRecord (arrayIndexId typeIdOff : Nat) :
    ∀ {tags : List Tag}, (∀ tag ∈ tags, tag.Supported) → ∀ k : Nat,
      (tags.filterMap (tagRecord arrayIndexId typeIdOff))[k]? =
        tags[k]?.bind (tagRecord arrayIndexId typeIdOff)
  | [], _, _ => rfl
  | tag :: rest, supported, k => by
    obtain ⟨record, encoded⟩ := Option.isSome_iff_exists.1
      ((tagRecord_isSome arrayIndexId typeIdOff tag).2 (supported tag (List.mem_cons_self _ _)))
    have later := getElem?_filterMap_tagRecord arrayIndexId typeIdOff
      (fun tag member => supported tag (List.mem_cons_of_mem _ member))
    cases k with
    | zero => simp [encoded]
    | succ k => simp [encoded, later k]

/-- The index type prepareIndexType gives a CU: the session's, the CU's "int", or the ID just
past the CU's types. -/
theorem prepareIndexType_cases (e : Encoder) (cu : Cu) (typeIdOff : Nat) :
    (prepareIndexType e cu typeIdOff).needIndexType = e.needIndexType ∧
    (e.hasIndexType = true ∧ (prepareIndexType e cu typeIdOff).hasIndexType = true ∧
        (prepareIndexType e cu typeIdOff).arrayIndexId = e.arrayIndexId ∨
      (∃ id, cu.findBaseTypeByName intName = some id ∧
        (prepareIndexType e cu typeIdOff).hasIndexType = true ∧
        (prepareIndexType e cu typeIdOff).arrayIndexId = typeIdOff + id) ∨
      cu.findBaseTypeByName intName = none ∧
        (prepareIndexType e cu typeIdOff).hasIndexType = false ∧
        (prepareIndexType e cu typeIdOff).arrayIndexId = typeIdOff + cu.nrEntries) := by
  unfold prepareIndexType
  split_ifs with has
  · exact ⟨rfl, .inl ⟨has, has, rfl⟩⟩
  · split
    · exact ⟨rfl, .inr (.inl ⟨_, ‹_›, rfl, rfl⟩)⟩
    · exact ⟨rfl, .inr (.inr ⟨‹_›, rfl, rfl⟩)⟩

/-- The index types of a session's ARRAYs, and the globals that fix the index type of the
next CU's arrays. -/
structure IndexTypesAgree (e : Encoder) (w : BtfElf) : Prop where
  arrays : ∀ record ∈ w.types, ∀ index, record.arrayIndex = some index →
    ∃ target, w.record index = some target ∧ IndexRecord target
  indexType : e.hasIndexType = true →
    ∃ target, w.record e.arrayIndexId = some target ∧ IndexRecord target
  needed : e.needIndexType = true → e.hasIndexType = true

/-- A successful body of cu__encode_btf, when the writer takes __ARRAY_SIZE_TYPE__, keeps
every ARRAY of the session naming an index type. -/
theorem encodeCu_indexTypes {env : Env} {e e' : Encoder} {w : BtfElf} {cu : Cu}
    {force skipEncodingVars : Bool}
    (syntheticAccepted : ∀ w, env.rejects w (.addType (.int (some arraySizeTypeName) arraySizeType)) = false)
    (agree : IndexTypesAgree e w) (ok : encodeCu env e w cu force skipEncodingVars = (0, e')) :
    ∃ w', e'.btfe = some w' ∧ w'.filename = w.filename ∧ IndexTypesAgree e' w' := by
  obtain ⟨prepared, indexed, added, infos, preparedEq, supported, shape, taken, noArray, -, -, rfl⟩ :=
    encodeCu_ok ok
  set records := cu.types.filterMap (tagRecord prepared.arrayIndexId w.nrTypes)
  set w' : BtfElf := { w with
    types := w.types ++ records ++ indexed ++ added, percpuSecinfo := w.percpuSecinfo ++ infos }
  have kept : ∀ {id target}, w.record id = some target → w'.record id = some target :=
    fun found => @BtfElf.record_of_prefix w w' (records ++ indexed ++ added) _ _ rfl
      (by simp [w']) found
  have typed : ∀ k, w'.record (w.nrTypes + k + 1) = (records ++ indexed ++ added)[k]? :=
    fun k => @BtfElf.record_appended w w' (records ++ indexed ++ added) k rfl (by simp [w'])
  have recordsLength : records.length = cu.types.length :=
    length_filterMap_tagRecord _ _ supported
  obtain ⟨sameNeed, cases⟩ := prepareIndexType_cases { e with btfElfForce := force } cu w.nrTypes
  rw [← preparedEq] at sameNeed cases
  -- the index type of this CU's arrays is there once the CU is encoded
  have resolved : (prepared.hasIndexType || prepared.needIndexType ||
      cu.types.any Tag.isArrayType) = true →
      ∃ target, w'.record prepared.arrayIndexId = some target ∧ IndexRecord target := by
    intro wanted
    rcases cases with ⟨has, -, same⟩ | ⟨id, found, -, atInt⟩ | ⟨-, hasNot, past⟩
    · obtain ⟨target, found, isIndex⟩ := agree.indexType has
      exact ⟨target, same ▸ kept found, isIndex⟩
    · obtain ⟨info, positive, intTag⟩ := Cu.findBaseTypeByName_some found
      refine ⟨.int (some intName) info, ?_, .inl rfl⟩
      rw [atInt, show w.nrTypes + id = w.nrTypes + (id - 1) + 1 by omega, typed,
        List.append_assoc, List.getElem?_append_left (by
          rw [recordsLength]; exact (List.getElem?_eq_some_iff.1 intTag).1),
        getElem?_filterMap_tagRecord _ _ supported, intTag]
      rfl
    · have needed : (prepared.needIndexType || cu.types.any Tag.isArrayType) = true := by
        simpa [hasNot] using wanted
      have synthesized : indexed = [.int (some arraySizeTypeName) arraySizeType] := by
        rcases shape with empty | ⟨-, -, synthetic⟩
        · exact absurd empty (taken needed hasNot (syntheticAccepted _))
        · exact synthetic
      refine ⟨.int (some arraySizeTypeName) arraySizeType, ?_, .inr ⟨rfl, rfl⟩⟩
      rw [past, Cu.nrEntries, ← recordsLength, ← Nat.add_assoc, typed, synthesized,
        List.append_assoc, List.getElem?_append_right (le_refl _), Nat.sub_self]
      simp
  refine ⟨w', rfl, rfl, ⟨?_, fun has => resolved (by simpa [Bool.or_assoc] using has),
    fun need => by dsimp only at need ⊢; rw [need, Bool.or_true]⟩⟩
  intro record member index isArray
  simp only [w', List.mem_append] at member
  rcases member with ((old | new) | synthetic) | later
  · obtain ⟨target, found, isIndex⟩ := agree.arrays record old index isArray
    exact ⟨target, kept found, isIndex⟩
  · obtain ⟨tag, tagMember, encoded⟩ := List.mem_filterMap.1 new
    rw [tagRecord_arrayIndex encoded] at isArray
    split_ifs at isArray with isArrayTag
    cases isArray
    exact resolved (by simp only [Bool.or_eq_true, List.any_eq_true]; exact .inr ⟨tag, tagMember, isArrayTag⟩)
  · rcases shape with rfl | ⟨-, -, rfl⟩
    · exact absurd synthetic (List.not_mem_nil _)
    · rw [List.mem_singleton.1 synthetic] at isArray
      simp [BtfType.arrayIndex] at isArray
  · simp [BtfType.arrayIndex_of_isDecl (noArray record later)] at isArray

/-- When the writer takes every __ARRAY_SIZE_TYPE__ it is given, every ARRAY a session emits
names as index type a record of the session: an "int" base type of one of its CUs, or the
__ARRAY_SIZE_TYPE__ added after the type pass of the CU that fixed the index type. -/
theorem session_array_index_types (env : Env) (baseBtf : Nat) (e e' : Encoder)
    (first : Cu × Bool × Bool) (rest : List (Cu × Bool × Bool))
    (reachable : Reachable baseBtf e) (idle : e.btfe = none)
    (sameFile : ∀ call ∈ rest, call.1.filename = first.1.filename)
    (ran : runCus env e (first :: rest) = some e')
    (syntheticAccepted :
      ∀ w, env.rejects w (.addType (.int (some arraySizeTypeName) arraySizeType)) = false) :
    ∃ w', e'.btfe = some w' ∧ ∀ record ∈ w'.types, ∀ index, record.arrayIndex = some index →
      ∃ target, w'.record index = some target ∧ IndexRecord target := by
  obtain ⟨table, percpuVars, e1, -, -, -, encoded, ranRest⟩ :=
    runCus_new_session reachable.consistent idle ran
  obtain ⟨w1, active1, sameName, agree1⟩ :=
    encodeCu_indexTypes syntheticAccepted ⟨by simp, by simp, by simp⟩ encoded
  obtain ⟨w', active', agree'⟩ := @runCus_invariant env (fun _ e w => IndexTypesAgree e w)
    (fun agree _ ok => encodeCu_indexTypes syntheticAccepted agree ok) rest [] e1 e' w1 active1
    agree1 (fun call member => sameName ▸ sameFile call member) ranRest
  exact ⟨w', active', agree'.arrays⟩

/-- The globals after encoding that CU twice in one session. -/
def arraySessionEnd : Encoder :=
  (runCus Env.reliable (Encoder.init 0) [(arrayCu, false, false), (arrayCu, false, false)]).getD
    (Encoder.init 0)

/-- Both ARRAYs of the session name the __ARRAY_SIZE_TYPE__ the first CU added. -/
theorem session_array_index_types_on_two_cus :
    Reachable 0 (Encoder.init 0) ∧ (Encoder.init 0).btfe = none ∧
    (∀ call ∈ [(arrayCu, false, false)], call.1.filename = arrayCu.filename) ∧
    runCus Env.reliable (Encoder.init 0) [(arrayCu, false, false), (arrayCu, false, false)] =
      some arraySessionEnd ∧
    (∀ w, Env.reliable.rejects w (.addType (.int (some arraySizeTypeName) arraySizeType)) = false) ∧
    ∃ w', arraySessionEnd.btfe = some w' ∧ ∀ record ∈ w'.types, ∀ index,
      record.arrayIndex = some index → ∃ target, w'.record index = some target ∧ IndexRecord target :=
  ⟨.init, rfl, by decide, by decide, fun _ => rfl,
    session_array_index_types Env.reliable 0 (Encoder.init 0) arraySessionEnd (arrayCu, false, false)
      [(arrayCu, false, false)] .init rfl (by decide) (by decide) fun _ => rfl⟩

/-- A CU of a.o with one pointer to void. -/
def pointerCu : Cu := ⟨.ofAscii "a.o", arrayObjectElf, [.pointerType 0], [], []⟩

/-- A writer that rejects __ARRAY_SIZE_TYPE__ and takes every other call. -/
def rejectsArraySizeType : Env :=
  { Env.reliable with
    rejects := fun _ call => call == .addType (.int (some arraySizeTypeName) arraySizeType) }

/-- The globals after encoding the array CU, then the pointer CU, with that writer. -/
def rejectedSessionEnd : Encoder :=
  (runCus rejectsArraySizeType (Encoder.init 0) [(arrayCu, false, false), (pointerCu, false, false)]).getD
    (Encoder.init 0)

/-- When the writer rejects __ARRAY_SIZE_TYPE__, cu__encode_btf still returns 0 and marks the
session as having an index type: the ARRAY of the first CU names ID 2 as index type, and ID 2
is the PTR of the next CU. -/
theorem array_index_names_pointer :
    runCus rejectsArraySizeType (Encoder.init 0) [(arrayCu, false, false), (pointerCu, false, false)] =
      some rejectedSessionEnd ∧
    rejectedSessionEnd.btfe.map BtfElf.types = some [.array 0 2 2, .ref .ptr 0 none false] ∧
    ∃ w, rejectedSessionEnd.btfe = some w ∧ (BtfType.array 0 2 2).arrayIndex = some 2 ∧
      w.record 2 = some (.ref .ptr 0 none false) ∧ ¬IndexRecord (.ref .ptr 0 none false) :=
  ⟨by decide, by decide, _, rfl, rfl, by decide, nofun⟩

/-! ## How many __ARRAY_SIZE_TYPE__ records a session emits -/

/-- A tag is encoded to a base type record exactly when it is that base type. -/
theorem tagRecord_eq_int {arrayIndexId typeIdOff : Nat} {tag : Tag} {name : Option CStr}
    {info : BaseType} :
    tagRecord arrayIndexId typeIdOff tag = some (.int name info) ↔ tag = .baseType name info := by
  cases tag <;> simp [tagRecord]
  all_goals unfold compositeRecord; split <;> simp

theorem count_filterMap_tagRecord (arrayIndexId typeIdOff : Nat) (name : Option CStr)
    (info : BaseType) :
    ∀ tags : List Tag, (tags.filterMap (tagRecord arrayIndexId typeIdOff)).count (.int name info) =
      tags.count (.baseType name info)
  | [] => rfl
  | tag :: rest => by
    have later := count_filterMap_tagRecord arrayIndexId typeIdOff name info rest
    cases encoded : tagRecord arrayIndexId typeIdOff tag with
    | none =>
      have other : tag ≠ .baseType name info := fun same => by simp [same, tagRecord] at encoded
      simp [List.filterMap_cons, encoded, later, List.count_cons, other]
    | some record =>
      have same : (record == .int name info) = (tag == .baseType name info) := by
        have iff := @tagRecord_eq_int arrayIndexId typeIdOff tag name info
        rw [encoded, Option.some.injEq] at iff
        exact Bool.eq_iff_iff.2 (by simpa only [beq_iff_eq] using iff)
      simp [List.filterMap_cons, encoded, later, List.count_cons, same]

/-- The __ARRAY_SIZE_TYPE__ records of a session's writer: those of the base types of its CUs
of that name and kind, and at most one more, added once some CU had an array. -/
structure SyntheticOnce (done : List Cu) (e : Encoder) (w : BtfElf) : Prop where
  needed : e.needIndexType = done.any fun cu => cu.types.any Tag.isArrayType
  hasNeeded : e.needIndexType = true → e.hasIndexType = true
  count : w.types.count (.int (some arraySizeTypeName) arraySizeType) =
      (done.flatMap Cu.types).count (.baseType (some arraySizeTypeName) arraySizeType) ∨
    w.types.count (.int (some arraySizeTypeName) arraySizeType) =
      (done.flatMap Cu.types).count (.baseType (some arraySizeTypeName) arraySizeType) + 1 ∧
      e.hasIndexType = true ∧ e.needIndexType = true

/-- A successful body of cu__encode_btf adds __ARRAY_SIZE_TYPE__ only when the session has no
index type and an array of the CU needs one. -/
theorem encodeCu_syntheticOnce {env : Env} {done : List Cu} {e e' : Encoder} {w : BtfElf}
    {cu : Cu} {force skipEncodingVars : Bool} (once : SyntheticOnce done e w)
    (ok : encodeCu env e w cu force skipEncodingVars = (0, e')) :
    ∃ w', e'.btfe = some w' ∧ w'.filename = w.filename ∧ SyntheticOnce (done ++ [cu]) e' w' := by
  obtain ⟨prepared, indexed, added, infos, preparedEq, -, shape, -, decl, -, -, rfl⟩ := encodeCu_ok ok
  have sameNeed := (prepareIndexType_cases { e with btfElfForce := force } cu w.nrTypes).1
  rw [← preparedEq] at sameNeed
  have hasKept : e.hasIndexType = true → prepared.hasIndexType = true := fun has => by
    simp [preparedEq, prepareIndexType, has]
  have noDecl : added.count (.int (some arraySizeTypeName) arraySizeType) = 0 :=
    List.count_eq_zero.2 fun member => by simpa [BtfType.isDecl] using decl _ member
  refine ⟨_, rfl, rfl, ⟨?_, fun need => by dsimp only at need ⊢; rw [need, Bool.or_true], ?_⟩⟩
  · simp [sameNeed, once.needed, List.any_append]
  · dsimp only
    simp only [List.count_append, count_filterMap_tagRecord, noDecl, List.flatMap_append,
      List.flatMap_singleton, Nat.add_zero]
    rcases shape with rfl | ⟨needs, hasNot, rfl⟩
    · rcases once.count with same | ⟨more, has, need⟩
      · exact .inl (by simp [same])
      · exact .inr ⟨by simp [more]; omega, by simp [hasKept has], by simp [sameNeed, need]⟩
    · rcases once.count with same | ⟨-, has, -⟩
      · exact .inr ⟨by simp [same], by simp [needs], needs⟩
      · simp [hasKept has] at hasNot

/-- A session emits at most one __ARRAY_SIZE_TYPE__ besides the base types of that name its CUs
hold, and one only when some CU of the session has an array. -/
theorem session_array_size_type_once (env : Env) (baseBtf : Nat) (e e' : Encoder)
    (first : Cu × Bool × Bool) (rest : List (Cu × Bool × Bool))
    (reachable : Reachable baseBtf e) (idle : e.btfe = none)
    (sameFile : ∀ call ∈ rest, call.1.filename = first.1.filename)
    (ran : runCus env e (first :: rest) = some e') :
    ∃ w', e'.btfe = some w' ∧
      (w'.types.count (.int (some arraySizeTypeName) arraySizeType) =
          ((first :: rest).flatMap fun call => call.1.types).count
            (.baseType (some arraySizeTypeName) arraySizeType) ∨
        w'.types.count (.int (some arraySizeTypeName) arraySizeType) =
          ((first :: rest).flatMap fun call => call.1.types).count
            (.baseType (some arraySizeTypeName) arraySizeType) + 1 ∧
          ∃ call ∈ first :: rest, call.1.types.any Tag.isArrayType = true) := by
  obtain ⟨cu, force, skipEncodingVars⟩ := first
  obtain ⟨table, percpuVars, e1, -, -, -, encoded, ranRest⟩ :=
    runCus_new_session reachable.consistent idle ran
  obtain ⟨w1, active1, sameName, once1⟩ :=
    encodeCu_syntheticOnce (show SyntheticOnce [] _ _ by exact ⟨rfl, by simp, .inl rfl⟩) encoded
  obtain ⟨w', active', once'⟩ := runCus_invariant SyntheticOnce
    (fun once _ ok => encodeCu_syntheticOnce once ok) active1 once1
    (fun call member => sameName ▸ sameFile call member) ranRest
  refine ⟨w', active', ?_⟩
  rcases once'.count with same | ⟨more, -, need⟩
  · exact .inl (by simpa [List.flatMap_map] using same)
  · rw [once'.needed] at need
    refine .inr ⟨by simpa [List.flatMap_map] using more, ?_⟩
    simpa [List.any_eq_true] using need

/-- The session of the two array CUs emits one __ARRAY_SIZE_TYPE__. -/
theorem session_array_size_type_once_on_two_cus :
    Reachable 0 (Encoder.init 0) ∧ (Encoder.init 0).btfe = none ∧
    (∀ call ∈ [(arrayCu, false, false)], call.1.filename = arrayCu.filename) ∧
    runCus Env.reliable (Encoder.init 0) [(arrayCu, false, false), (arrayCu, false, false)] =
      some arraySessionEnd ∧
    ∃ w', arraySessionEnd.btfe = some w' ∧
      (w'.types.count (.int (some arraySizeTypeName) arraySizeType) =
          ([(arrayCu, false, false), (arrayCu, false, false)].flatMap fun call => call.1.types).count
            (.baseType (some arraySizeTypeName) arraySizeType) ∨
        w'.types.count (.int (some arraySizeTypeName) arraySizeType) =
          ([(arrayCu, false, false), (arrayCu, false, false)].flatMap fun call => call.1.types).count
            (.baseType (some arraySizeTypeName) arraySizeType) + 1 ∧
          ∃ call ∈ [(arrayCu, false, false), (arrayCu, false, false)],
            call.1.types.any Tag.isArrayType = true) :=
  ⟨.init, rfl, by decide, by decide,
    session_array_size_type_once Env.reliable 0 (Encoder.init 0) arraySessionEnd (arrayCu, false, false)
      [(arrayCu, false, false)] .init rfl (by decide) (by decide)⟩


/-! ## A CU without types, functions or variables

A session needs an index type only once it has one: the body of cu__encode_btf sets
has_index_type whenever need_index_type is set, and a failed call ends the session. So the
__ARRAY_SIZE_TYPE__ step adds nothing for a CU without arrays, and such a CU adds no record.
-/

/-- Within a session, need_index_type is set only once has_index_type is. -/
def Encoder.IndexReady (e : Encoder) : Prop :=
  e.btfe ≠ none → e.needIndexType = true → e.hasIndexType = true

/-- A successful body of cu__encode_btf leaves the session with an index type when its
arrays need one. -/
theorem encodeCu_indexReady {env : Env} {e e' : Encoder} {w : BtfElf} {cu : Cu}
    {force skipEncodingVars : Bool} (ok : encodeCu env e w cu force skipEncodingVars = (0, e')) :
    e'.IndexReady := by
  obtain ⟨prepared, -, -, -, -, -, -, -, -, -, -, rfl⟩ := encodeCu_ok ok
  intro _ need
  simp only at need ⊢
  rw [need, Bool.or_true]

/-- Every call of cu__encode_btf leaves a state where a session needs an index type only
once it has one: a failed call leaves no session. -/
theorem cuEncodeBtf_indexReady (env : Env) (e : Encoder) (cu : Cu) (force skipEncodingVars : Bool) :
    (cuEncodeBtf env e cu force skipEncodingVars).2.1.IndexReady := by
  simp only [cuEncodeBtf]
  split_ifs
  · exact fun active => absurd rfl active
  split
  · rename_i started
    exact fun active => absurd (sessionStart_eq_none started) active
  · split_ifs with startFailed encodeFailed
    · exact fun active => absurd rfl active
    · exact fun active => absurd rfl active
    · exact encodeCu_indexReady (Prod.ext (not_not.1 encodeFailed) rfl)

/-- In every reachable state a session needs an index type only once it has one. -/
theorem Reachable.indexReady {baseBtf : Nat} {e : Encoder} (reachable : Reachable baseBtf e) :
    e.IndexReady :=
  reachable.invariant Encoder.IndexReady (fun active => absurd rfl active)
    (fun env e cu force skipEncodingVars _ => cuEncodeBtf_indexReady env e cu force skipEncodingVars)
    (fun _ _ active => absurd rfl active)

/-- The body of cu__encode_btf on a CU without types, functions or variables succeeds and
keeps the writer, when the session needs an index type only once it has one. -/
theorem encodeCu_of_empty (env : Env) (e : Encoder) (w : BtfElf) {cu : Cu}
    (force skipEncodingVars : Bool) (noTypes : cu.types = []) (noFunctions : cu.functions = [])
    (noVars : cu.vars = []) (ready : e.needIndexType = true → e.hasIndexType = true) :
    (encodeCu env e w cu force skipEncodingVars).1 = 0 ∧
      (encodeCu env e w cu force skipEncodingVars).2.btfe = some w := by
  cases need : e.needIndexType
  · have same := (prepareIndexType_cases { e with btfElfForce := force } cu w.nrTypes).1
    rw [need] at same
    simp [encodeCu, noTypes, noFunctions, noVars, typePass, functionPass, variablePass, addIndexType,
      same, need]
  · have kept : prepareIndexType { e with btfElfForce := force } cu w.nrTypes =
        { e with btfElfForce := force } := if_pos (ready need)
    simp only [encodeCu, kept]
    simp [noTypes, noFunctions, noVars, typePass, functionPass, variablePass, addIndexType, ready need]


/-- A CU without types, functions or variables adds no record. From a reachable state, on a
CU of the session's file, cu__encode_btf returns 0 and keeps the session's writer; a
successful call on a CU of another file, or without a session, leaves the new writer of the
CU's file, which holds no record. -/
theorem empty_cu_adds_no_records (baseBtf : Nat) (e : Encoder) (reachable : Reachable baseBtf e)
    (env : Env) (cu : Cu) (force skipEncodingVars : Bool) (noTypes : cu.types = [])
    (noFunctions : cu.functions = []) (noVars : cu.vars = []) :
    (∀ w, e.btfe = some w → cu.filename = w.filename →
      (cuEncodeBtf env e cu force skipEncodingVars).1 = 0 ∧
        (cuEncodeBtf env e cu force skipEncodingVars).2.1.btfe = some w) ∧
    ((∀ w, e.btfe = some w → cu.filename ≠ w.filename) →
      (cuEncodeBtf env e cu force skipEncodingVars).1 = 0 →
        (cuEncodeBtf env e cu force skipEncodingVars).2.1.btfe =
          some ⟨cu.filename, cu.elf, e.baseBtf, [], []⟩) := by
  constructor
  · intro w active sameFile
    rw [cuEncodeBtf_of_session force skipEncodingVars active sameFile]
    obtain ⟨ok, kept⟩ := encodeCu_of_empty env e w force skipEncodingVars noTypes noFunctions noVars
      (reachable.indexReady (by simp [active]))
    simp [ok, kept]
  · intro other ok
    rcases cuEncodeBtf_ok_cases (Prod.ext ok rfl) with
      ⟨w, active, sameFile, -⟩ | ⟨-, table, percpuVars, encoded⟩
    · exact absurd sameFile (other w active)
    have fromEncoded : (cuEncodeBtf env e cu force skipEncodingVars).2.1 = _ :=
      (congrArg Prod.snd encoded).symm
    rw [fromEncoded]
    refine (encodeCu_of_empty env _ _ force skipEncodingVars noTypes noFunctions noVars ?_).2
    exact fun need => absurd need Bool.false_ne_true

/-- A CU of a.o without types, functions or variables. -/
def emptyCu : Cu := ⟨.ofAscii "a.o", arrayObjectElf, [], [], []⟩

/-- The empty CU after the array CU keeps the session's writer. -/
theorem empty_cu_adds_no_records_after_array_cu :
    Reachable 0 arrayCuEncoded ∧ emptyCu.types = [] ∧ emptyCu.functions = [] ∧ emptyCu.vars = [] ∧
    (∀ w, arrayCuEncoded.btfe = some w → emptyCu.filename = w.filename →
      (cuEncodeBtf Env.reliable arrayCuEncoded emptyCu false false).1 = 0 ∧
        (cuEncodeBtf Env.reliable arrayCuEncoded emptyCu false false).2.1.btfe = some w) ∧
    ((∀ w, arrayCuEncoded.btfe = some w → emptyCu.filename ≠ w.filename) →
      (cuEncodeBtf Env.reliable arrayCuEncoded emptyCu false false).1 = 0 →
        (cuEncodeBtf Env.reliable arrayCuEncoded emptyCu false false).2.1.btfe =
          some ⟨emptyCu.filename, emptyCu.elf, arrayCuEncoded.baseBtf, [], []⟩) :=
  have reachable : Reachable 0 arrayCuEncoded := Reachable.init.after_cuEncodeBtf _ _ _ _
  ⟨reachable, rfl, rfl, rfl,
    empty_cu_adds_no_records 0 arrayCuEncoded reachable Env.reliable emptyCu false false rfl rfl rfl⟩

end Dwarves
