import Dwarves.BtfEncoder.Datasec

/-
The type IDs a session's BTF stores. Every record the encoder adds refers to types by BTF
ID: a core ID of the CU shifted by type_id_off, the FUNC_PROTO just added, the VAR just
added, or the index type of the session's arrays. When the CUs refer only to their own
types and the writer takes __ARRAY_SIZE_TYPE__, no ID of the session's writer, nor of the
DATASEC btf_encoder__encode adds, points past the writer's last type.
-/

namespace Dwarves

/-! ## Core IDs and BTF IDs -/

/-- The core IDs of a prototype: the return type and the parameter types. -/
def Ftype.coreIds (ftype : Ftype) : List Nat := ftype.type :: ftype.params.map Parameter.type

/-- The core IDs a tag refers to: the target of a modifier or typedef, the element type of
an array, the types of the data members of a struct, union or class, the types of a
prototype. -/
def Tag.coreIds : Tag → List Nat
  | .constType type | .pointerType type | .restrictType type | .volatileType type
  | .typedef type _ | .arrayType type _ => [type]
  | .structureType type | .unionType type | .classType type => type.members.map ClassMember.type
  | .subroutineType ftype => ftype.coreIds
  | _ => []

/-- A CU whose tags, functions and variables refer only to void and its own types. -/
structure Cu.WellFormed (cu : Cu) : Prop where
  types : ∀ tag ∈ cu.types, ∀ type ∈ tag.coreIds, type ≤ cu.types.length
  functions : ∀ fn ∈ cu.functions, ∀ type ∈ fn.proto.coreIds, type ≤ cu.types.length
  vars : ∀ var ∈ cu.vars, (var.spec.map VariableSpec.type).getD var.type ≤ cu.types.length

/-- The type IDs a record stores: the referenced type, the element and index types of an
ARRAY, the member types, the types of a FUNC_PROTO as the writer computes them from the
prototype (0 for void, type_id_off + c otherwise), the variables of a DATASEC. -/
def BtfType.typeIds : BtfType → List Nat
  | .ref _ type _ _ | .var type _ _ => [type]
  | .composite _ _ _ members => members.map BtfMember.type
  | .array type index _ => [type, index]
  | .funcProto ftype typeIdOff => ftype.coreIds.map (refTypeId typeIdOff)
  | .datasec _ secinfo => secinfo.map VarSecinfo.type
  | .int _ _ | .enum _ _ _ => []

/-- Every type ID the writer's records and per-CPU section info store names void, a type of
the base BTF or a record of the writer. -/
structure BtfElf.Closed (w : BtfElf) : Prop where
  records : ∀ record ∈ w.types, ∀ id ∈ record.typeIds, id ≤ w.nrTypes
  secinfo : ∀ info ∈ w.percpuSecinfo, info.type ≤ w.nrTypes

/-- A writer w' extends w, and every record and section info entry it has beyond those of w
stores IDs up to its number of types. -/
structure BtfElf.ExtendsClosed (w w' : BtfElf) : Prop where
  types : w.types <+: w'.types
  nrTypes : w.nrTypes ≤ w'.nrTypes
  records : ∀ record ∈ w'.types,
    record ∈ w.types ∨ ∀ id ∈ record.typeIds, id ≤ w'.nrTypes
  secinfo : ∀ info ∈ w'.percpuSecinfo, info ∈ w.percpuSecinfo ∨ info.type ≤ w'.nrTypes

namespace BtfElf

theorem ExtendsClosed.refl (w : BtfElf) : w.ExtendsClosed w :=
  ⟨List.prefix_refl _, le_refl _, fun _ member => .inl member, fun _ member => .inl member⟩

theorem ExtendsClosed.trans {w w' w'' : BtfElf} (first : w.ExtendsClosed w')
    (second : w'.ExtendsClosed w'') : w.ExtendsClosed w'' where
  types := first.types.trans second.types
  nrTypes := first.nrTypes.trans second.nrTypes
  records record member := (second.records record member).elim
    (fun old => (first.records record old).imp_right fun inRange id stored =>
      (inRange id stored).trans second.nrTypes) .inr
  secinfo info member := (second.secinfo info member).elim
    (fun old => (first.secinfo info old).imp_right fun inRange => inRange.trans second.nrTypes) .inr

/-- Extending a closed writer keeps it closed. -/
theorem Closed.extend {w w' : BtfElf} (closed : w.Closed) (grows : w.ExtendsClosed w') :
    w'.Closed where
  records record member id stored := (grows.records record member).elim
    (fun old => (closed.records record old id stored).trans grows.nrTypes) (· id stored)
  secinfo info member := (grows.secinfo info member).elim
    (fun old => (closed.secinfo info old).trans grows.nrTypes) id

/-- A record the writer holds under an ID is at most its number of types. -/
theorem record_le {w : BtfElf} {id : Nat} {target : BtfType} (found : w.record id = some target) :
    id ≤ w.nrTypes := by
  unfold record at found
  split_ifs at found
  have := (List.getElem?_eq_some_iff.1 found).1
  unfold nrTypes
  omega

/-- An add call whose record stores IDs of the writer's types extends the writer. -/
theorem addType_extendsClosed (env : Env) (w : BtfElf) {type : BtfType}
    (inRange : ∀ id ∈ type.typeIds, id ≤ w.nrTypes) :
    w.ExtendsClosed (w.addType env type).2 := by
  rcases addType_spec env w type with ⟨-, rejected⟩ | ⟨-, added⟩
  · rw [rejected]
    exact .refl w
  · rw [added]
    refine ⟨List.prefix_append _ _, by simp [nrTypes], fun record member => ?_,
      fun info member => .inl member⟩
    rcases List.mem_append.1 member with old | new
    · exact .inl old
    · rw [List.mem_singleton.1 new]
      exact .inr fun id stored => (inRange id stored).trans (by simp [nrTypes])

/-- A successful add call returns the writer's new number of types. -/
theorem addType_id {env : Env} {w : BtfElf} {type : BtfType}
    (taken : 0 ≤ (w.addType env type).1) :
    (w.addType env type).1 = ((w.addType env type).2.nrTypes : Int) := by
  rcases addType_spec env w type with ⟨failed, -⟩ | ⟨id, added⟩
  · omega
  · rw [id, added]
    simp [nrTypes, Nat.add_assoc]

end BtfElf

/-- A per-CPU section info entry naming a type of the writer extends the writer. -/
theorem btfElfAddVarSecinfo_extendsClosed (env : Env) (w : BtfElf) {type : Nat}
    (offset size : Nat) (inRange : type ≤ w.nrTypes) :
    w.ExtendsClosed (btfElfAddVarSecinfo env w type offset size).2 := by
  unfold btfElfAddVarSecinfo
  dsimp only
  split
  · exact .refl w
  · refine ⟨List.prefix_refl _, le_refl _, fun _ member => .inl member, fun info member => ?_⟩
    rcases List.mem_append.1 member with old | new
    · exact .inl old
    · rw [List.mem_singleton.1 new]
      exact .inr inRange

/-- A mapped core ID is at most type_id_off past the core ID. -/
theorem refTypeId_le (typeIdOff type : Nat) : refTypeId typeIdOff type ≤ typeIdOff + type := by
  unfold refTypeId
  split <;> omega

/-- The uint32_t of an ID is at most the ID. -/
theorem toU32_le (n : Nat) : toU32 n ≤ n := by
  unfold toU32
  omega

/-! ## The passes -/

/-- A tag's record stores its core IDs shifted by type_id_off, and the index type an ARRAY
is given. -/
theorem tagRecord_typeIds {arrayIndexId typeIdOff bound : Nat} {tag : Tag} {record : BtfType}
    (encoded : tagRecord arrayIndexId typeIdOff tag = some record)
    (inRange : ∀ type ∈ tag.coreIds, type ≤ bound) :
    ∀ id ∈ record.typeIds, id ≤ typeIdOff + bound ∨ record.arrayIndex = some id := by
  have shifted : ∀ type ∈ tag.coreIds, refTypeId typeIdOff type ≤ typeIdOff + bound :=
    fun type core => (refTypeId_le _ _).trans (Nat.add_le_add_left (inRange type core) _)
  have members : ∀ kind (type : CompositeType),
      (∀ member ∈ type.members, member.type ≤ bound) →
      ∀ id ∈ (compositeRecord kind type typeIdOff).typeIds, id ≤ typeIdOff + bound := by
    intro kind type inMembers id stored
    unfold compositeRecord at stored
    split at stored
    · simp only [BtfType.typeIds, List.mem_singleton] at stored
      omega
    · simp only [BtfType.typeIds, List.map_map, List.mem_map, Function.comp_apply,
        memberRecord] at stored
      obtain ⟨member, present, rfl⟩ := stored
      exact Nat.add_le_add_left (inMembers member present) _
  intro id stored
  cases tag with
  | constType type | pointerType type | restrictType type | volatileType type | typedef type _ =>
    simp only [tagRecord, Option.some.injEq] at encoded
    subst encoded
    simp only [BtfType.typeIds, List.mem_singleton] at stored
    exact .inl (stored ▸ shifted type (List.mem_singleton_self _))
  | structureType type | unionType type | classType type =>
    simp only [tagRecord, Option.some.injEq] at encoded
    subst encoded
    exact .inl (members _ _ (fun member present => inRange _ (List.mem_map_of_mem _ present)) id
      stored)
  | arrayType type nrEntries =>
    simp only [tagRecord, Option.some.injEq] at encoded
    subst encoded
    simp only [BtfType.typeIds, List.mem_cons, List.mem_singleton, List.not_mem_nil,
      or_false] at stored
    rcases stored with rfl | rfl
    · exact .inl (shifted _ (List.mem_singleton_self _))
    · exact .inr rfl
  | subroutineType ftype =>
    simp only [tagRecord, Option.some.injEq] at encoded
    subst encoded
    obtain ⟨type, core, rfl⟩ := List.mem_map.1 stored
    exact .inl (shifted type core)
  | baseType | enumerationType =>
    simp only [tagRecord, Option.some.injEq] at encoded
    subst encoded
    simp [BtfType.typeIds] at stored
  | other => simp [tagRecord] at encoded

/-- A successful function pass adds FUNC_PROTOs of types of the writer and FUNCs naming the
FUNC_PROTO just added. -/
theorem functionPass_extendsClosed (env : Env) {typeIdOff bound : Nat} :
    ∀ {fns : List Function} {w w' : BtfElf} {t t' : FunctionTable},
      (∀ fn ∈ fns, ∀ type ∈ fn.proto.coreIds, type ≤ bound) →
      typeIdOff + bound ≤ w.nrTypes →
      functionPass env typeIdOff fns w t = (0, w', t') → w.ExtendsClosed w'
  | [], w, w', t, t', _, _, ok => by
    simp only [functionPass, Prod.mk.injEq, true_and] at ok
    exact ok.1 ▸ .refl w
  | fn :: rest, w, w', t, t', inRange, below, ok => by
    have later := @functionPass_extendsClosed env typeIdOff bound rest
    have restInRange := fun fn member => inRange fn (List.mem_cons_of_mem _ member)
    simp only [functionPass] at ok
    by_cases selected : (selectFunction t fn).1
    · rw [if_pos selected] at ok
      generalize protoEq : btfElfAddFuncProto env w fn.proto typeIdOff = proto at ok
      generalize funcEq : btfElfAddRefType env proto.2 .func (toU32 proto.1) (some fn.name)
        false = func at ok
      by_cases failed : proto.1 < 0 ∨ func.1 < 0
      · rw [if_pos failed] at ok
        simp at ok
      rw [if_neg failed, not_or, not_lt, not_lt] at *
      have protoGrows : w.ExtendsClosed proto.2 := by
        rw [← protoEq]
        refine BtfElf.addType_extendsClosed env w fun id stored => ?_
        obtain ⟨type, core, rfl⟩ := List.mem_map.1 stored
        have := inRange fn (List.mem_cons_self _ _) type core
        exact (refTypeId_le _ _).trans (by omega)
      have protoId : proto.1 = (proto.2.nrTypes : Int) := by
        rw [← protoEq] at failed ⊢
        exact BtfElf.addType_id failed.1
      have funcGrows : proto.2.ExtendsClosed func.2 := by
        rw [← funcEq]
        refine BtfElf.addType_extendsClosed env proto.2 fun id stored => ?_
        simp only [BtfType.typeIds, List.mem_singleton] at stored
        exact stored ▸ protoId ▸ toU32_le _
      have grows := protoGrows.trans funcGrows
      exact grows.trans (later restInRange (below.trans grows.nrTypes) ok)
    · rw [if_neg selected] at ok
      exact later restInRange below ok

/-- A successful variable pass adds VARs of types of the writer and section info entries
naming the VAR just added. -/
theorem variablePass_extendsClosed (env : Env) (percpuVars : List VarInfo) (force : Bool)
    {typeIdOff bound : Nat} :
    ∀ {vars : List Variable} {w w' : BtfElf},
      (∀ var ∈ vars, (var.spec.map VariableSpec.type).getD var.type ≤ bound) →
      typeIdOff + bound ≤ w.nrTypes →
      variablePass env percpuVars force typeIdOff vars w = (0, w') → w.ExtendsClosed w'
  | [], w, w', _, _, ok => by
    simp only [variablePass, Prod.mk.injEq, true_and] at ok
    exact ok ▸ .refl w
  | var :: rest, w, w', inRange, below, ok => by
    have later := @variablePass_extendsClosed env percpuVars force typeIdOff bound rest
    have restInRange := fun var member => inRange var (List.mem_cons_of_mem _ member)
    simp only [variablePass] at ok
    by_cases skipped : var.declaration = true ∧ var.spec = none
    · rw [if_pos skipped] at ok
      exact later restInRange below ok
    rw [if_neg skipped] at ok
    by_cases notGlobal : var.scope ≠ .vscopeGlobal ∧ var.spec = none
    · rw [if_pos notGlobal] at ok
      exact later restInRange below ok
    rw [if_neg notGlobal] at ok
    generalize percpuVarExists percpuVars var.addr = entry at ok
    rcases entry with _ | ⟨size, name⟩
    · exact later restInRange below ok
    dsimp only at ok
    have typeInRange := inRange var (List.mem_cons_self _ _)
    generalize (var.spec.map VariableSpec.type).getD var.type = type at ok typeInRange
    by_cases void : type = 0
    · rw [if_pos void] at ok
      by_cases forced : force = true
      · rw [if_pos forced] at ok
        exact later restInRange below ok
      · rw [if_neg forced] at ok
        simp at ok
    rw [if_neg void] at ok
    generalize (if (var.spec.map VariableSpec.external).getD var.external then
      Linkage.globalAllocated else .static) = linkage at ok
    generalize idEq : btfElfAddVarType env w (type + typeIdOff) name linkage = id at ok
    by_cases failed : id.1 < 0
    · rw [if_pos failed] at ok
      simp at ok
    rw [if_neg failed] at ok
    split at ok
    · simp at ok
    have varGrows : w.ExtendsClosed id.2 := by
      rw [← idEq]
      refine BtfElf.addType_extendsClosed env w fun stored member => ?_
      simp only [BtfType.typeIds, List.mem_singleton] at member
      omega
    have varId : id.1 = (id.2.nrTypes : Int) := by
      rw [← idEq] at failed ⊢
      exact BtfElf.addType_id (not_lt.1 failed)
    have grows := varGrows.trans
      (btfElfAddVarSecinfo_extendsClosed env id.2 (ulongSub var.addr w.elf.percpuBaseAddr % 2 ^ 32)
        size (varId ▸ toU32_le _))
    exact grows.trans (later restInRange (below.trans grows.nrTypes) ok)

/-- The writer a successful body of cu__encode_btf leaves: its function pass, and its
variable pass unless it skips it, run on the writer with the records of the CU's types and
possibly __ARRAY_SIZE_TYPE__. -/
theorem encodeCu_passes {env : Env} {e e' : Encoder} {w : BtfElf} {cu : Cu}
    {force skipEncodingVars : Bool} (ok : encodeCu env e w cu force skipEncodingVars = (0, e')) :
    ∃ (prepared : Encoder) (indexed : List BtfType) (w3 : BtfElf) (t3 : FunctionTable),
      prepared = prepareIndexType { e with btfElfForce := force } cu w.nrTypes ∧
      (∀ tag ∈ cu.types, tag.Supported) ∧
      (∀ record ∈ indexed, record = .int (some arraySizeTypeName) arraySizeType) ∧
      functionPass env w.nrTypes cu.functions
        { w with
          types := w.types ++ cu.types.filterMap (tagRecord prepared.arrayIndexId w.nrTypes) ++
            indexed }
        prepared.table = (0, w3, t3) ∧
      (e'.btfe = some w3 ∨
        ∃ w4, variablePass env prepared.percpuVars force w.nrTypes cu.vars w3 = (0, w4) ∧
          e'.btfe = some w4) := by
  simp only [encodeCu] at ok
  generalize preparedEq : prepareIndexType { e with btfElfForce := force } cu w.nrTypes =
    prepared at ok
  rcases typePass_spec env prepared.arrayIndexId w.nrTypes cu.types 1 w prepared.needIndexType rfl
    with ⟨supported, run⟩ | ⟨failed, -⟩
  · rw [run] at ok
    simp only [ne_eq, not_true_eq_false, if_false] at ok
    obtain ⟨indexed, indexedEq, shape, -⟩ := addIndexType_spec env
      { prepared with
        btfe := some { w with
          types := w.types ++ cu.types.filterMap (tagRecord prepared.arrayIndexId w.nrTypes) },
        needIndexType := prepared.needIndexType || cu.types.any Tag.isArrayType }
      { w with types := w.types ++ cu.types.filterMap (tagRecord prepared.arrayIndexId w.nrTypes) }
    rw [indexedEq] at ok
    simp only at ok
    generalize functionsEq : functionPass env w.nrTypes cu.functions
      { w with types := w.types ++ cu.types.filterMap (tagRecord prepared.arrayIndexId w.nrTypes) ++
        indexed } prepared.table = functions at ok
    obtain ⟨result, w3, t3⟩ := functions
    simp only at ok
    split at ok
    · simp at ok
    rename_i passed
    obtain rfl : result = 0 := by simpa using passed
    have synthetic :
        ∀ record ∈ indexed, record = .int (some arraySizeTypeName) arraySizeType := by
      rcases shape with rfl | ⟨-, -, rfl⟩ <;> simp
    refine ⟨prepared, indexed, w3, t3, rfl, supported, synthetic, functionsEq, ?_⟩
    split at ok
    · exact .inl (by rw [← (Prod.mk.inj ok).2])
    · generalize varsEq :
        variablePass env prepared.percpuVars force w.nrTypes cu.vars w3 = vars at ok
      obtain ⟨result, w4⟩ := vars
      simp only [Prod.mk.injEq] at ok
      obtain ⟨rfl, rfl⟩ := ok
      exact .inr ⟨w4, rfl, rfl⟩
  · rw [if_pos (by omega)] at ok
    simp at ok

/-! ## Stable IDs -/

/-- An add call only appends. -/
theorem BtfElf.addType_appends (env : Env) (w : BtfElf) (type : BtfType) :
    (w.addType env type).2.baseNrTypes = w.baseNrTypes ∧
      w.types <+: (w.addType env type).2.types := by
  rcases addType_spec env w type with ⟨-, rejected⟩ | ⟨-, added⟩
  · rw [rejected]
    exact ⟨rfl, List.prefix_refl _⟩
  · rw [added]
    exact ⟨rfl, List.prefix_append _ _⟩

/-- A writer that only appended has at least the IDs it had. -/
theorem BtfElf.nrTypes_le_of_prefix {w w' : BtfElf} (base : w'.baseNrTypes = w.baseNrTypes)
    (grows : w.types <+: w'.types) : w.nrTypes ≤ w'.nrTypes := by
  unfold nrTypes
  rw [base]
  exact Nat.add_le_add_left grows.length_le _

/-- A successful body of cu__encode_btf only appends to the session's writer. -/
theorem encodeCu_appends {env : Env} {e e' : Encoder} {w : BtfElf} {cu : Cu}
    {force skipEncodingVars : Bool} (ok : encodeCu env e w cu force skipEncodingVars = (0, e')) :
    ∃ w', e'.btfe = some w' ∧ w'.filename = w.filename ∧ w'.baseNrTypes = w.baseNrTypes ∧
      w.types <+: w'.types := by
  obtain ⟨-, -, -, -, -, -, -, -, -, -, -, rfl⟩ := encodeCu_ok ok
  refine ⟨_, rfl, rfl, rfl, ?_⟩
  simp only [List.append_assoc]
  exact List.prefix_append _ _

/-- btf_encoder__encode flushes its writer, at most with one more record. -/
theorem btfEncoderEncode_appends (env : Env) (e : Encoder) (w : BtfElf) :
    ∀ flushed ∈ (btfEncoderEncode env e w).2.2,
      flushed.baseNrTypes = w.baseNrTypes ∧ w.types <+: flushed.types := by
  intro flushed member
  simp only [btfEncoderEncode, Option.mem_def, ite_eq_left_iff, reduceCtorEq, imp_false,
    not_not] at member
  split_ifs at member <;> obtain rfl := Option.some.inj member
  · exact BtfElf.addType_appends env w _
  · exact ⟨rfl, List.prefix_refl _⟩

/-- Within a session no call moves or changes a record: under any rejections of the writer,
every record of the session's writer keeps its ID through every later successful call on
a CU of the session's file, and in the writer btf_encoder__encode flushes. -/
theorem session_keeps_record_ids (env : Env) (e e' : Encoder) (w : BtfElf)
    (calls : List (Cu × Bool × Bool)) (active : e.btfe = some w)
    (sameFile : ∀ call ∈ calls, call.1.filename = w.filename)
    (ran : runCus env e calls = some e') :
    ∃ w', e'.btfe = some w' ∧ ∀ id target, w.record id = some target →
      w'.record id = some target ∧
      ∀ flushed ∈ (btfEncoderEncode env e' w').2.2, flushed.record id = some target := by
  obtain ⟨w', active', base, more, grown⟩ := @runCus_invariant env
    (fun _ _ w' => w'.baseNrTypes = w.baseNrTypes ∧ w.types <+: w'.types)
    (fun ⟨base, grows⟩ _ ok => by
      obtain ⟨w'', active'', sameName, base', grows'⟩ := encodeCu_appends ok
      exact ⟨w'', active'', sameName, base'.trans base, grows.trans grows'⟩)
    calls [] e e' w active ⟨rfl, List.prefix_refl _⟩ sameFile ran
  refine ⟨w', active', fun id target found =>
    ⟨BtfElf.record_of_prefix base grown.symm found, fun flushed member => ?_⟩⟩
  obtain ⟨flushedBase, flushedGrows⟩ := btfEncoderEncode_appends env e' w' flushed member
  obtain ⟨tail, flushedTypes⟩ := (List.prefix_append w.types more).trans
    (grown ▸ flushedGrows)
  exact BtfElf.record_of_prefix (flushedBase.trans base) flushedTypes.symm found

/-- The writer after the array CU: its ARRAY and the __ARRAY_SIZE_TYPE__ it names. -/
def arrayCuWriter : BtfElf :=
  ⟨.ofAscii "a.o", arrayObjectElf, 0,
    [.array 0 2 2, .int (some arraySizeTypeName) arraySizeType], []⟩

/-- Encoding the array CU once more keeps both records of the session. -/
theorem session_keeps_record_ids_on_array_cu :
    arrayCuEncoded.btfe = some arrayCuWriter ∧
    (∀ call ∈ [(arrayCu, false, false)], call.1.filename = arrayCuWriter.filename) ∧
    runCus Env.reliable arrayCuEncoded [(arrayCu, false, false)] = some arraySessionEnd ∧
    ∃ w', arraySessionEnd.btfe = some w' ∧
      ∀ id target, arrayCuWriter.record id = some target → w'.record id = some target ∧
      ∀ flushed ∈ (btfEncoderEncode Env.reliable arraySessionEnd w').2.2,
        flushed.record id = some target :=
  ⟨by decide, by decide, by decide,
    session_keeps_record_ids Env.reliable arrayCuEncoded arraySessionEnd arrayCuWriter
      [(arrayCu, false, false)] (by decide) (by decide) (by decide)⟩

/-! ## Runs from the idle state -/

/-- A run from the idle state starts a session with the first CU's fresh writer, and the
tables collect_symbols leaves, and encodes every CU into it: it keeps any invariant of the
CUs encoded so far that the fresh writer has and that every successful body of
cu__encode_btf keeps. -/
theorem runCus_from_idle {env : Env} (inv : List Cu → Encoder → BtfElf → Prop)
    (keeps : ∀ {done : List Cu} {e e' : Encoder} {w : BtfElf} {cu : Cu}
      {force skipEncodingVars : Bool}, inv done e w → e.btfe = some w →
      encodeCu env e w cu force skipEncodingVars = (0, e') →
      ∃ w', e'.btfe = some w' ∧ w'.filename = w.filename ∧ inv (done ++ [cu]) e' w')
    {e e' : Encoder} {first : Cu × Bool × Bool} {rest : List (Cu × Bool × Bool)}
    (fresh : ∀ {e1 : Encoder}, e1.hasIndexType = false → e1.needIndexType = false →
      collectSymbols env first.1.elf e.btfElfForce (!first.2.2) e.table =
        (0, e1.table, e1.percpuVars) →
      inv [] e1 ⟨first.1.filename, first.1.elf, e.baseBtf, [], []⟩)
    (idle : e.btfe = none) (sameFile : ∀ call ∈ rest, call.1.filename = first.1.filename)
    (ran : runCus env e (first :: rest) = some e') :
    ∃ w', e'.btfe = some w' ∧ inv ((first :: rest).map Prod.fst) e' w' := by
  obtain ⟨cu, force, skipEncodingVars⟩ := first
  simp only [runCus] at ran
  split_ifs at ran with started
  obtain ⟨table, percpuVars, -, collected, encoded, -⟩ :=
    cuEncodeBtf_new_session idle (Prod.ext started rfl)
  obtain ⟨w1, active1, sameName, holds1⟩ := keeps (fresh rfl rfl collected) rfl encoded
  exact runCus_invariant inv keeps active1 holds1
    (fun call member => sameName ▸ sameFile call member) ran

/-! ## FUNC records -/

/-- Every FUNC of the writer named n stores the ID of the record just before it, a
FUNC_PROTO of the prototype of a function named n of one of the CUs. -/
def BtfElf.FuncsNameProtos (w : BtfElf) (cus : List Cu) : Prop :=
  ∀ id type name kindFlag, w.record id = some (.ref .func type (some name) kindFlag) →
    type + 1 = id ∧ ∃ cu ∈ cus, ∃ fn ∈ cu.functions, name = fn.name ∧
      ∃ typeIdOff, w.record type = some (.funcProto fn.proto typeIdOff)

/-- Appending keeps the records of the IDs there were. -/
theorem BtfElf.record_append_old {w w' : BtfElf} {more : List BtfType} {id : Nat}
    (base : w'.baseNrTypes = w.baseNrTypes) (types : w'.types = w.types ++ more)
    (old : id ≤ w.nrTypes) : w'.record id = w.record id := by
  unfold record
  unfold nrTypes at old
  rw [base, types]
  split_ifs
  · exact List.getElem?_append_left (by omega)
  · rfl

namespace BtfElf.FuncsNameProtos

/-- A FUNC among the records a writer had keeps what it names. -/
theorem of_old {w w' : BtfElf} {cus : List Cu} (funcs : w.FuncsNameProtos cus)
    {more : List BtfType} (base : w'.baseNrTypes = w.baseNrTypes)
    (types : w'.types = w.types ++ more) {id type name kindFlag}
    (found : w'.record id = some (.ref .func type (some name) kindFlag)) (old : id ≤ w.nrTypes) :
    type + 1 = id ∧ ∃ cu ∈ cus, ∃ fn ∈ cu.functions, name = fn.name ∧
      ∃ typeIdOff, w'.record type = some (.funcProto fn.proto typeIdOff) := by
  rw [record_append_old base types old] at found
  obtain ⟨next, cu, cuMember, fn, fnMember, named, typeIdOff, proto⟩ :=
    funcs id type name kindFlag found
  exact ⟨next, cu, cuMember, fn, fnMember, named, typeIdOff, record_of_prefix base types proto⟩

/-- Appending records without a FUNC name keeps every FUNC naming its FUNC_PROTO. -/
theorem append {w w' : BtfElf} {cus : List Cu} (funcs : w.FuncsNameProtos cus)
    {more : List BtfType} (base : w'.baseNrTypes = w.baseNrTypes)
    (types : w'.types = w.types ++ more) (unnamed : ∀ record ∈ more, record.funcName = none) :
    w'.FuncsNameProtos cus := by
  intro id type name kindFlag found
  by_cases old : id ≤ w.nrTypes
  · exact funcs.of_old base types found old
  · obtain ⟨k, rfl⟩ : ∃ k, id = w.nrTypes + k + 1 := ⟨id - w.nrTypes - 1, by omega⟩
    rw [record_appended k base types] at found
    simpa [BtfType.funcName] using unnamed _ (List.getElem?_mem found)

/-- Appending the FUNC of a function just after the FUNC_PROTO of its prototype keeps every
FUNC naming its FUNC_PROTO. -/
theorem appendFunc {w w' : BtfElf} {cus : List Cu} (funcs : w.FuncsNameProtos cus) {cu : Cu}
    {fn : Function} {typeIdOff : Nat} (cuMember : cu ∈ cus) (fnMember : fn ∈ cu.functions)
    (proto : w.record w.nrTypes = some (.funcProto fn.proto typeIdOff))
    (base : w'.baseNrTypes = w.baseNrTypes)
    (types : w'.types = w.types ++ [.ref .func w.nrTypes (some fn.name) false]) :
    w'.FuncsNameProtos cus := by
  intro id type name kindFlag found
  by_cases old : id ≤ w.nrTypes
  · exact funcs.of_old base types found old
  · obtain ⟨k, rfl⟩ : ∃ k, id = w.nrTypes + k + 1 := ⟨id - w.nrTypes - 1, by omega⟩
    rw [record_appended k base types] at found
    cases k with
    | zero =>
      obtain ⟨rfl, rfl, -⟩ := by simpa using found
      exact ⟨rfl, cu, cuMember, fn, fnMember, rfl, typeIdOff, record_of_prefix base types proto⟩
    | succ k => simp at found

/-- The CUs a FUNC_PROTO's function comes from can grow. -/
theorem mono {w : BtfElf} {cus cus' : List Cu} (funcs : w.FuncsNameProtos cus)
    (more : ∀ cu ∈ cus, cu ∈ cus') : w.FuncsNameProtos cus' := by
  intro id type name kindFlag found
  obtain ⟨next, cu, cuMember, rest⟩ := funcs id type name kindFlag found
  exact ⟨next, cu, more cu cuMember, rest⟩

end BtfElf.FuncsNameProtos

/-- A successful function pass only appends. -/
theorem functionPass_nrTypes_le {env : Env} {typeIdOff : Nat} {fns : List Function}
    {w w' : BtfElf} {t t' : FunctionTable} (ok : functionPass env typeIdOff fns w t = (0, w', t')) :
    w.nrTypes ≤ w'.nrTypes := by
  obtain ⟨added, rfl, -⟩ := functionPass_ok env typeIdOff ok
  simp [BtfElf.nrTypes]

/-- A successful function pass on functions of a CU, while IDs fit in 32 bits, adds each
FUNC just after the FUNC_PROTO of its function's prototype. -/
theorem functionPass_funcsNameProtos (env : Env) {typeIdOff : Nat} {cus : List Cu} {cu : Cu}
    (cuMember : cu ∈ cus) :
    ∀ {fns : List Function} {w w' : BtfElf} {t t' : FunctionTable},
      (∀ fn ∈ fns, fn ∈ cu.functions) → w'.nrTypes < 2 ^ 32 → w.FuncsNameProtos cus →
      functionPass env typeIdOff fns w t = (0, w', t') → w'.FuncsNameProtos cus
  | [], w, w', t, t', _, _, funcs, ok => by
    simp only [functionPass, Prod.mk.injEq, true_and] at ok
    exact ok.1 ▸ funcs
  | fn :: rest, w, w', t, t', members, fits, funcs, ok => by
    have later := @functionPass_funcsNameProtos env typeIdOff cus cu cuMember rest
    have restMembers := fun fn member => members fn (List.mem_cons_of_mem _ member)
    simp only [functionPass] at ok
    by_cases selected : (selectFunction t fn).1
    · rw [if_pos selected] at ok
      rcases BtfElf.addType_result env w (.funcProto fn.proto typeIdOff) with
        proto | ⟨failed, -⟩
      · set w1 : BtfElf := { w with types := w.types ++ [.funcProto fn.proto typeIdOff] }
        rcases BtfElf.addType_result env w1
            (.ref .func (toU32 (w.nrTypes + 1 : Nat)) (some fn.name) false) with
          func | ⟨failed, -⟩
        · simp only [btfElfAddFuncProto, btfElfAddRefType, proto, func] at ok
          rw [if_neg (by omega)] at ok
          have small : w.nrTypes + 1 < 2 ^ 32 := by
            have := functionPass_nrTypes_le ok
            simp only [BtfElf.nrTypes, List.length_append, List.length_singleton] at this fits ⊢
            omega
          have first : w1.nrTypes = w.nrTypes + 1 := by simp [w1, BtfElf.nrTypes, Nat.add_assoc]
          have protoFuncs : w1.FuncsNameProtos cus :=
            funcs.append rfl rfl (by simp [BtfType.funcName])
          have protoAt : w1.record w1.nrTypes = some (.funcProto fn.proto typeIdOff) := by
            rw [first]
            exact @BtfElf.record_appended w w1 [.funcProto fn.proto typeIdOff] 0 rfl rfl
          refine later restMembers fits ?_ ok
          refine protoFuncs.appendFunc cuMember (members fn (List.mem_cons_self _ _)) protoAt rfl ?_
          rw [toU32_of_lt small, first]
        · simp only [btfElfAddFuncProto, btfElfAddRefType, proto] at ok
          rw [if_pos (.inr (by omega))] at ok
          simp at ok
      · simp only [btfElfAddFuncProto] at ok
        rw [if_pos (.inl (by omega))] at ok
        simp at ok
    · rw [if_neg selected] at ok
      exact later restMembers fits funcs ok

/-- A successful body of cu__encode_btf, while IDs fit in 32 bits, keeps every FUNC of the
session's writer naming the FUNC_PROTO of its function's prototype. -/
theorem encodeCu_funcsNameProtos {env : Env} {e e' : Encoder} {w : BtfElf} {cu : Cu}
    {force skipEncodingVars : Bool} {cus : List Cu} (cuMember : cu ∈ cus)
    (funcs : w.nrTypes < 2 ^ 32 → w.FuncsNameProtos cus)
    (ok : encodeCu env e w cu force skipEncodingVars = (0, e')) :
    ∃ w', e'.btfe = some w' ∧ w'.filename = w.filename ∧
      (w'.nrTypes < 2 ^ 32 → w'.FuncsNameProtos cus) := by
  obtain ⟨w', active, sameName, base, grows⟩ := encodeCu_appends ok
  refine ⟨w', active, sameName, fun fits => ?_⟩
  replace funcs := funcs ((BtfElf.nrTypes_le_of_prefix base grows).trans_lt fits)
  obtain ⟨prepared, indexed, w3, t3, -, -, synthetic, functions, vars⟩ := encodeCu_passes ok
  have typed : BtfElf.FuncsNameProtos
      { w with
        types := w.types ++ cu.types.filterMap (tagRecord prepared.arrayIndexId w.nrTypes) ++
          indexed }
      cus := by
    refine funcs.append rfl (List.append_assoc _ _ _) fun record member => ?_
    rcases List.mem_append.1 member with tagged | indexType
    · obtain ⟨tag, -, encoded⟩ := List.mem_filterMap.1 tagged
      exact tagRecord_funcName encoded
    · rw [synthetic record indexType]
      rfl
  rcases vars with found | ⟨w4, ran, found⟩ <;> rw [active] at found <;> cases found
  · exact functionPass_funcsNameProtos env cuMember (fun _ member => member) fits typed functions
  · obtain ⟨added, infos, rfl, unnamed, -⟩ := variablePass_ok env _ _ _ ran
    have small : w3.nrTypes < 2 ^ 32 := lt_of_le_of_lt (by simp [BtfElf.nrTypes]) fits
    exact (functionPass_funcsNameProtos env cuMember (fun _ member => member) small typed
      functions).append rfl rfl (List.filterMap_eq_nil_iff.1 unnamed)

/-- While its IDs fit in 32 bits, under any rejections of the writer, every FUNC named n
that a session of successfully encoded CUs emits stores the ID of the record just before
it, the FUNC_PROTO of the prototype of a function named n of one of the session's CUs; so
does the writer btf_encoder__encode flushes. -/
theorem session_funcs_name_protos (env : Env) (e e' : Encoder) (first : Cu × Bool × Bool)
    (rest : List (Cu × Bool × Bool)) (idle : e.btfe = none)
    (sameFile : ∀ call ∈ rest, call.1.filename = first.1.filename)
    (ran : runCus env e (first :: rest) = some e') :
    ∃ w', e'.btfe = some w' ∧
      (w'.nrTypes < 2 ^ 32 → w'.FuncsNameProtos ((first :: rest).map Prod.fst)) ∧
      ∀ flushed ∈ (btfEncoderEncode env e' w').2.2,
        flushed.nrTypes < 2 ^ 32 → flushed.FuncsNameProtos ((first :: rest).map Prod.fst) := by
  obtain ⟨w', active', holds⟩ := runCus_from_idle
    (fun done _ w => w.nrTypes < 2 ^ 32 → w.FuncsNameProtos done)
    (fun holds _ ok => encodeCu_funcsNameProtos
      (List.mem_append_right _ (List.mem_singleton_self _))
      (fun fits => (holds fits).mono fun _ member => List.mem_append_left _ member) ok)
    (fun _ _ _ _ _ _ _ _ found => by simp [BtfElf.record] at found) idle sameFile ran
  refine ⟨w', active', holds, fun flushed member fits => ?_⟩
  obtain ⟨base, grows⟩ := btfEncoderEncode_appends env e' w' flushed member
  have funcs := holds ((BtfElf.nrTypes_le_of_prefix base grows).trans_lt fits)
  rcases (btfEncoderEncode_flushed env e' w' flushed member).2 with same | datasec
  · exact funcs.append base (same.trans (List.append_nil _).symm) (by simp)
  · exact funcs.append base datasec (by simp [BtfType.funcName])

/-- A CU of a.o defining one external function f of no parameters. -/
def externalFunctionCu : Cu :=
  ⟨.ofAscii "a.o", arrayObjectElf, [], [⟨.ofAscii "f", false, true, ⟨0, []⟩⟩], []⟩

/-- The globals after encoding that CU. -/
def externalFunctionEncoded : Encoder :=
  (cuEncodeBtf Env.reliable (Encoder.init 0) externalFunctionCu false false).2.1

/-- The session of that CU: a.o has no symbols, so the function pass falls back to the
external definitions and emits f, whose FUNC names the FUNC_PROTO of its prototype. -/
theorem session_funcs_name_protos_on_external_function :
    (Encoder.init 0).btfe = none ∧
    (∀ call ∈ ([] : List (Cu × Bool × Bool)), call.1.filename = externalFunctionCu.filename) ∧
    runCus Env.reliable (Encoder.init 0) [(externalFunctionCu, false, false)] =
      some externalFunctionEncoded ∧
    (externalFunctionEncoded.btfe.map fun w => funcNames w.types) = some [.ofAscii "f"] ∧
    ∃ w', externalFunctionEncoded.btfe = some w' ∧
      (w'.nrTypes < 2 ^ 32 → w'.FuncsNameProtos [externalFunctionCu]) ∧
      ∀ flushed ∈ (btfEncoderEncode Env.reliable externalFunctionEncoded w').2.2,
        flushed.nrTypes < 2 ^ 32 → flushed.FuncsNameProtos [externalFunctionCu] :=
  ⟨rfl, by simp, by decide, by decide,
    session_funcs_name_protos Env.reliable (Encoder.init 0) externalFunctionEncoded
      (externalFunctionCu, false, false) [] rfl (by simp) (by decide)⟩

/-! ## Sessions -/

/-- A successful body of cu__encode_btf on a well-formed CU, when the writer takes
__ARRAY_SIZE_TYPE__, keeps the session's writer closed. -/
theorem encodeCu_closed {env : Env} {e e' : Encoder} {w : BtfElf} {cu : Cu}
    {force skipEncodingVars : Bool}
    (syntheticAccepted :
      ∀ w, env.rejects w (.addType (.int (some arraySizeTypeName) arraySizeType)) = false)
    (agree : IndexTypesAgree e w) (closed : w.Closed) (wellFormed : cu.WellFormed)
    (ok : encodeCu env e w cu force skipEncodingVars = (0, e')) :
    ∃ w', e'.btfe = some w' ∧ w'.Closed := by
  obtain ⟨w', active, -, agree'⟩ := encodeCu_indexTypes syntheticAccepted agree ok
  obtain ⟨prepared, indexed, w3, t3, -, supported, synthetic, functions, vars⟩ :=
    encodeCu_passes ok
  set records := cu.types.filterMap (tagRecord prepared.arrayIndexId w.nrTypes)
  set w2 : BtfElf := { w with types := w.types ++ records ++ indexed }
  have below : w.nrTypes + cu.types.length ≤ w2.nrTypes := by
    simp only [w2, BtfElf.nrTypes, List.length_append, records,
      length_filterMap_tagRecord _ _ supported]
    omega
  -- the passes extend the writer with the records of the CU's types
  have grows : w2.ExtendsClosed w' := by
    have functionsGrow := functionPass_extendsClosed env wellFormed.functions below functions
    rcases vars with found | ⟨w4, ran, found⟩ <;> rw [active] at found <;> cases found
    · exact functionsGrow
    · exact functionsGrow.trans
        (variablePass_extendsClosed env _ _ wellFormed.vars (below.trans functionsGrow.nrTypes) ran)
  have upper : w.nrTypes + cu.types.length ≤ w'.nrTypes := below.trans grows.nrTypes
  refine ⟨w', active, ⟨fun record member id stored => ?_, fun info member => ?_⟩⟩
  · rcases grows.records record member with old | added
    · simp only [w2, List.mem_append] at old
      rcases old with (old | new) | indexType
      · exact (closed.records record old id stored).trans (by omega)
      · obtain ⟨tag, tagMember, encoded⟩ := List.mem_filterMap.1 new
        rcases tagRecord_typeIds encoded (wellFormed.types tag tagMember) id stored with
          inRange | isArray
        · exact inRange.trans upper
        · obtain ⟨target, found, -⟩ := agree'.arrays record member id isArray
          exact BtfElf.record_le found
      · rw [synthetic record indexType] at stored
        simp [BtfType.typeIds] at stored
    · exact added id stored
  · rcases grows.secinfo info member with old | added
    · exact (closed.secinfo info old).trans (by omega)
    · exact added

/-- btf_encoder__encode flushes a closed writer closed: the DATASEC it adds names the types
of the section info entries. -/
theorem btfEncoderEncode_closed (env : Env) (e : Encoder) {w : BtfElf} (closed : w.Closed) :
    ∀ flushed ∈ (btfEncoderEncode env e w).2.2, flushed.Closed := by
  have datasec : w.ExtendsClosed (btfElfAddDatasecType env w percpuSection).2 :=
    BtfElf.addType_extendsClosed env w fun id stored => by
      obtain ⟨info, member, rfl⟩ := List.mem_map.1 stored
      exact closed.secinfo info member
  intro flushed member
  simp only [btfEncoderEncode, Option.mem_def, ite_eq_left_iff, reduceCtorEq, imp_false,
    not_not] at member
  split_ifs at member <;> obtain rfl := Option.some.inj member
  · exact closed.extend datasec
  · exact closed

/-- When the writer takes every __ARRAY_SIZE_TYPE__ it is given, a session of successfully
encoded CUs that refer only to void and their own types leaves a writer every record and
per-CPU section info entry of which stores IDs of void, of the base BTF or of the writer's
records; so does the writer btf_encoder__encode flushes, with its DATASEC. -/
theorem session_btf_closed (env : Env) (e e' : Encoder) (first : Cu × Bool × Bool)
    (rest : List (Cu × Bool × Bool)) (idle : e.btfe = none)
    (sameFile : ∀ call ∈ rest, call.1.filename = first.1.filename)
    (wellFormed : ∀ call ∈ first :: rest, call.1.WellFormed)
    (ran : runCus env e (first :: rest) = some e')
    (syntheticAccepted :
      ∀ w, env.rejects w (.addType (.int (some arraySizeTypeName) arraySizeType)) = false) :
    ∃ w', e'.btfe = some w' ∧ w'.Closed ∧
      ∀ flushed ∈ (btfEncoderEncode env e' w').2.2, flushed.Closed := by
  have keeps : ∀ {done : List Cu} {e e' : Encoder} {w : BtfElf} {cu : Cu}
      {force skipEncodingVars : Bool},
      (IndexTypesAgree e w ∧ ((∀ other ∈ done, other.WellFormed) → w.Closed)) →
      e.btfe = some w →
      encodeCu env e w cu force skipEncodingVars = (0, e') →
      ∃ w', e'.btfe = some w' ∧ w'.filename = w.filename ∧
        (IndexTypesAgree e' w' ∧
          ((∀ other ∈ done ++ [cu], other.WellFormed) → w'.Closed)) := by
    intro done e e' w cu force skipEncodingVars ⟨agree, closedIf⟩ _ ok
    obtain ⟨w', active, sameName, agree'⟩ := encodeCu_indexTypes syntheticAccepted agree ok
    refine ⟨w', active, sameName, agree', fun allWellFormed => ?_⟩
    obtain ⟨w'', active', closed⟩ := encodeCu_closed syntheticAccepted agree
      (closedIf fun cu member => allWellFormed cu (List.mem_append_left _ member))
      (allWellFormed cu (List.mem_append_right _ (List.mem_singleton_self _))) ok
    exact (Option.some.inj (active.symm.trans active')) ▸ closed
  obtain ⟨w', active', -, closedIf⟩ := runCus_from_idle
    (fun done e w => IndexTypesAgree e w ∧ ((∀ other ∈ done, other.WellFormed) → w.Closed))
    keeps (fun has need _ =>
      ⟨⟨by simp, by simp [has], by simp [need]⟩, fun _ => ⟨by simp, by simp⟩⟩) idle sameFile ran
  have closed := closedIf fun c member => by
    obtain ⟨call, called, rfl⟩ := List.mem_map.1 member
    exact wellFormed call called
  exact ⟨w', active', closed, btfEncoderEncode_closed env e' closed⟩

/-- The session of two array CUs leaves a closed writer. -/
theorem session_btf_closed_on_two_cus :
    (Encoder.init 0).btfe = none ∧
    (∀ call ∈ [(arrayCu, false, false)], call.1.filename = arrayCu.filename) ∧
    (∀ call ∈ [(arrayCu, false, false), (arrayCu, false, false)], call.1.WellFormed) ∧
    runCus Env.reliable (Encoder.init 0) [(arrayCu, false, false), (arrayCu, false, false)] =
      some arraySessionEnd ∧
    (∀ w,
      Env.reliable.rejects w (.addType (.int (some arraySizeTypeName) arraySizeType)) = false) ∧
    ∃ w', arraySessionEnd.btfe = some w' ∧ w'.Closed ∧
      ∀ flushed ∈ (btfEncoderEncode Env.reliable arraySessionEnd w').2.2, flushed.Closed :=
  have wellFormed : ∀ call ∈ [(arrayCu, false, false), (arrayCu, false, false)],
      call.1.WellFormed := fun call member => by
    obtain rfl | rfl : call = (arrayCu, false, false) ∨ call = (arrayCu, false, false) := by
      simpa using member
    all_goals exact ⟨by decide, by decide, by decide⟩
  ⟨rfl, by decide, wellFormed, by decide, fun _ => rfl,
    session_btf_closed Env.reliable (Encoder.init 0) arraySessionEnd (arrayCu, false, false)
      [(arrayCu, false, false)] rfl (by decide) wellFormed (by decide) fun _ => rfl⟩

end Dwarves
