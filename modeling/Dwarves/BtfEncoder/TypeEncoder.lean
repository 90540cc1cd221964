import Dwarves.BtfEncoder.Writer

/-
The encoding of one type tag into one BTF type, and the type pass of
cu__encode_btf that encodes the tags of a CU in core-ID order and checks that
every tag gets the ID type_id_off + core_id.
-/

namespace Dwarves

/-- The BTF ID a reference to a core ID becomes: type 0, void, stays 0. -/
def refTypeId (typeIdOff type : Nat) : Nat := if type = 0 then 0 else typeIdOff + type

/-- tag__check_id_drift: -1 when the writer gave a type another ID than type_id_off plus
its core ID. -/
def tagCheckIdDrift (coreId : Nat) (btfTypeId : Int) (typeIdOff : Nat) : Int :=
  if btfTypeId ≠ ((coreId + typeIdOff : Nat) : Int) then -1 else 0

/-- The writer call made for each entry of a list in turn, up to the first that fails:
the loops over struct members and over enumerators. -/
def forEachEntry {α : Type} (add : BtfElf → α → Int × BtfElf) : List α → BtfElf → Int × BtfElf
  | [], w => (0, w)
  | entry :: rest, w =>
    let result := add w entry
    if result.1 ≠ 0 then (-1, result.2) else forEachEntry add rest result.2

/-- Whether a tag is DW_TAG_union_type. -/
def Tag.isUnionType : Tag → Bool
  | .unionType _ => true
  | _ => false

/-- Whether a tag is DW_TAG_array_type. -/
def Tag.isArrayType : Tag → Bool
  | .arrayType _ _ => true
  | _ => false

/-- structure_type__encode: the struct or union, then its data members in order, each
member's type taken relative to type_id_off. -/
def structureTypeEncode (env : Env) (w : BtfElf) (tag : Tag) (type : CompositeType)
    (typeIdOff : Nat) : Int × BtfElf :=
  let kind := if tag.isUnionType then CompositeKind.union else .struct
  let added := btfElfAddStruct env w kind type.name type.size
  if added.1 < 0 then added
  else
    let members := forEachEntry (fun w (pos : ClassMember) =>
      btfElfAddMember env w pos.name (typeIdOff + pos.type) pos.bitfieldSize pos.bitOffset)
      type.members added.2
    if members.1 ≠ 0 then (-1, members.2) else (added.1, members.2)

/-- array_type__nelems: the product of the dimensions in a uint32_t, last one first. -/
def arrayTypeNelems (nrEntries : List Nat) : Nat :=
  nrEntries.foldr (fun dim nelem => nelem * dim % 2 ^ 32) 1

/-- Modelled from the spec: the element count of an array, the product of all its
dimensions. -/
def dimensionsProduct : List Nat → Nat
  | [] => 1
  | dim :: rest => dim * dimensionsProduct rest

/-- The uint32_t accumulator of array_type__nelems ends with the product of the dimensions
modulo 2^32. -/
theorem arrayTypeNelems_eq (nrEntries : List Nat) :
    arrayTypeNelems nrEntries = dimensionsProduct nrEntries % 2 ^ 32 := by
  induction nrEntries with
  | nil => rfl
  | cons dim rest ih =>
    rw [arrayTypeNelems, List.foldr_cons, ← arrayTypeNelems, ih, dimensionsProduct, Nat.mod_mul_mod,
      Nat.mul_comm]

/-- enumeration_type__encode: the enum, then its enumerators in order. -/
def enumerationTypeEncode (env : Env) (w : BtfElf) (etype : EnumerationType) : Int × BtfElf :=
  let added := btfElfAddEnum env w etype.name etype.size
  if added.1 < 0 then added
  else
    let values := forEachEntry (fun w (pos : Enumerator) => btfElfAddEnumVal env w pos.name pos.value)
      etype.enumerators added.2
    if values.1 ≠ 0 then (-1, values.2) else (added.1, values.2)

/-- tag__encode_btf: the ID the writer returned for the tag, or a negative value, and the
global need_index_type, which an array tag sets. -/
def tagEncodeBtf (env : Env) (w : BtfElf) (needIndexType : Bool) (tag : Tag)
    (arrayIndexId typeIdOff : Nat) : (Int × BtfElf) × Bool :=
  match tag with
  | .baseType name bt => (btfElfAddBaseType env w bt name, needIndexType)
  | .constType type =>
    (btfElfAddRefType env w .const (refTypeId typeIdOff type) none false, needIndexType)
  | .pointerType type =>
    (btfElfAddRefType env w .ptr (refTypeId typeIdOff type) none false, needIndexType)
  | .restrictType type =>
    (btfElfAddRefType env w .restrict (refTypeId typeIdOff type) none false, needIndexType)
  | .volatileType type =>
    (btfElfAddRefType env w .volatile (refTypeId typeIdOff type) none false, needIndexType)
  | .typedef type name =>
    (btfElfAddRefType env w .typedef (refTypeId typeIdOff type) name false, needIndexType)
  | .structureType type | .unionType type | .classType type =>
    (if type.declaration then btfElfAddRefType env w .fwd 0 type.name tag.isUnionType
      else structureTypeEncode env w tag type typeIdOff, needIndexType)
  | .arrayType type nrEntries =>
    (btfElfAddArray env w (refTypeId typeIdOff type) arrayIndexId (arrayTypeNelems nrEntries), true)
  | .enumerationType etype => (enumerationTypeEncode env w etype, needIndexType)
  | .subroutineType ftype => (btfElfAddFuncProto env w ftype typeIdOff, needIndexType)
  | .other _ => ((-1, w), needIndexType)

/-- The type pass of cu__encode_btf from core ID coreId on: each tag is encoded and its ID
checked for drift, and the first failure ends the pass. -/
def typePass (env : Env) (arrayIndexId typeIdOff : Nat) :
    List Tag → Nat → BtfElf → Bool → Int × BtfElf × Bool
  | [], _, w, needIndexType => (0, w, needIndexType)
  | tag :: rest, coreId, w, needIndexType =>
    let encoded := tagEncodeBtf env w needIndexType tag arrayIndexId typeIdOff
    if encoded.1.1 < 0 ∨ tagCheckIdDrift coreId encoded.1.1 typeIdOff ≠ 0 then
      (-1, encoded.1.2, encoded.2)
    else typePass env arrayIndexId typeIdOff rest (coreId + 1) encoded.1.2 encoded.2

/-! ## What one tag becomes -/

/-- The member record structure_type__encode writes for a data member. -/
def memberRecord (typeIdOff : Nat) (pos : ClassMember) : BtfMember :=
  ⟨pos.name, typeIdOff + pos.type, pos.bitfieldSize, pos.bitOffset⟩

/-- The record of a struct, union or class: a FWD for a declaration, else the composite
with all its data members. -/
def compositeRecord (kind : CompositeKind) (type : CompositeType) (typeIdOff : Nat) : BtfType :=
  if type.declaration then .ref .fwd 0 type.name (kind = .union)
  else .composite kind type.name type.size (type.members.map (memberRecord typeIdOff))

/-- The one record a tag is encoded to when the writer accepts every call; none for a
tag kind tag__encode_btf does not support. -/
def tagRecord (arrayIndexId typeIdOff : Nat) : Tag → Option BtfType
  | .baseType name bt => some (.int name bt)
  | .constType type => some (.ref .const (refTypeId typeIdOff type) none false)
  | .pointerType type => some (.ref .ptr (refTypeId typeIdOff type) none false)
  | .restrictType type => some (.ref .restrict (refTypeId typeIdOff type) none false)
  | .volatileType type => some (.ref .volatile (refTypeId typeIdOff type) none false)
  | .typedef type name => some (.ref .typedef (refTypeId typeIdOff type) name false)
  | .structureType type => some (compositeRecord .struct type typeIdOff)
  | .unionType type => some (compositeRecord .union type typeIdOff)
  | .classType type => some (compositeRecord .struct type typeIdOff)
  | .arrayType type nrEntries =>
    some (.array (refTypeId typeIdOff type) arrayIndexId (arrayTypeNelems nrEntries))
  | .enumerationType etype =>
    some (.enum etype.name etype.size (etype.enumerators.map fun pos => (pos.name, pos.value)))
  | .subroutineType ftype => some (.funcProto ftype typeIdOff)
  | .other _ => none

theorem tagRecord_isSome (arrayIndexId typeIdOff : Nat) (tag : Tag) :
    (tagRecord arrayIndexId typeIdOff tag).isSome ↔ tag.Supported := by
  cases tag <;> simp [tagRecord, Tag.Supported]

/-- No tag is encoded to a FUNC. -/
theorem tagRecord_funcName {arrayIndexId typeIdOff : Nat} {tag : Tag} {record : BtfType}
    (encoded : tagRecord arrayIndexId typeIdOff tag = some record) : record.funcName = none := by
  cases tag <;> simp only [tagRecord, Option.some.injEq, reduceCtorEq] at encoded <;>
    subst encoded <;> try rfl
  all_goals unfold compositeRecord; split <;> rfl

section Loops

variable (env : Env) (typeIdOff : Nat)

/-- The member loop of structure_type__encode appends every member to the struct added
last, or fails on a call the writer rejects. -/
theorem forEachEntry_addMember (kind : CompositeKind) (name : Option CStr) (size : Nat) :
    ∀ (members : List ClassMember) (w : BtfElf) (ts : List BtfType) (acc : List BtfMember),
      w.types = ts ++ [.composite kind name size acc] →
      forEachEntry (fun w (pos : ClassMember) =>
          btfElfAddMember env w pos.name (typeIdOff + pos.type) pos.bitfieldSize pos.bitOffset)
          members w =
        (0, { w with types := ts ++ [.composite kind name size
          (acc ++ members.map (memberRecord typeIdOff))] }) ∨
      (forEachEntry (fun w (pos : ClassMember) =>
          btfElfAddMember env w pos.name (typeIdOff + pos.type) pos.bitfieldSize pos.bitOffset)
          members w).1 = -1 ∧ env.RejectsSomeCall
  | [], w, ts, acc, types => .inl (by simp [forEachEntry, ← types])
  | pos :: rest, w, ts, acc, types => by
    simp only [forEachEntry, btfElfAddMember, BtfElf.extendLast_of_types types,
      BtfType.addMember]
    by_cases rejected : env.rejects w (.addMember (memberRecord typeIdOff pos))
    · exact .inr ⟨by simp [memberRecord] at rejected; simp [rejected], _, _, rejected⟩
    · simp only [memberRecord] at rejected
      simp only [rejected, if_false, ne_eq, not_true_eq_false, if_false]
      simpa [memberRecord] using
        forEachEntry_addMember kind name size rest _ ts (acc ++ [memberRecord typeIdOff pos]) rfl

/-- The enumerator loop of enumeration_type__encode appends every value to the enum added
last, or fails on a call the writer rejects. -/
theorem forEachEntry_addEnumVal (name : Option CStr) (size : Nat) :
    ∀ (enumerators : List Enumerator) (w : BtfElf) (ts : List BtfType)
      (acc : List (Option CStr × Int)),
      w.types = ts ++ [.enum name size acc] →
      forEachEntry (fun w (pos : Enumerator) => btfElfAddEnumVal env w pos.name pos.value)
          enumerators w =
        (0, { w with types := ts ++ [.enum name size
          (acc ++ enumerators.map fun pos => (pos.name, pos.value))] }) ∨
      (forEachEntry (fun w (pos : Enumerator) => btfElfAddEnumVal env w pos.name pos.value)
          enumerators w).1 = -1 ∧ env.RejectsSomeCall
  | [], w, ts, acc, types => .inl (by simp [forEachEntry, ← types])
  | pos :: rest, w, ts, acc, types => by
    simp only [forEachEntry, btfElfAddEnumVal, BtfElf.extendLast_of_types types,
      BtfType.addEnumVal]
    by_cases rejected : env.rejects w (.addEnumVal pos.name pos.value)
    · exact .inr ⟨by simp [rejected], _, _, rejected⟩
    · simp only [rejected, if_false, ne_eq, not_true_eq_false, if_false]
      simpa using forEachEntry_addEnumVal name size rest _ ts (acc ++ [(pos.name, pos.value)]) rfl

/-- structure_type__encode appends the complete struct and returns its ID, or fails on a
call the writer rejects. -/
theorem structureTypeEncode_spec (w : BtfElf) (tag : Tag) (type : CompositeType) :
    structureTypeEncode env w tag type typeIdOff =
        (((w.nrTypes + 1 : Nat) : Int), { w with types := w.types ++
          [.composite (if tag.isUnionType then .union else .struct) type.name type.size
            (type.members.map (memberRecord typeIdOff))] }) ∨
      (structureTypeEncode env w tag type typeIdOff).1 = -1 ∧ env.RejectsSomeCall := by
  dsimp only [structureTypeEncode, btfElfAddStruct]
  generalize (if tag.isUnionType then CompositeKind.union else .struct) = kind
  rcases BtfElf.addType_result env w (.composite kind type.name type.size []) with
    added | ⟨failed, rejected⟩
  · rw [added]
    have pos : ¬((w.nrTypes : Int) + 1 < 0) := by omega
    rcases forEachEntry_addMember env typeIdOff kind type.name type.size type.members
      { w with types := w.types ++ [.composite kind type.name type.size []] } w.types [] rfl
      with members | ⟨failed, rejected⟩
    · simp [members, pos]
    · simp [failed, rejected, pos]
  · simp [failed, rejected]

/-- enumeration_type__encode appends the complete enum and returns its ID, or fails on a
call the writer rejects. -/
theorem enumerationTypeEncode_spec (w : BtfElf) (etype : EnumerationType) :
    enumerationTypeEncode env w etype =
        (((w.nrTypes + 1 : Nat) : Int), { w with types := w.types ++
          [.enum etype.name etype.size (etype.enumerators.map fun pos => (pos.name, pos.value))] }) ∨
      (enumerationTypeEncode env w etype).1 = -1 ∧ env.RejectsSomeCall := by
  dsimp only [enumerationTypeEncode, btfElfAddEnum]
  rcases BtfElf.addType_result env w (.enum etype.name etype.size []) with added | ⟨failed, rejected⟩
  · rw [added]
    have pos : ¬((w.nrTypes : Int) + 1 < 0) := by omega
    rcases forEachEntry_addEnumVal env etype.name etype.size etype.enumerators
      { w with types := w.types ++ [.enum etype.name etype.size []] } w.types [] rfl
      with values | ⟨failed, rejected⟩
    · simp [values, pos]
    · simp [failed, rejected, pos]
  · simp [failed, rejected]

end Loops

/-- tag__encode_btf appends the tag's record and returns its ID, one past the types already
there; or it returns -1, for a supported tag only on a call the writer rejects. -/
theorem tagEncodeBtf_spec (env : Env) (w : BtfElf) (needIndexType : Bool) (tag : Tag)
    (arrayIndexId typeIdOff : Nat) :
    (∃ record, tagRecord arrayIndexId typeIdOff tag = some record ∧
      (tagEncodeBtf env w needIndexType tag arrayIndexId typeIdOff).1 =
        (((w.nrTypes + 1 : Nat) : Int), { w with types := w.types ++ [record] })) ∨
    (tagEncodeBtf env w needIndexType tag arrayIndexId typeIdOff).1.1 = -1 ∧
      (tag.Supported → env.RejectsSomeCall) := by
  have added : ∀ type, (∃ record, some type = some record ∧
      w.addType env type = (((w.nrTypes + 1 : Nat) : Int), { w with types := w.types ++ [record] })) ∨
      (w.addType env type).1 = -1 ∧ (tag.Supported → env.RejectsSomeCall) := fun type =>
    (BtfElf.addType_result env w type).imp (⟨type, rfl, ·⟩) fun failed => ⟨failed.1, fun _ => failed.2⟩
  have composite : ∀ kind (type : CompositeType), tag.isUnionType = decide (kind = .union) →
      (∃ record, some (compositeRecord kind type typeIdOff) = some record ∧
        (if type.declaration then btfElfAddRefType env w .fwd 0 type.name tag.isUnionType
          else structureTypeEncode env w tag type typeIdOff) =
          (((w.nrTypes + 1 : Nat) : Int), { w with types := w.types ++ [record] })) ∨
      (if type.declaration then btfElfAddRefType env w .fwd 0 type.name tag.isUnionType
          else structureTypeEncode env w tag type typeIdOff).1 = -1 ∧
        (tag.Supported → env.RejectsSomeCall) := by
    intro kind type union
    unfold compositeRecord
    split
    · rw [union]; exact added _
    · rcases structureTypeEncode_spec env typeIdOff w tag type with encoded | failed
      · refine .inl ⟨_, rfl, encoded.trans ?_⟩
        cases kind <;> simp_all
      · exact .inr ⟨failed.1, fun _ => failed.2⟩
  cases tag with
  | structureType type => exact composite .struct type rfl
  | unionType type => exact composite .union type rfl
  | classType type => exact composite .struct type rfl
  | enumerationType etype =>
    exact (enumerationTypeEncode_spec env w etype).imp (⟨_, rfl, ·⟩) fun failed =>
      ⟨failed.1, fun _ => failed.2⟩
  | other => exact .inr ⟨rfl, False.elim⟩
  | _ => exact added _

/-- An array tag sets need_index_type; no other tag changes it. -/
@[simp] theorem tagEncodeBtf_needIndexType (env : Env) (w : BtfElf) (needIndexType : Bool)
    (tag : Tag) (arrayIndexId typeIdOff : Nat) :
    (tagEncodeBtf env w needIndexType tag arrayIndexId typeIdOff).2 =
      (needIndexType || tag.isArrayType) := by
  cases tag <;> simp [tagEncodeBtf, Tag.isArrayType]

/-- The records of supported tags, one per tag. -/
theorem length_filterMap_tagRecord (arrayIndexId typeIdOff : Nat) :
    ∀ {tags : List Tag}, (∀ tag ∈ tags, tag.Supported) →
      (tags.filterMap (tagRecord arrayIndexId typeIdOff)).length = tags.length
  | [], _ => rfl
  | tag :: rest, supported => by
    obtain ⟨record, encoded⟩ := Option.isSome_iff_exists.1
      ((tagRecord_isSome arrayIndexId typeIdOff tag).2 (supported tag (List.mem_cons_self _ _)))
    simp [encoded, length_filterMap_tagRecord arrayIndexId typeIdOff
      fun tag member => supported tag (List.mem_cons_of_mem _ member)]

section TypePass

variable (env : Env) (arrayIndexId typeIdOff : Nat)

/-- The type pass from core ID coreId, on a writer holding type_id_off + coreId - 1 types,
appends the records of all its tags; or it fails, for supported tags only on a call the
writer rejects. -/
theorem typePass_spec :
    ∀ (tags : List Tag) (coreId : Nat) (w : BtfElf) (needIndexType : Bool),
      w.nrTypes + 1 = typeIdOff + coreId →
      (∀ tag ∈ tags, tag.Supported) ∧
        typePass env arrayIndexId typeIdOff tags coreId w needIndexType =
          (0, { w with types := w.types ++ tags.filterMap (tagRecord arrayIndexId typeIdOff) },
            needIndexType || tags.any Tag.isArrayType) ∨
      (typePass env arrayIndexId typeIdOff tags coreId w needIndexType).1 = -1 ∧
        ((∀ tag ∈ tags, tag.Supported) → env.RejectsSomeCall)
  | [], _, w, needIndexType, _ => .inl ⟨by simp, by simp [typePass]⟩
  | tag :: rest, coreId, w, needIndexType, count => by
    rcases tagEncodeBtf_spec env w needIndexType tag arrayIndexId typeIdOff with
      ⟨record, encoded, result⟩ | ⟨failed, rejected⟩
    · have accepted : ¬(((w.nrTypes + 1 : Nat) : Int) < 0 ∨
          tagCheckIdDrift coreId (w.nrTypes + 1 : Nat) typeIdOff ≠ 0) := by
        simp only [tagCheckIdDrift]; omega
      have next : ({ w with types := w.types ++ [record] } : BtfElf).nrTypes + 1 =
          typeIdOff + (coreId + 1) := by
        simp only [BtfElf.nrTypes, List.length_append, List.length_singleton] at count ⊢; omega
      have supported := (tagRecord_isSome arrayIndexId typeIdOff tag).1 (by simp [encoded])
      simp only [typePass, result, tagEncodeBtf_needIndexType, if_neg accepted]
      rcases typePass_spec rest (coreId + 1) _ (needIndexType || tag.isArrayType) next with
        ⟨supportedRest, run⟩ | ⟨failed, rejected⟩
      · refine .inl ⟨?_, ?_⟩
        · simpa [supported] using supportedRest
        · simp [run, encoded, Bool.or_assoc]
      · exact .inr ⟨failed, fun all => rejected fun tag member =>
          all tag (List.mem_cons_of_mem _ member)⟩
    · have refused : ((tagEncodeBtf env w needIndexType tag arrayIndexId typeIdOff).1.1 < 0 ∨
          tagCheckIdDrift coreId (tagEncodeBtf env w needIndexType tag arrayIndexId typeIdOff).1.1
            typeIdOff ≠ 0) := .inl (by omega)
      refine .inr ⟨?_, fun all => rejected (all tag (List.mem_cons_self _ _))⟩
      simp only [typePass, if_pos refused]

/-- A successful type pass adds one type per tag. -/
theorem typePass_nrTypes {tags : List Tag} {coreId : Nat} {w w' : BtfElf}
    {needIndexType needIndexType' : Bool} (count : w.nrTypes + 1 = typeIdOff + coreId)
    (passed : typePass env arrayIndexId typeIdOff tags coreId w needIndexType =
      (0, w', needIndexType')) :
    w'.nrTypes = w.nrTypes + tags.length := by
  rcases typePass_spec env arrayIndexId typeIdOff tags coreId w needIndexType count with
    ⟨supported, run⟩ | ⟨failed, -⟩
  · simp only [passed, Prod.mk.injEq, true_and] at run
    rw [run.1]
    simp [BtfElf.nrTypes, length_filterMap_tagRecord arrayIndexId typeIdOff supported]
    omega
  · simp [passed] at failed

end TypePass

/-- The type pass of a CU started on a writer holding type_id_off types: after the first k
tags the writer holds type_id_off + k types, and the call for core ID k + 1 returns -1 or
exactly type_id_off + k + 1, which the drift check accepts; a successful pass adds one type
per tag; and a writer that rejects no call takes every supported tag. -/
theorem typePass_no_id_drift (env : Env) (arrayIndexId : Nat) (tags : List Tag) (w : BtfElf)
    (needIndexType : Bool) :
    (∀ k (inRange : k < tags.length) w' needIndexType',
      typePass env arrayIndexId w.nrTypes (tags.take k) 1 w needIndexType = (0, w', needIndexType') →
      let btfTypeId :=
        (tagEncodeBtf env w' needIndexType' (tags.get ⟨k, inRange⟩) arrayIndexId w.nrTypes).1.1
      w'.nrTypes = w.nrTypes + k ∧
        (btfTypeId = -1 ∨ btfTypeId = ((w.nrTypes + (k + 1) : Nat) : Int) ∧
          tagCheckIdDrift (k + 1) btfTypeId w.nrTypes = 0)) ∧
    (∀ w' needIndexType', typePass env arrayIndexId w.nrTypes tags 1 w needIndexType =
      (0, w', needIndexType') → w'.nrTypes = w.nrTypes + tags.length) ∧
    ((∀ tag ∈ tags, tag.Supported) → ¬env.RejectsSomeCall →
      (typePass env arrayIndexId w.nrTypes tags 1 w needIndexType).1 = 0) := by
  refine ⟨fun k inRange w' needIndexType' passed => ?_, fun w' _ passed =>
    typePass_nrTypes env arrayIndexId w.nrTypes rfl passed, fun supported accepting => ?_⟩
  · have prefixCount := typePass_nrTypes env arrayIndexId w.nrTypes rfl passed
    rw [List.length_take, min_eq_left inRange.le] at prefixCount
    refine ⟨prefixCount, ?_⟩
    rcases tagEncodeBtf_spec env w' needIndexType' (tags.get ⟨k, inRange⟩) arrayIndexId w.nrTypes
      with ⟨_, -, result⟩ | ⟨failed, -⟩
    · simp only [result, prefixCount, tagCheckIdDrift]
      exact .inr ⟨by congr 1, by simp; omega⟩
    · exact .inl failed
  · rcases typePass_spec env arrayIndexId w.nrTypes tags 1 w needIndexType rfl with
      ⟨-, run⟩ | ⟨-, rejected⟩
    · rw [run]
    · exact absurd (rejected supported) accepting

/-! ## Type references -/

/-- The core IDs a tag refers to, in the order its record stores them: the target of a
modifier or typedef, the element type of an array, the types of a struct's data members. -/
def Tag.refs : Tag → List Nat
  | .constType type | .pointerType type | .restrictType type | .volatileType type
  | .typedef type _ | .arrayType type _ => [type]
  | .structureType type | .unionType type | .classType type =>
    if type.declaration then [] else type.members.map ClassMember.type
  | _ => []

/-- The types of the data members of a struct, union or class. -/
def Tag.memberTypes : Tag → List Nat
  | .structureType type | .unionType type | .classType type => type.members.map ClassMember.type
  | _ => []

/-- The type IDs a record stores for the references of its tag. -/
def BtfType.refs : BtfType → List Nat
  | .ref .fwd _ _ _ => []
  | .ref _ type _ _ | .array type _ _ => [type]
  | .composite _ _ _ members => members.map BtfMember.type
  | _ => []

/-- The record of a tag whose members are not void stores each reference c as 0 for void and
type_id_off + c otherwise. -/
theorem tagRecord_refs {arrayIndexId typeIdOff : Nat} {tag : Tag} {record : BtfType}
    (nonVoidMembers : ∀ type ∈ tag.memberTypes, type ≠ 0)
    (encoded : tagRecord arrayIndexId typeIdOff tag = some record) :
    record.refs = tag.refs.map (refTypeId typeIdOff) := by
  have members : ∀ kind (type : CompositeType), (∀ member ∈ type.members, member.type ≠ 0) →
      (compositeRecord kind type typeIdOff).refs =
        (if type.declaration then [] else type.members.map ClassMember.type).map
          (refTypeId typeIdOff) := by
    intro kind type nonVoid
    unfold compositeRecord
    split
    · rfl
    · simp only [BtfType.refs, List.map_map]
      exact List.map_congr_left fun member present => by
        simp [memberRecord, refTypeId, nonVoid member present]
  cases tag <;> simp only [tagRecord, Option.some.injEq, reduceCtorEq] at encoded <;> subst encoded
  all_goals first
    | rfl
    | exact members _ _ fun member present =>
        nonVoidMembers _ (List.mem_map_of_mem ClassMember.type present)

/-- Type references follow one mapping except in struct members: when tag__encode_btf
succeeds on a tag whose members are not void, the record it appends stores each reference
c as 0 for void and type_id_off + c otherwise. -/
theorem type_refs_follow_mapping (env : Env) (w : BtfElf) (needIndexType : Bool) (tag : Tag)
    (arrayIndexId typeIdOff : Nat) (nonVoidMembers : ∀ type ∈ tag.memberTypes, type ≠ 0)
    (encoded : (tagEncodeBtf env w needIndexType tag arrayIndexId typeIdOff).1.1 ≠ -1) :
    ∃ record, (tagEncodeBtf env w needIndexType tag arrayIndexId typeIdOff).1.2 =
        { w with types := w.types ++ [record] } ∧
      record.refs = tag.refs.map (refTypeId typeIdOff) := by
  rcases tagEncodeBtf_spec env w needIndexType tag arrayIndexId typeIdOff with
    ⟨record, recorded, result⟩ | ⟨failed, -⟩
  · exact ⟨record, by rw [result], tagRecord_refs nonVoidMembers recorded⟩
  · exact absurd failed encoded

/-- A writer seeded with five base types. -/
def fiveTypeWriter : BtfElf := ⟨.ofAscii "vmlinux", ⟨[], [], 0, 0⟩, 5, [], []⟩

/-- A struct of 8 bytes with members of types 1 and 2. -/
def twoMemberStruct : CompositeType := ⟨none, 8, false, [⟨none, 1, 0, 0⟩, ⟨none, 2, 0, 32⟩]⟩

/-- With type_id_off = 5 the members of that struct get types 6 and 7. -/
theorem type_refs_follow_mapping_on_struct :
    (∀ type ∈ (Tag.structureType twoMemberStruct).memberTypes, type ≠ 0) ∧
    (tagEncodeBtf Env.reliable fiveTypeWriter false (.structureType twoMemberStruct) 0 5).1.1 ≠ -1 ∧
    ∃ record, (tagEncodeBtf Env.reliable fiveTypeWriter false (.structureType twoMemberStruct) 0 5).1.2 =
        { fiveTypeWriter with types := fiveTypeWriter.types ++ [record] } ∧
      record.refs = (Tag.structureType twoMemberStruct).refs.map (refTypeId 5) :=
  ⟨by decide, by decide,
    type_refs_follow_mapping Env.reliable fiveTypeWriter false (.structureType twoMemberStruct) 0 5
      (by decide) (by decide)⟩

/-- A struct of 8 bytes whose one member has type void. -/
def voidMemberStruct : CompositeType := ⟨none, 8, false, [⟨none, 0, 0, 0⟩]⟩

/-- With type_id_off = 5, a pointer to void gets target 0, while a struct member of type void
gets type 5. -/
theorem void_member_type_offset :
    (tagEncodeBtf Env.reliable fiveTypeWriter false (.pointerType 0) 0 5).1 =
      (6, { fiveTypeWriter with types := [.ref .ptr 0 none false] }) ∧
    (tagEncodeBtf Env.reliable fiveTypeWriter false (.structureType voidMemberStruct) 0 5).1 =
      (6, { fiveTypeWriter with types := [.composite .struct none 8 [⟨none, 5, 0, 0⟩]] }) := by
  decide

/-- An array of 65536 by 65536 elements of type 1: 2^32 elements in all. -/
def wideArray : Tag := .arrayType 1 [65536, 65536]

/-- array_type__nelems keeps the product of the dimensions modulo 2^32 only: for that array
it passes 0, and tag__encode_btf still adds the ARRAY, with 0 elements, into any writer
that takes it. -/
theorem array_nelems_wraps (w : BtfElf) (arrayIndexId typeIdOff : Nat) :
    (∀ nrEntries, arrayTypeNelems nrEntries = dimensionsProduct nrEntries % 2 ^ 32) ∧
    dimensionsProduct [65536, 65536] = 2 ^ 32 ∧
    tagEncodeBtf Env.reliable w false wideArray arrayIndexId typeIdOff =
      ((((w.nrTypes + 1 : Nat) : Int),
        { w with types := w.types ++ [.array (typeIdOff + 1) arrayIndexId 0] }), true) := by
  refine ⟨arrayTypeNelems_eq, by decide, ?_⟩
  simp [tagEncodeBtf, wideArray, arrayTypeNelems, btfElfAddArray, BtfElf.addType, refTypeId,
    Env.reliable]

end Dwarves
