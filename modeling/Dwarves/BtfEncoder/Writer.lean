import Dwarves.BtfEncoder.Dwarf

/-
The BTF writer of libbtf, which the sources only call. Its interface is the one
of the spec's external interfaces: every add call of a type appends one type and
returns its ID, one past the types already there; add_member and add_enum_val
extend the type added last; a call the writer rejects returns a negative value
and changes nothing. Which calls are rejected, which allocations fail and
whether the writer can be created or flushed is left to an environment, so that
every pattern of failures is covered.
-/

namespace Dwarves

/-- The kinds btf_elf__add_ref_type emits. -/
inductive RefKind where
  | const | ptr | restrict | volatile | typedef | fwd | func
deriving DecidableEq

inductive CompositeKind where
  | struct | union
deriving DecidableEq

inductive Linkage where
  | static | globalAllocated
deriving DecidableEq

structure BtfMember where
  name : Option CStr
  type : Nat
  bitfieldSize : Nat
  bitOffset : Nat
deriving DecidableEq

structure VarSecinfo where
  type : Nat
  offset : Nat
  size : Nat
deriving DecidableEq

/-- Modelled from the spec: one record of the writer's type table. -/
inductive BtfType where
  | int (name : Option CStr) (info : BaseType)
  | ref (kind : RefKind) (type : Nat) (name : Option CStr) (kindFlag : Bool)
  | composite (kind : CompositeKind) (name : Option CStr) (size : Nat)
      (members : List BtfMember)
  | array (type index nelems : Nat)
  | enum (name : Option CStr) (size : Nat) (values : List (Option CStr × Int))
  | funcProto (ftype : Ftype) (typeIdOff : Nat)
  | var (type : Nat) (name : CStr) (linkage : Linkage)
  | datasec (name : CStr) (secinfo : List VarSecinfo)
deriving DecidableEq

namespace BtfType

/-- The member btf_elf__add_member appends: only a struct or union takes one. -/
def addMember : BtfType → BtfMember → Option BtfType
  | composite kind name size members, member =>
    some (composite kind name size (members ++ [member]))
  | _, _ => none

/-- The enumerator btf_elf__add_enum_val appends: only an enum takes one. -/
def addEnumVal : BtfType → Option CStr → Int → Option BtfType
  | enum name size values, valueName, value => some (enum name size (values ++ [(valueName, value)]))
  | _, _, _ => none

/-- The name of a FUNC record. -/
def funcName : BtfType → Option CStr
  | ref .func _ name _ => name
  | _ => none

theorem funcName_of_addMember {type extended : BtfType} {member : BtfMember}
    (added : type.addMember member = some extended) : type.funcName = none ∧ extended.funcName = none := by
  cases type <;> simp only [addMember, reduceCtorEq] at added
  cases added
  exact ⟨rfl, rfl⟩

theorem funcName_of_addEnumVal {type extended : BtfType} {name : Option CStr} {value : Int}
    (added : type.addEnumVal name value = some extended) :
    type.funcName = none ∧ extended.funcName = none := by
  cases type <;> simp only [addEnumVal, reduceCtorEq] at added
  cases added
  exact ⟨rfl, rfl⟩

end BtfType

/-- The index type of an ARRAY record. -/
def BtfType.arrayIndex : BtfType → Option Nat
  | .array _ index _ => some index
  | _ => none

/-- FUNC_PROTO, FUNC and VAR: the records the function and variable passes add. -/
def BtfType.isDecl : BtfType → Bool
  | .funcProto _ _ | .ref .func _ _ _ | .var _ _ _ => true
  | _ => false

theorem BtfType.arrayIndex_of_isDecl {record : BtfType} (decl : record.isDecl = true) :
    record.arrayIndex = none := by
  cases record <;> first | rfl | simp [isDecl] at decl

/-- The names of the FUNC records of a type table, in order. -/
def funcNames (types : List BtfType) : List CStr := types.filterMap BtfType.funcName

@[simp] theorem funcNames_append (first second : List BtfType) :
    funcNames (first ++ second) = funcNames first ++ funcNames second :=
  List.filterMap_append _ _ _

/-- One call to the writer, as the environment sees it. -/
inductive BtfCall where
  | addType (type : BtfType)
  | addMember (member : BtfMember)
  | addEnumVal (name : Option CStr) (value : Int)
  | addVarSecinfo (info : VarSecinfo)
deriving DecidableEq

/-- Modelled from the spec: struct btf_elf, the writer of one ELF file. Its type IDs
continue those of the base BTF it was seeded with. -/
structure BtfElf where
  filename : CStr
  elf : Elf
  baseNrTypes : Nat
  types : List BtfType
  percpuSecinfo : List VarSecinfo
deriving DecidableEq

/-- Whatever the code's collaborators decide: which writer calls are rejected, whether
btf_elf__new and btf_elf__encode fail, and which allocations fail (realloc by the new
function table capacity, malloc by its size in bytes). -/
structure Env where
  rejects : BtfElf → BtfCall → Bool
  newFails : Bool
  reallocFails : Int → Bool
  mallocFails : Nat → Bool
  encodeFails : BtfElf → Bool

/-- The environment in which nothing fails. -/
def Env.reliable : Env := ⟨fun _ _ => false, false, fun _ => false, fun _ => false, fun _ => false⟩

/-- The writer rejects some call. -/
def Env.RejectsSomeCall (env : Env) : Prop := ∃ w call, env.rejects w call = true

namespace BtfElf

/-- btf__get_nr_types: the types of the base BTF and the writer's own. -/
def nrTypes (w : BtfElf) : Nat := w.baseNrTypes + w.types.length

/-- An add call of one type: the new ID, or -1 and no change. -/
def addType (env : Env) (w : BtfElf) (type : BtfType) : Int × BtfElf :=
  if env.rejects w (.addType type) then (-1, w)
  else ((w.nrTypes + 1 : Nat), { w with types := w.types ++ [type] })

/-- An add call that extends the type added last: 0, or -1 and no change when that
type cannot take the entry or the writer rejects the call. -/
def extendLast (env : Env) (w : BtfElf) (call : BtfCall) (extend : BtfType → Option BtfType) :
    Int × BtfElf :=
  match w.types.getLast?.bind extend with
  | none => (-1, w)
  | some last =>
    if env.rejects w call then (-1, w) else (0, { w with types := w.types.dropLast ++ [last] })

@[simp] theorem addType_of_accepts {env : Env} {w : BtfElf} {type : BtfType}
    (accepted : env.rejects w (.addType type) = false) :
    w.addType env type = (((w.nrTypes + 1 : Nat) : Int), { w with types := w.types ++ [type] }) := by
  simp [addType, accepted]

@[simp] theorem addType_of_rejects {env : Env} {w : BtfElf} {type : BtfType}
    (rejected : env.rejects w (.addType type) = true) : w.addType env type = (-1, w) := by
  simp [addType, rejected]

/-- A call the writer took does what it does with a writer that rejects nothing. -/
theorem addType_reliable {env : Env} {w : BtfElf} {type : BtfType}
    (taken : 0 ≤ (w.addType env type).1) : w.addType Env.reliable type = w.addType env type := by
  unfold addType at taken ⊢
  split at taken
  · simp at taken
  · simp_all [Env.reliable]

/-- An add call of one type returns -1 or the next ID, and on success appends its type. -/
theorem addType_spec (env : Env) (w : BtfElf) (type : BtfType) :
    (w.addType env type).1 = -1 ∧ w.addType env type = (-1, w) ∨
      (w.addType env type).1 = ((w.nrTypes + 1 : Nat) : Int) ∧
        (w.addType env type).2 = { w with types := w.types ++ [type] } := by
  unfold addType
  split <;> simp

/-- An add call of one type appends it and returns its ID, or fails on a rejected call. -/
theorem addType_result (env : Env) (w : BtfElf) (type : BtfType) :
    w.addType env type = (((w.nrTypes + 1 : Nat) : Int), { w with types := w.types ++ [type] }) ∨
      (w.addType env type).1 = -1 ∧ env.RejectsSomeCall := by
  unfold addType
  split
  · exact .inr ⟨rfl, _, _, ‹_›⟩
  · exact .inl rfl

/-- An extending call on a writer whose last type is known. -/
theorem extendLast_of_types {env : Env} {w : BtfElf} {call : BtfCall}
    {extend : BtfType → Option BtfType} {ts : List BtfType} {last : BtfType}
    (types : w.types = ts ++ [last]) :
    w.extendLast env call extend =
      match extend last with
      | none => (-1, w)
      | some extended =>
        if env.rejects w call then (-1, w) else (0, { w with types := ts ++ [extended] }) := by
  simp [extendLast, types]

/-- An extending call keeps the number of types and the FUNC names, whatever it returns. -/
theorem extendLast_frame (env : Env) (w : BtfElf) (call : BtfCall)
    (extend : BtfType → Option BtfType)
    (noFunc : ∀ type extended, extend type = some extended →
      type.funcName = none ∧ extended.funcName = none) :
    let result := w.extendLast env call extend
    result.2.nrTypes = w.nrTypes ∧ funcNames result.2.types = funcNames w.types ∧
      result.2.filename = w.filename ∧ result.2.elf = w.elf ∧
      result.2.baseNrTypes = w.baseNrTypes := by
  unfold extendLast
  split
  · simp
  · rename_i last extended
    obtain ⟨type, isLast, extendedBy⟩ := Option.bind_eq_some.1 extended
    have whole := List.dropLast_append_getLast? type isLast
    have kept := noFunc type last extendedBy
    split
    · simp
    · refine ⟨?_, ?_, rfl, rfl, rfl⟩
      · simp only [nrTypes, List.length_append, List.length_dropLast, List.length_singleton]
        have : w.types ≠ [] := by rintro empty; simp [empty] at isLast
        have := List.length_pos.2 this
        omega
      · conv_rhs => rw [← whole]
        simp [funcNames, List.filterMap_append, kept.1, kept.2]

end BtfElf

/-- btf_elf__add_base_type: one INT. -/
def btfElfAddBaseType (env : Env) (w : BtfElf) (bt : BaseType) (name : Option CStr) :
    Int × BtfElf :=
  w.addType env (.int name bt)

/-- btf_elf__add_ref_type: one reference to a type, of the given kind. -/
def btfElfAddRefType (env : Env) (w : BtfElf) (kind : RefKind) (type : Nat)
    (name : Option CStr) (kindFlag : Bool) : Int × BtfElf :=
  w.addType env (.ref kind type name kindFlag)

/-- btf_elf__add_struct: a struct or union without members yet. -/
def btfElfAddStruct (env : Env) (w : BtfElf) (kind : CompositeKind) (name : Option CStr)
    (size : Nat) : Int × BtfElf :=
  w.addType env (.composite kind name size [])

/-- btf_elf__add_array: one ARRAY of element type, index type and element count. -/
def btfElfAddArray (env : Env) (w : BtfElf) (type index nelems : Nat) : Int × BtfElf :=
  w.addType env (.array type index nelems)

/-- btf_elf__add_enum: an ENUM without enumerators yet. -/
def btfElfAddEnum (env : Env) (w : BtfElf) (name : Option CStr) (size : Nat) : Int × BtfElf :=
  w.addType env (.enum name size [])

/-- btf_elf__add_func_proto: one FUNC_PROTO for the prototype, its types taken relative
to type_id_off. -/
def btfElfAddFuncProto (env : Env) (w : BtfElf) (ftype : Ftype) (typeIdOff : Nat) :
    Int × BtfElf :=
  w.addType env (.funcProto ftype typeIdOff)

/-- btf_elf__add_var_type: one VAR. -/
def btfElfAddVarType (env : Env) (w : BtfElf) (type : Nat) (name : CStr) (linkage : Linkage) :
    Int × BtfElf :=
  w.addType env (.var type name linkage)

/-- btf_elf__add_datasec_type, given the writer's per-CPU section info. -/
def btfElfAddDatasecType (env : Env) (w : BtfElf) (name : CStr) : Int × BtfElf :=
  w.addType env (.datasec name w.percpuSecinfo)

/-- btf_elf__add_member: a member added to the struct or union added last. -/
def btfElfAddMember (env : Env) (w : BtfElf) (name : Option CStr) (type bitfieldSize bitOffset : Nat) :
    Int × BtfElf :=
  let member : BtfMember := ⟨name, type, bitfieldSize, bitOffset⟩
  w.extendLast env (.addMember member) (·.addMember member)

/-- btf_elf__add_enum_val: an enumerator added to the ENUM added last. -/
def btfElfAddEnumVal (env : Env) (w : BtfElf) (name : Option CStr) (value : Int) : Int × BtfElf :=
  w.extendLast env (.addEnumVal name value) (·.addEnumVal name value)

/-- btf_elf__add_var_secinfo: one entry appended to the per-CPU section info. -/
def btfElfAddVarSecinfo (env : Env) (w : BtfElf) (type offset size : Nat) : Int × BtfElf :=
  let info : VarSecinfo := ⟨type, offset, size⟩
  if env.rejects w (.addVarSecinfo info) then (-1, w)
  else (0, { w with percpuSecinfo := w.percpuSecinfo ++ [info] })

theorem btfElfAddVarSecinfo_reliable {env : Env} {w : BtfElf} {type offset size : Nat}
    (taken : 0 ≤ (btfElfAddVarSecinfo env w type offset size).1) :
    btfElfAddVarSecinfo Env.reliable w type offset size = btfElfAddVarSecinfo env w type offset size := by
  simp only [btfElfAddVarSecinfo] at taken ⊢
  split at taken
  · simp at taken
  · simp_all [Env.reliable]

/-- btf_elf__new, seeded with the base BTF's types. -/
def btfElfNew (env : Env) (filename : CStr) (elf : Elf) (baseBtf : Nat) : Option BtfElf :=
  if env.newFails then none else some ⟨filename, elf, baseBtf, [], []⟩

/-- btf_elf__encode: 0 when the BTF of the writer is written out. -/
def btfElfEncode (env : Env) (w : BtfElf) : Int := if env.encodeFails w then -1 else 0

/-- PERCPU_SECTION, the name of the per-CPU section and of its DATASEC. -/
def percpuSection : CStr := .ofAscii ".data..percpu"

end Dwarves
