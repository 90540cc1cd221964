import Dwarves.BtfEncoder.Elf

/-
The debugging information of one CU as the DWARF loader hands it to the
encoder. A type field holds the core ID of the type it refers to, 0 for void;
a name the loader cannot resolve is NULL.
-/

namespace Dwarves

/-- The fields of struct base_type that the writer reads. -/
structure BaseType where
  bitSize : Nat
  isSigned : Bool
  isBool : Bool
deriving DecidableEq

/-- A data member of a struct, union or class. -/
structure ClassMember where
  name : Option CStr
  type : Nat
  bitfieldSize : Nat
  bitOffset : Nat
deriving DecidableEq

structure Enumerator where
  name : Option CStr
  value : Int
deriving DecidableEq

structure Parameter where
  name : Option CStr
  type : Nat
deriving DecidableEq

/-- A function prototype: the return type and the parameters. -/
structure Ftype where
  type : Nat
  params : List Parameter
deriving DecidableEq

/-- The struct type behind a struct, union or class tag. -/
structure CompositeType where
  name : Option CStr
  size : Nat
  declaration : Bool
  members : List ClassMember
deriving DecidableEq

structure EnumerationType where
  name : Option CStr
  size : Nat
  enumerators : List Enumerator
deriving DecidableEq

/-- A type tag, by the DW_TAG kind tag__encode_btf dispatches on; every other kind is
kept with its tag number. -/
inductive Tag where
  | baseType (name : Option CStr) (info : BaseType)
  | constType (type : Nat)
  | pointerType (type : Nat)
  | restrictType (type : Nat)
  | volatileType (type : Nat)
  | typedef (type : Nat) (name : Option CStr)
  | structureType (type : CompositeType)
  | unionType (type : CompositeType)
  | classType (type : CompositeType)
  | arrayType (type : Nat) (nrEntries : List Nat)
  | enumerationType (type : EnumerationType)
  | subroutineType (ftype : Ftype)
  | other (tag : Nat)
deriving DecidableEq

/-- The tags tag__encode_btf has a case for. -/
def Tag.Supported : Tag → Prop
  | .other _ => False
  | _ => True

/-- A DWARF function, with the name function__name gives it. -/
structure Function where
  name : CStr
  declaration : Bool
  external : Bool
  proto : Ftype
deriving DecidableEq

/-- The result of variable__scope. -/
inductive VScope where
  | vscopeUnknown
  | vscopeLocal
  | vscopeGlobal
  | vscopeRegister
  | vscopeOptimized
deriving DecidableEq

/-- The fields the variable pass reads from the variable a declaration's spec points to. -/
structure VariableSpec where
  type : Nat
  external : Bool
deriving DecidableEq

structure Variable where
  declaration : Bool
  spec : Option VariableSpec
  scope : VScope
  addr : Nat
  type : Nat
  external : Bool
deriving DecidableEq

/-- A CU. Its types table holds the tags of core IDs 1..n in order, slot 0 being void. -/
structure Cu where
  filename : CStr
  elf : Elf
  types : List Tag
  functions : List Function
  vars : List Variable
deriving DecidableEq

namespace Cu

/-- types_table.nr_entries: the n tags and the void slot. -/
def nrEntries (cu : Cu) : Nat := cu.types.length + 1

/-- Modelled from the spec: cu__find_base_type_by_name, the core ID of the first base
type of the CU with the given name. -/
def findBaseTypeByName (cu : Cu) (name : CStr) : Option Nat :=
  (cu.types.findIdx? fun
    | .baseType (some found) _ => found = name
    | _ => false).map (· + 1)

/-- The core ID found is that of a base type of the name. -/
theorem findBaseTypeByName_some {cu : Cu} {name : CStr} {id : Nat}
    (found : cu.findBaseTypeByName name = some id) :
    ∃ info, 1 ≤ id ∧ cu.types[id - 1]? = some (.baseType (some name) info) := by
  obtain ⟨i, at_i, rfl⟩ := Option.map_eq_some'.1 found
  obtain ⟨inside, named, -⟩ := List.findIdx?_eq_some_iff_getElem.1 at_i
  simp only [Nat.add_sub_cancel, List.getElem?_eq_getElem inside, Option.some.injEq]
  split at named
  · rename_i found info _
    exact ⟨info, by omega, by simp_all⟩
  · simp at named

end Cu

end Dwarves
