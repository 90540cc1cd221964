import Dwarves.CString

/-
The ELF file of a CU as libelf hands it to the encoder: its symbol table and
the sections that elf_getscn, gelf_getshdr and elf_getdata look up.
-/

namespace Dwarves

def sttObject : Nat := 1

def sttFunc : Nat := 2

/-- A GElf_Sym, its name looked up in the symbol string table and its type read from
st_info. -/
structure Sym where
  name : CStr
  value : Nat
  size : Nat
  shndx : Nat
  type : Nat
deriving DecidableEq

/-- The part of a section header that the encoder reads. -/
structure Shdr where
  addr : Nat
deriving DecidableEq

/-- A section found by elf_getscn: gelf_getshdr and elf_getdata may still fail on it,
and its data are d_buf[0, d_size). -/
structure Scn where
  shdr : Option Shdr
  data : Option (List UInt8)
deriving DecidableEq

/-- An ELF file with a symbol table. The per-CPU section is found when the writer is
created: its index, 0 when there is none, and its address. -/
structure Elf where
  sections : List Scn
  symtab : List Sym
  percpuShndx : Nat
  percpuBaseAddr : Nat
deriving DecidableEq

/-- elf_getscn: the section of an index, none past the last. -/
def Elf.getscn (elf : Elf) (idx : Nat) : Option Scn := elf.sections[idx]?

end Dwarves
