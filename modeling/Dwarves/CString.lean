import Mathlib.Data.List.Lex
import Mathlib.Order.Basic
import Mathlib.Algebra.Group.Int

/-
C strings as the encoder reads them from the ELF string table and from the
DWARF strings, ordered the way strcmp orders them.
-/

namespace Dwarves

/-- A C string: the bytes before its terminating NUL. -/
structure CStr where
  bytes : List UInt8
  nulFree : ∀ byte ∈ bytes, byte ≠ 0
deriving DecidableEq

namespace CStr

/-- The bytes as strcmp reads them, as unsigned char. -/
def values (s : CStr) : List Nat := s.bytes.map UInt8.toNat

theorem values_injective : Function.Injective values := by
  rintro ⟨a, _⟩ ⟨b, _⟩ equal
  simp only [mk.injEq]
  exact (List.map_injective_iff.2 fun _ _ same => UInt8.toNat.inj same) equal

/-- Strings ordered byte by byte, a proper prefix first: the order of strcmp. -/
instance : LinearOrder CStr := LinearOrder.lift' values values_injective

/-- This is strcmp: the order of the byte values, a proper prefix first. -/
def strcmp (a b : CStr) : Ordering := compare a.values b.values

theorem strcmp_eq_compare (a b : CStr) : strcmp a b = compare a b := rfl

/-- strcmp returns 0 exactly on equal strings. -/
theorem strcmp_eq_iff (a b : CStr) : strcmp a b = .eq ↔ a = b := by
  rw [strcmp_eq_compare, compare_eq_iff_eq]

/-- A string literal of the source, all of whose characters are ASCII. -/
def ofAscii (s : String) : CStr :=
  ⟨(s.toList.map fun c => c.toNat.toUInt8).filter (· ≠ 0), by simp⟩

end CStr

end Dwarves
