import Dwarves.CString

/-
The check btf_name_valid makes on per-CPU symbol names, and the identifier
language it decides.
-/

namespace Dwarves

def ksymNameLen : Nat := 128

/-- isalpha in the C locale. -/
def isalpha (c : UInt8) : Bool :=
  (65 ≤ c.toNat && c.toNat ≤ 90) || (97 ≤ c.toNat && c.toNat ≤ 122)

/-- isdigit in the C locale. -/
def isdigit (c : UInt8) : Bool := 48 ≤ c.toNat && c.toNat ≤ 57

/-- isalnum in the C locale. -/
def isalnum (c : UInt8) : Bool := isalpha c || isdigit c

/-- btf_name_char_ok: '_' and '.' anywhere, then a letter first and a letter or digit
after. -/
def btfNameCharOk (c : UInt8) (first : Bool) : Bool :=
  if c = 95 || c = 46 then true else if first then isalpha c else isalnum c

/-- The loop of btf_name_valid from p + 1 on, given the bytes left before the NUL and
the room left before limit. -/
def btfNameValidLoop : List UInt8 → Nat → Bool
  | [], _ => true
  | _ :: _, 0 => false
  | c :: rest, room + 1 => btfNameCharOk c false && btfNameValidLoop rest room

/-- btf_name_valid: the first byte, then at most KSYM_NAME_LEN - 1 more before the NUL. -/
def btfNameValid (p : CStr) : Bool :=
  btfNameCharOk (p.bytes.headD 0) true && btfNameValidLoop p.bytes.tail (ksymNameLen - 1)

/-- The class [A-Za-z_.]. -/
def identifierFirst (c : UInt8) : Bool := isalpha c || c = 95 || c = 46

/-- The class [A-Za-z0-9_.]. -/
def identifierRest (c : UInt8) : Bool := isalnum c || c = 95 || c = 46

/-- The language [A-Za-z_.][A-Za-z0-9_.]{0,repeatMax}, as the spec writes it. -/
def matchesIdentifier (repeatMax : Nat) : List UInt8 → Bool
  | [] => false
  | c :: rest => identifierFirst c && rest.all identifierRest && decide (rest.length ≤ repeatMax)

theorem btfNameCharOk_first (c : UInt8) : btfNameCharOk c true = identifierFirst c := by
  by_cases special : c = 95 ∨ c = 46
  · rcases special with rfl | rfl <;> decide
  · simp_all [btfNameCharOk, identifierFirst]

theorem btfNameCharOk_rest (c : UInt8) : btfNameCharOk c false = identifierRest c := by
  by_cases special : c = 95 ∨ c = 46
  · rcases special with rfl | rfl <;> decide
  · simp_all [btfNameCharOk, identifierRest]

/-- The loop accepts the bytes that are all in the second class and fit in the room. -/
theorem btfNameValidLoop_eq (bytes : List UInt8) (room : Nat) :
    btfNameValidLoop bytes room = (bytes.all identifierRest && decide (bytes.length ≤ room)) := by
  induction bytes generalizing room with
  | nil => simp [btfNameValidLoop]
  | cons c rest inductionHypothesis =>
    cases room with
    | zero => simp [btfNameValidLoop]
    | succ room => simp [btfNameValidLoop, btfNameCharOk_rest, inductionHypothesis, Bool.and_assoc]

/-- btf_name_valid decides [A-Za-z_.][A-Za-z0-9_.]{0,127}: names of at most 128 bytes,
since the byte at the limit may be the NUL. -/
theorem btfNameValid_eq_matchesIdentifier (p : CStr) :
    btfNameValid p = matchesIdentifier (ksymNameLen - 1) p.bytes := by
  unfold btfNameValid
  cases p.bytes with
  | nil => rfl
  | cons c rest =>
    simp [matchesIdentifier, btfNameCharOk_first, btfNameValidLoop_eq, Bool.and_assoc]

/-- A name of 128 underscores. -/
def underscores128 : CStr := ⟨List.replicate 128 95, by simp [List.mem_replicate]⟩

set_option maxRecDepth 2000 in
/-- The 128-byte name is valid, though the language {0,126} of the spec refuses it. -/
theorem btfNameValid_accepts_128_bytes :
    btfNameValid underscores128 = true ∧ matchesIdentifier 126 underscores128.bytes = false := by
  decide

end Dwarves
