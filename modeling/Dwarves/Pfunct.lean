import Dwarves.CString
import Mathlib.Data.Option.Defs

/-
pfunct, the function lister of the classes library. The library's header declares the CUs and
classes loaded from a file's DWARF and the walks over them; pfunct's main reads its options
and operands, loads the file and prints, in one of four modes, the sizes of the functions,
the functions taking a pointer to a class, all functions, or one class.

The library's sources are not part of the program: its lookups are the list walks the
header's names describe, its printers are events, and its loader is a parameter. So are
the results of getopt_long.
-/

namespace Dwarves

def dwTagPointerType : Nat := 0x0f

def dwTagSubprogram : Nat := 0x2e

def exitSuccess : Int := 0

def exitFailure : Int := 1

/-! ## printf -/

/-- The bytes of a string literal of the source, all of whose characters are ASCII. -/
def literal (s : String) : List UInt8 := s.toList.map Char.toUInt8

/-- The decimal digits printf writes for a number. -/
def decimal (n : Nat) : List UInt8 := literal (toString n)

/-- An argument of printf: a char *, or an integer word as the variable arguments pass
it. -/
inductive PrintfArg where
  | str (s : Option CStr)
  | word (w : UInt64)
deriving DecidableEq

/-- printf's output: %s prints a string (NULL as "(null)", as glibc does), %u the unsigned
int read from an integer word, its low 32 bits on LP64 targets; every other character is
copied. Arguments the format does not consume are not printed; a conversion without an
argument of its kind is undefined, and copied here. -/
def printfLoop : List Char → List PrintfArg → List UInt8
  | '%' :: 's' :: format, .str s :: args =>
    (s.map CStr.bytes).getD (literal "(null)") ++ printfLoop format args
  | '%' :: 'u' :: format, .word w :: args => decimal (w.toNat % 2 ^ 32) ++ printfLoop format args
  | c :: format, args => c.toUInt8 :: printfLoop format args
  | [], _ => []

/-- printf and fprintf, the bytes they write for a format and its arguments. -/
def printf (format : String) (args : List PrintfArg) : List UInt8 := printfLoop format.toList args

/-- A character other than % is copied. -/
theorem printfLoop_cons {c : Char} (plain : c ≠ '%') (format : List Char)
    (args : List PrintfArg) :
    printfLoop (c :: format) args = c.toUInt8 :: printfLoop format args :=
  printfLoop.eq_3 _ _ _ (fun _ _ _ percent => absurd percent plain)
    (fun _ _ _ percent => absurd percent plain)

/-- A format without conversions is printed as it is, whatever the arguments. -/
theorem printfLoop_plain {format : List Char} (plain : '%' ∉ format) (args : List PrintfArg) :
    printfLoop format args = format.map Char.toUInt8 := by
  induction format with
  | nil => simp only [printfLoop, List.map_nil]
  | cons c format ih =>
    rw [List.mem_cons, not_or] at plain
    rw [printfLoop_cons (Ne.symm plain.1), ih plain.2, List.map_cons]

namespace Classes

/-! ## The classes library -/

/-- A struct class_member, with the field pfunct reads. -/
structure ClassMember where
  type : Nat
deriving DecidableEq

/-- A struct class, with the fields pfunct reads: a function's members are its
parameters. -/
structure Class where
  members : List ClassMember
  name : CStr
  id : Nat
  type : Nat
  tag : Nat
  lowPc : UInt64
  highPc : UInt64
  inlined : Nat
deriving DecidableEq

/-- A struct cu: its classes, in list order, and its ID. -/
structure Cu where
  classes : List Class
  id : Nat
deriving DecidableEq

/-- Modelled from the spec: cus__find_by_id, the first loaded CU with the ID. -/
def cusFindById (cus : List Cu) (id : Nat) : Option Cu := cus.find? (·.id = id)

/-- Modelled from the spec: cu__find_by_id, the first class of the CU with the ID. -/
def cuFindById (cu : Cu) (id : Nat) : Option Class := cu.classes.find? (·.id = id)

/-- Modelled from the spec: cu__find_by_name, the first class of the CU whose name strcmp
finds equal. -/
def cuFindByName (cu : Cu) (name : CStr) : Option Class := cu.classes.find? (·.name = name)

/-- What pfunct writes: text on stdout or stderr, and the calls of the library's printers,
class__print and classes__print. -/
inductive Output where
  | stdout (text : List UInt8)
  | stderr (text : List UInt8)
  | classPrint (cls : Class) (cu : Cu)
  | classesPrint (tag : Nat)
deriving DecidableEq

/-- Modelled from the spec: classes__for_each, the iterator on every class of every CU, in
list order. pfunct's iterators return 0 on every path, so the walk never stops early. -/
def classesForEach (iterator : Class → Cu → List Output) (cus : List Cu) : List Output :=
  cus.flatMap fun cu => cu.classes.flatMap fun cls => iterator cls cu

end Classes

namespace Pfunct

open Classes

/-! ## pfunct.c -/

/-- What getopt_long returns for an option of "c:sV" and the long options: -c or --class
with its argument, -s or --sizes, -V or --verbose, or '?' for anything else (an unknown
option, or -c without its argument). pfunct leaves opterr set, so with a '?' getopt_long
has written its diagnostic, such as "pfunct: invalid option -- 'x'", to stderr. -/
inductive Opt where
  | c (optarg : CStr)
  | s
  | V
  | unknown (diagnostic : List UInt8)
deriving DecidableEq

instance (options : List Opt) : Decidable (∃ diagnostic, Opt.unknown diagnostic ∈ options) :=
  decidable_of_iff (options.any fun | .unknown _ => true | _ => false) <| by
    simp only [List.any_eq_true]
    constructor
    · rintro ⟨(_ | _ | _ | diagnostic), member, unknown⟩ <;> first | exact ⟨_, member⟩ | cases unknown
    · rintro ⟨diagnostic, member⟩
      exact ⟨_, member, rfl⟩

/-- The argument of a -c option. -/
def Opt.classArg : Opt → Option CStr
  | .c optarg => some optarg
  | _ => none

/-- The variables main's option loop sets: class_name, show_sizes and the global
verbose. -/
structure Settings where
  className : Option CStr
  showSizes : Bool
  verbose : Bool
deriving DecidableEq

def Settings.init : Settings := ⟨none, false, false⟩

/-- main's getopt_long loop. It stops at the first option getopt_long does not accept, whose
diagnostic getopt_long has written; main then prints the usage and returns EXIT_FAILURE. -/
def parseOptions (settings : Settings) : List Opt → Except (List UInt8) Settings
  | [] => .ok settings
  | .c optarg :: options => parseOptions { settings with className := some optarg } options
  | .s :: options => parseOptions { settings with showSizes := true } options
  | .V :: options => parseOptions { settings with verbose := true } options
  | .unknown diagnostic :: _ => .error diagnostic

/-- main's switch on the operands getopt_long leaves: the file name and the function name;
none (usage, EXIT_FAILURE) for more than two. With no operand the file name stays NULL. -/
def operandNames : List CStr → Option (Option CStr × Option CStr)
  | [] => some (none, none)
  | [fileName] => some (some fileName, none)
  | [fileName, functionName] => some (some fileName, some functionName)
  | _ :: _ :: _ :: _ => none

/-- usage. The option descriptions follow the format after a comma, as an argument that
the format never prints. -/
def usage : List Output :=
  [.stderr (printf "usage: pfunct [options] <file_name> \x7b<function_name>\x7d\n where: \n"
    [.str (some (.ofAscii ("   -c, --class=<class>  functions that have <class> " ++
      "pointer parameters\n" ++ "   -s, --sizes          show size of functions\n" ++
      "   -V, --verbose        be verbose\n")))])]

/-- The loop of class__has_parameter_of_type over the members left: whether one has a type
that, in the CU, is a pointer to a class with the target's ID. -/
def parameterLoop (cu : Classes.Cu) (target : Classes.Class) : List Classes.ClassMember → Bool
  | [] => false
  | pos :: members =>
    match cuFindById cu pos.type with
    | some cls =>
      if cls.tag = dwTagPointerType then
        match cuFindById cu cls.type with
        | some cls => if cls.id = target.id then true else parameterLoop cu target members
        | none => parameterLoop cu target members
      else parameterLoop cu target members
    | none => parameterLoop cu target members

/-- class__has_parameter_of_type: some parameter of the function points at the target class. -/
def classHasParameterOfType (cu : Classes.Cu) (self target : Classes.Class) : Bool :=
  parameterLoop cu target self.members

/-- class_iterator, under the global verbose, with the target class as its cookie: a
function that is not inlined and has a parameter pointing at the target is printed, with
class__print when verbose, else by name. -/
def classIterator (verbose : Bool) (cls : Classes.Class) (cu : Classes.Cu)
    (target : Classes.Class) : List Output :=
  if cls.tag ≠ dwTagSubprogram ∨ cls.inlined ≠ 0 then []
  else if classHasParameterOfType cu cls target then
    if verbose then [.classPrint cls cu] else [.stdout (printf "%s\n" [.str (some cls.name)])]
  else []

/-- sizes_iterator: a function that is not inlined is printed with high_pc - low_pc, a
uintmax_t that the format reads as an unsigned int. -/
def sizesIterator (cls : Classes.Class) (_cu : Classes.Cu) : List Output :=
  if cls.tag ≠ dwTagSubprogram ∨ cls.inlined ≠ 0 then []
  else [.stdout (printf "%s: %u\n" [.str (some cls.name), .word (cls.highPc - cls.lowPc)])]

/-- What main prints once the file is loaded, by mode: sizes, the functions with a
parameter pointing at a class, all functions, or one class. -/
def mainOutput (settings : Settings) (functionName : Option CStr) (cus : List Classes.Cu) :
    List Output :=
  if settings.showSizes then classesForEach sizesIterator cus
  else match settings.className with
  | some className =>
    match cusFindById cus 0 with
    | some cu =>
      match cuFindByName cu className with
      | some target =>
        classesForEach (fun cls cu => classIterator settings.verbose cls cu target) cus
      | none => [.stdout (printf "class %s not found!\n" [.str (some className)])]
    | none => [.stdout (printf "cu 0 not found!\n" [])]
  | none =>
    match functionName with
    | none => [.classesPrint dwTagSubprogram]
    | some functionName =>
      match cusFindById cus 0 with
      | some cu =>
        match cuFindByName cu functionName with
        | some cls => [.classPrint cls cu]
        | none => [.stdout (printf "function %s not found!\n" [.str (some functionName)])]
      | none => [.stdout (printf "cu 0 not found!\n" [])]

/-- main, over what getopt_long returns and the operands it leaves, with classes__load as
the loader (none for a nonzero return): the exit status and what the process writes,
getopt_long's diagnostic included. -/
def main (load : Option CStr → Option (List Classes.Cu)) (options : List Opt)
    (operands : List CStr) : Int × List Output :=
  match parseOptions .init options with
  | .error diagnostic => (exitFailure, .stderr diagnostic :: usage)
  | .ok settings =>
    match operandNames operands with
    | none => (exitFailure, usage)
    | some (fileName, functionName) =>
      match load fileName with
      | none =>
        (exitFailure,
          [.stderr (printf "pfunct: couldn't load DWARF info from %s\n" [.str fileName])])
      | some cus => (exitSuccess, mainOutput settings functionName cus)

/-! ## Options and operands -/

/-- The option loop stops at the first option getopt_long does not accept, with its
diagnostic. -/
theorem parseOptions_of_unknown (before : List Opt) (diagnostic : List UInt8)
    (after : List Opt) (recognized : ∀ d, Opt.unknown d ∉ before) (settings : Settings) :
    parseOptions settings (before ++ Opt.unknown diagnostic :: after) = .error diagnostic := by
  induction before generalizing settings with
  | nil => rfl
  | cons option before ih =>
    have later := fun d => (recognized d <| List.mem_cons_of_mem _ ·)
    cases option with
    | c optarg => exact ih later _
    | s | V => exact ih later _
    | unknown d => exact absurd (List.mem_cons_self _ _) (recognized d)

/-- The settings the option loop leaves: the last -c's argument, and whether -s and -V were
given. -/
theorem parseOptions_eq_ok {options : List Opt} (recognized : ∀ d, Opt.unknown d ∉ options)
    (settings : Settings) :
    parseOptions settings options =
      .ok ⟨(options.filterMap Opt.classArg).getLast?.or settings.className,
        settings.showSizes || Opt.s ∈ options, settings.verbose || Opt.V ∈ options⟩ := by
  induction options generalizing settings with
  | nil => simp [parseOptions]
  | cons option options ih =>
    have later := fun d => (recognized d <| List.mem_cons_of_mem _ ·)
    cases option with
    | c optarg =>
      have last : (optarg :: options.filterMap Opt.classArg).getLast?.or settings.className =
          (options.filterMap Opt.classArg).getLast?.or (some optarg) := by
        rw [← List.singleton_append, List.getLast?_append, Option.or_assoc]
        rfl
      simp only [parseOptions, ih later, List.filterMap_cons, Opt.classArg, last]
      simp
    | s | V =>
      simp only [parseOptions, ih later, List.filterMap_cons, Opt.classArg]
      simp
    | unknown d => exact absurd (List.mem_cons_self _ _) (recognized d)

/-- When some option is not accepted, the options split at the first such one. -/
theorem exists_first_unknown {options : List Opt}
    (unknown : ∃ diagnostic, Opt.unknown diagnostic ∈ options) :
    ∃ before diagnostic after, options = before ++ Opt.unknown diagnostic :: after ∧
      ∀ d, Opt.unknown d ∉ before := by
  induction options with
  | nil => simp at unknown
  | cons option options ih =>
    cases option with
    | unknown diagnostic => exact ⟨[], diagnostic, options, rfl, by simp⟩
    | c _ | s | V =>
      obtain ⟨before, diagnostic, after, split, recognized⟩ :=
        ih (by simpa using unknown)
      exact ⟨_ :: before, diagnostic, after, by rw [split]; rfl, by simpa using recognized⟩

/-- The operand switch fails exactly on more than two operands, and otherwise takes the
first as the file and the second as the function. -/
theorem operandNames_eq (operands : List CStr) :
    operandNames operands =
      if 2 < operands.length then none else some (operands.head?, operands[1]?) := by
  match operands with
  | [] | [_] | [_, _] => rfl
  | _ :: _ :: _ :: _ => simp [operandNames]

/-- usage writes its format alone. -/
theorem usage_eq : usage =
    [.stderr (literal "usage: pfunct [options] <file_name> \x7b<function_name>\x7d\n where: \n")] :=
  congrArg (fun text => [Output.stderr text]) (printfLoop_plain (by decide) _)

/-- main on accepted arguments and a loaded file: EXIT_SUCCESS, and the output of the mode
the options and the second operand select. -/
theorem main_of_loaded {load : Option CStr → Option (List Classes.Cu)} {options : List Opt}
    {operands : List CStr} {cus : List Classes.Cu} (recognized : ∀ d, Opt.unknown d ∉ options)
    (few : operands.length ≤ 2) (loaded : load operands.head? = some cus) :
    main load options operands =
      (exitSuccess, mainOutput ⟨(options.filterMap Opt.classArg).getLast?,
        Opt.s ∈ options, Opt.V ∈ options⟩ operands[1]? cus) := by
  simp [main, parseOptions_eq_ok recognized, Settings.init, operandNames_eq, Nat.not_lt.2 few,
    loaded]

/-- main on an option getopt_long does not accept: EXIT_FAILURE, getopt_long's diagnostic
and the usage, whatever the loader and the operands. -/
theorem main_of_unknown (load : Option CStr → Option (List Classes.Cu)) (before : List Opt)
    (diagnostic : List UInt8) (after : List Opt) (operands : List CStr)
    (recognized : ∀ d, Opt.unknown d ∉ before) :
    main load (before ++ Opt.unknown diagnostic :: after) operands =
      (exitFailure, .stderr diagnostic :: usage) := by
  simp only [main, parseOptions_of_unknown before diagnostic after recognized]

/-- main on accepted options and more than two operands: EXIT_FAILURE and the usage,
whatever the loader. -/
theorem main_of_many_operands (load : Option CStr → Option (List Classes.Cu))
    {options : List Opt} (recognized : ∀ d, Opt.unknown d ∉ options) {operands : List CStr}
    (many : 2 < operands.length) : main load options operands = (exitFailure, usage) := by
  simp only [main, parseOptions_eq_ok recognized, operandNames_eq, if_pos many]

/-- pfunct rejects its arguments with EXIT_FAILURE and the first two lines of its usage on
stderr, whatever the loader; the option descriptions are never printed. After accepted
options, an option getopt_long does not accept (an unknown one, or -c without its
argument) is rejected with getopt_long's diagnostic for it first, whatever follows; more
than two operands get the usage alone. -/
theorem rejected_arguments_print_usage_only (load : Option CStr → Option (List Classes.Cu))
    (options : List Opt) (recognized : ∀ d, Opt.unknown d ∉ options) :
    (∀ diagnostic after operands, main load (options ++ Opt.unknown diagnostic :: after) operands =
      (exitFailure, [.stderr diagnostic,
        .stderr (literal "usage: pfunct [options] <file_name> \x7b<function_name>\x7d\n where: \n")])) ∧
    ∀ operands : List CStr, 2 < operands.length → main load options operands = (exitFailure,
      [.stderr (literal "usage: pfunct [options] <file_name> \x7b<function_name>\x7d\n where: \n")]) :=
  ⟨fun diagnostic after operands => by
      rw [main_of_unknown load options diagnostic after operands recognized, usage_eq],
    fun _ many => by rw [main_of_many_operands load recognized many, usage_eq]⟩

/-- pfunct -s -x: getopt_long's diagnostic for -x, then the usage. -/
theorem rejected_arguments_print_usage_only_on_unknown_option :
    (∀ d, Opt.unknown d ∉ [Opt.s]) ∧
    main (fun _ => none) ([.s] ++ [.unknown (literal "pfunct: invalid option -- 'x'\n")]) [] =
      (exitFailure, [.stderr (literal "pfunct: invalid option -- 'x'\n"),
        .stderr (literal "usage: pfunct [options] <file_name> \x7b<function_name>\x7d\n where: \n")]) :=
  ⟨fun _ => by simp, (rejected_arguments_print_usage_only _ [.s] (fun _ => by simp)).1 _ [] []⟩

/-- pfunct exits with EXIT_FAILURE exactly when an option is not accepted, more than two
operands are given, or classes__load fails on the first operand, on NULL when there is
none. -/
theorem exit_status (load : Option CStr → Option (List Classes.Cu)) (options : List Opt)
    (operands : List CStr) :
    (main load options operands).1 = if (∃ diagnostic, Opt.unknown diagnostic ∈ options) ∨
      2 < operands.length ∨ load operands.head? = none then exitFailure else exitSuccess := by
  by_cases unknown : ∃ diagnostic, Opt.unknown diagnostic ∈ options
  · obtain ⟨before, diagnostic, after, rfl, recognized⟩ := exists_first_unknown unknown
    rw [main_of_unknown load before diagnostic after operands recognized, if_pos (.inl unknown)]
  have recognized : ∀ d, Opt.unknown d ∉ options := fun d member => unknown ⟨d, member⟩
  by_cases many : 2 < operands.length
  · rw [main_of_many_operands load recognized many, if_pos (.inr (.inl many))]
  cases loaded : load operands.head? with
  | none => simp [main, parseOptions_eq_ok recognized, operandNames_eq, many, loaded]
  | some cus => simp [main_of_loaded recognized (Nat.not_lt.1 many) loaded, unknown, many]

/-! ## The listings -/

/-- A member's type is, in the CU, a pointer to a class with the target's ID. -/
def PointsAt (cu : Classes.Cu) (target : Classes.Class) (member : Classes.ClassMember) : Prop :=
  ∃ pointer ∈ cuFindById cu member.type, pointer.tag = dwTagPointerType ∧
    ∃ pointee ∈ cuFindById cu pointer.type, pointee.id = target.id

/-- One round of the member loop: the member points at the target, or a later one does. -/
theorem parameterLoop_cons (cu : Classes.Cu) (target : Classes.Class) (pos : Classes.ClassMember)
    (members : List Classes.ClassMember) : parameterLoop cu target (pos :: members) = true ↔
      PointsAt cu target pos ∨ parameterLoop cu target members = true := by
  rw [PointsAt, parameterLoop]
  cases found : cuFindById cu pos.type with
  | none => simp
  | some pointer =>
    by_cases pointerTag : pointer.tag = dwTagPointerType
    · cases target' : cuFindById cu pointer.type with
      | none => simp [pointerTag, target']
      | some pointee => by_cases same : pointee.id = target.id <;> simp [pointerTag, target', same]
    · simp [pointerTag]

/-- The member loop finds exactly a member pointing at the target. -/
theorem parameterLoop_iff (cu : Classes.Cu) (target : Classes.Class)
    (members : List Classes.ClassMember) :
    parameterLoop cu target members = true ↔
      ∃ member ∈ members, PointsAt cu target member := by
  induction members with
  | nil => simp [parameterLoop]
  | cons pos members ih =>
    rw [parameterLoop_cons, ih]
    simp only [List.mem_cons, exists_eq_or_imp]

/-- A function -c lists: not inlined, with a parameter whose type is, in the function's own
CU, a pointer to a class with the target's ID in that CU. -/
def Lists (cu : Classes.Cu) (target fn : Classes.Class) : Prop :=
  fn.tag = dwTagSubprogram ∧ fn.inlined = 0 ∧
    ∃ member ∈ fn.members, PointsAt cu target member

/-- A function is listed when class_iterator's checks pass. -/
theorem lists_iff (cu : Classes.Cu) (target fn : Classes.Class) :
    Lists cu target fn ↔ fn.tag = dwTagSubprogram ∧ fn.inlined = 0 ∧
      classHasParameterOfType cu fn target = true := by
  rw [classHasParameterOfType, parameterLoop_iff]
  rfl

instance (cu : Classes.Cu) (target : Classes.Class) : DecidablePred (Lists cu target) := fun fn =>
  decidable_of_iff _ (lists_iff cu target fn).symm

/-- A walk whose iterator prints one line for the classes of a kind and nothing for the
others prints the lines of that kind's classes, in order. -/
theorem flatMap_ite_singleton {α : Type} (p : α → Prop) [DecidablePred p] (line : α → Output)
    (classes : List α) :
    classes.flatMap (fun cls => if p cls then [line cls] else []) =
      (classes.filter p).map line := by
  induction classes with
  | nil => rfl
  | cons cls classes ih => by_cases kind : p cls <;> simp [kind, ih]

/-- class_iterator prints one line for a function it lists, nothing for any other class. -/
theorem classIterator_eq (verbose : Bool) (cls : Classes.Class) (cu : Classes.Cu)
    (target : Classes.Class) :
    classIterator verbose cls cu target =
      if Lists cu target cls then
        [if verbose then .classPrint cls cu else .stdout (cls.name.bytes ++ literal "\n")]
      else [] := by
  have line : printf "%s\n" [.str (some cls.name)] = cls.name.bytes ++ literal "\n" := rfl
  rw [classIterator, line]
  by_cases listed : Lists cu target cls
  · obtain ⟨tag, inlined, has⟩ := (lists_iff cu target cls).1 listed
    rw [if_pos listed, if_neg (by simp [tag, inlined]), if_pos has]
    cases verbose <;> rfl
  · rw [if_neg listed]
    rw [lists_iff] at listed
    split_ifs <;> simp_all

/-- sizes_iterator prints one line for a function that is not inlined, nothing for any
other class. high_pc - low_pc wraps modulo 2^64 as a uintmax_t, and the format reads its
low 32 bits. -/
theorem sizesIterator_eq (cls : Classes.Class) (cu : Classes.Cu) :
    sizesIterator cls cu = if cls.tag = dwTagSubprogram ∧ cls.inlined = 0 then
      [.stdout (cls.name.bytes ++ literal ": " ++
        decimal ((cls.highPc.toNat + 2 ^ 64 - cls.lowPc.toNat) % 2 ^ 32) ++ literal "\n")]
    else [] := by
  have size : (cls.highPc - cls.lowPc).toNat % 2 ^ 32 =
      (cls.highPc.toNat + 2 ^ 64 - cls.lowPc.toNat) % 2 ^ 32 := by
    have below : cls.lowPc.toNat < 2 ^ 64 := cls.lowPc.toBitVec.isLt
    rw [UInt64.sub_def, UInt64.toNat, BitVec.toNat_sub,
      Nat.mod_mod_of_dvd _ (by decide : 2 ^ 32 ∣ 2 ^ 64)]
    congr 1
    simp only [UInt64.toNat] at below ⊢
    omega
  have line : printf "%s: %u\n" [.str (some cls.name), .word (cls.highPc - cls.lowPc)] =
      cls.name.bytes ++ literal ": " ++ decimal ((cls.highPc - cls.lowPc).toNat % 2 ^ 32) ++
        literal "\n" := by
    rw [List.append_assoc, List.append_assoc]
    rfl
  rw [sizesIterator, line, size]
  by_cases kind : cls.tag = dwTagSubprogram ∧ cls.inlined = 0
  · rw [if_pos kind, if_neg (not_or.2 ⟨not_not.2 kind.1, not_not.2 kind.2⟩)]
  · rw [if_neg kind, if_pos (not_and_or.1 kind)]

/-- With -c, pfunct lists, CU after CU and in each CU's order, the functions that are not
inlined and have a parameter whose type, in their own CU, is a pointer to a class with the
target's ID, the target being the first class named by the last -c in the first CU with
ID 0. With -V it prints them with class__print, else one name a line. IDs are per CU, so in
another CU the class pointed at need not be the target. -/
theorem class_mode_lists_pointer_parameters (load : Option CStr → Option (List Classes.Cu))
    (options : List Opt) (operands : List CStr) (cus : List Classes.Cu) (className : CStr)
    (first : Classes.Cu) (target : Classes.Class)
    (recognized : ∀ diagnostic, Opt.unknown diagnostic ∉ options)
    (noSizes : Opt.s ∉ options)
    (named : (options.filterMap Opt.classArg).getLast? = some className)
    (few : operands.length ≤ 2) (loaded : load operands.head? = some cus)
    (firstCu : cusFindById cus 0 = some first)
    (found : cuFindByName first className = some target) :
    main load options operands = (exitSuccess, cus.flatMap fun cu =>
      (cu.classes.filter (Lists cu target)).map fun fn =>
        if Opt.V ∈ options then .classPrint fn cu
        else .stdout (fn.name.bytes ++ literal "\n")) := by
  rw [main_of_loaded recognized few loaded]
  simp only [mainOutput, noSizes, decide_False, Bool.false_eq_true, if_false, named, firstCu, found,
    classesForEach, classIterator_eq, flatMap_ite_singleton, decide_eq_true_eq]

/-- A struct of ID 1. -/
def structNamed (name : CStr) : Classes.Class := ⟨[], name, 1, 0, 0x13, 0, 0, 0⟩

/-- A pointer, of ID 2, to the class of ID 1. -/
def pointerToOne : Classes.Class := ⟨[], .ofAscii "", 2, 1, dwTagPointerType, 0, 0, 0⟩

/-- A function of ID 3, 16 bytes long, whose one parameter has type 2. -/
def takesPointer (name : CStr) : Classes.Class :=
  ⟨[⟨2⟩], name, 3, 0, dwTagSubprogram, 0x1000, 0x1010, 0⟩

/-- Two CUs, each with a struct of ID 1, a pointer to it and a function taking the pointer:
S and f in CU 0, T and g in CU 1. -/
def twoCus : List Classes.Cu :=
  [⟨[structNamed (.ofAscii "S"), pointerToOne, takesPointer (.ofAscii "f")], 0⟩,
    ⟨[structNamed (.ofAscii "T"), pointerToOne, takesPointer (.ofAscii "g")], 1⟩]

/-- pfunct -c S over the two CUs lists f, and g, whose parameter points at T. -/
theorem class_mode_lists_pointer_parameters_across_cus :
    (∀ diagnostic, Opt.unknown diagnostic ∉ [Opt.c (.ofAscii "S")]) ∧
    Opt.s ∉ [Opt.c (.ofAscii "S")] ∧
    ([Opt.c (.ofAscii "S")].filterMap Opt.classArg).getLast? = some (.ofAscii "S") ∧
    [CStr.ofAscii "a.out"].length ≤ 2 ∧
    (fun _ => some twoCus : Option CStr → Option (List Classes.Cu)) [CStr.ofAscii "a.out"].head? =
      some twoCus ∧
    cusFindById twoCus 0 = twoCus.head? ∧
    cuFindByName ⟨[structNamed (.ofAscii "S"), pointerToOne, takesPointer (.ofAscii "f")], 0⟩
      (.ofAscii "S") = some (structNamed (.ofAscii "S")) ∧
    main (fun _ => some twoCus) [.c (.ofAscii "S")] [.ofAscii "a.out"] = (exitSuccess,
      twoCus.flatMap fun cu => (cu.classes.filter (Lists cu (structNamed (.ofAscii "S")))).map
        fun fn => if Opt.V ∈ [Opt.c (.ofAscii "S")] then .classPrint fn cu
          else .stdout (fn.name.bytes ++ literal "\n")) :=
  ⟨fun _ => by simp, by decide, rfl, by decide, rfl, rfl, by decide,
    class_mode_lists_pointer_parameters _ _ _ _ _ _ _ (fun _ => by simp) (by decide) rfl
      (by decide) rfl rfl (by decide)⟩

/-- With -s, pfunct prints, CU after CU and in each CU's order, each function that is not
inlined with its size, whatever -c, -V or the operands ask: high_pc - low_pc modulo 2^32, so a
function of 4 GiB or more, or one whose high_pc is below its low_pc, prints a wrapped size. -/
theorem sizes_mode_lists_functions (load : Option CStr → Option (List Classes.Cu))
    (options : List Opt) (operands : List CStr) (cus : List Classes.Cu)
    (recognized : ∀ diagnostic, Opt.unknown diagnostic ∉ options) (sizes : Opt.s ∈ options)
    (few : operands.length ≤ 2)
    (loaded : load operands.head? = some cus) :
    main load options operands = (exitSuccess, cus.flatMap fun cu =>
      (cu.classes.filter fun fn => fn.tag = dwTagSubprogram ∧ fn.inlined = 0).map fun fn =>
        .stdout (fn.name.bytes ++ literal ": " ++
          decimal ((fn.highPc.toNat + 2 ^ 64 - fn.lowPc.toNat) % 2 ^ 32) ++ literal "\n")) := by
  rw [main_of_loaded recognized few loaded]
  simp only [mainOutput, sizes, decide_True, if_true, classesForEach, sizesIterator_eq,
    flatMap_ite_singleton]

/-- pfunct -s -c S with a function name prints the sizes of f and g. -/
theorem sizes_mode_lists_functions_over_other_options :
    (∀ diagnostic, Opt.unknown diagnostic ∉ [Opt.c (.ofAscii "S"), Opt.s]) ∧
    Opt.s ∈ [Opt.c (.ofAscii "S"), Opt.s] ∧
    [CStr.ofAscii "a.out", .ofAscii "f"].length ≤ 2 ∧
    (fun _ => some twoCus : Option CStr → Option (List Classes.Cu))
      [CStr.ofAscii "a.out", .ofAscii "f"].head? = some twoCus ∧
    main (fun _ => some twoCus) [.c (.ofAscii "S"), .s] [.ofAscii "a.out", .ofAscii "f"] =
      (exitSuccess, twoCus.flatMap fun cu =>
        (cu.classes.filter fun fn => fn.tag = dwTagSubprogram ∧ fn.inlined = 0).map fun fn =>
          .stdout (fn.name.bytes ++ literal ": " ++
            decimal ((fn.highPc.toNat + 2 ^ 64 - fn.lowPc.toNat) % 2 ^ 32) ++ literal "\n")) :=
  ⟨fun _ => by simp, by decide, by decide, rfl,
    sizes_mode_lists_functions _ _ _ _ (fun _ => by simp) (by decide) (by decide) rfl⟩

end Pfunct

end Dwarves
