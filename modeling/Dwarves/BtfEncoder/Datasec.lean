import Dwarves.BtfEncoder.Rejections

/-
The per-CPU section info of a session. The variable pass gives each per-CPU variable it
encodes a VAR record, then a section info entry naming the VAR's ID as a uint32_t, and
btf_encoder__encode emits the session's entries in one DATASEC. So while the writer's IDs
fit in 32 bits, every entry of the writer of a reachable state names a VAR record of that
writer: the DATASEC refers to VAR records only.
-/

namespace Dwarves

/-- Every per-CPU section info entry of the writer names a VAR record of the writer. -/
def BtfElf.SecinfoNamesVars (w : BtfElf) : Prop :=
  ∀ info ∈ w.percpuSecinfo, ∃ type name linkage, w.record info.type = some (.var type name linkage)

/-- The session's writer, while its IDs fit in 32 bits, has every entry naming a VAR
record. -/
def Encoder.SecinfoNamesVars (e : Encoder) : Prop :=
  ∀ w, e.btfe = some w → w.nrTypes < 2 ^ 32 → w.SecinfoNamesVars

/-- A natural number below 2^32 is its own uint32_t. -/
theorem toU32_of_lt {n : Nat} (small : n < 2 ^ 32) : toU32 n = n := by
  unfold toU32
  omega

/-- Appending records, and entries that name VAR records among them, keeps every entry
naming a VAR record. -/
theorem BtfElf.SecinfoNamesVars.append {w : BtfElf} (names : w.SecinfoNamesVars)
    {more : List BtfType} {infos : List VarSecinfo}
    (named : ∀ info ∈ infos, ∃ k type name linkage, more[k]? = some (.var type name linkage) ∧
      info.type = w.nrTypes + k + 1) :
    BtfElf.SecinfoNamesVars
      { w with types := w.types ++ more, percpuSecinfo := w.percpuSecinfo ++ infos } := by
  intro info member
  rcases List.mem_append.1 member with old | new
  · obtain ⟨type, name, linkage, found⟩ := names info old
    exact ⟨type, name, linkage, @BtfElf.record_of_prefix w _ more _ _ rfl rfl found⟩
  · obtain ⟨k, type, name, linkage, found, named⟩ := named info new
    refine ⟨type, name, linkage, ?_⟩
    rw [named, @BtfElf.record_appended w
      { w with types := w.types ++ more, percpuSecinfo := w.percpuSecinfo ++ infos } more k rfl rfl,
      found]

/-- A successful body of cu__encode_btf keeps every entry naming a VAR record, while the
writer's IDs fit in 32 bits. -/
theorem encodeCu_secinfoNamesVars {env : Env} {e e' : Encoder} {w : BtfElf} {cu : Cu}
    {force skipEncodingVars : Bool} (ok : encodeCu env e w cu force skipEncodingVars = (0, e'))
    (names : w.nrTypes < 2 ^ 32 → w.SecinfoNamesVars) :
    ∃ w', e'.btfe = some w' ∧ (w'.nrTypes < 2 ^ 32 → w'.SecinfoNamesVars) := by
  obtain ⟨prepared, indexed, added, infos, -, -, -, -, -, -, named, rfl⟩ := encodeCu_ok ok
  set records := cu.types.filterMap (tagRecord prepared.arrayIndexId w.nrTypes)
  refine ⟨_, rfl, fun fits => ?_⟩
  have total : w.nrTypes + records.length + indexed.length + added.length < 2 ^ 32 := by
    simp only [BtfElf.nrTypes, List.length_append] at fits ⊢
    omega
  rw [List.append_assoc, List.append_assoc]
  refine (names (by omega)).append fun info member => ?_
  obtain ⟨k, type, name, linkage, found, named⟩ := named info member
  have inside := (List.getElem?_eq_some_iff.1 found).1
  refine ⟨records.length + (indexed.length + k), type, name, linkage, ?_, ?_⟩
  · rw [List.getElem?_append_right (by omega), Nat.add_sub_cancel_left,
      List.getElem?_append_right (by omega), Nat.add_sub_cancel_left, found]
  · rw [named, toU32_of_lt (by omega)]
    omega

/-- cu__encode_btf keeps every entry of the session's writer naming a VAR record: a failed
call leaves no session, and a successful one runs the body on the session's writer or on
a new writer without entries. -/
theorem cuEncodeBtf_secinfoNamesVars (env : Env) (e : Encoder) (cu : Cu)
    (force skipEncodingVars : Bool) (consistent : e.Consistent) (names : e.SecinfoNamesVars) :
    (cuEncodeBtf env e cu force skipEncodingVars).2.1.SecinfoNamesVars := by
  intro w' active'
  by_cases ok : (cuEncodeBtf env e cu force skipEncodingVars).1 = 0
  · have fromBody : ∀ {e2 : Encoder} {w : BtfElf}, (w.nrTypes < 2 ^ 32 → w.SecinfoNamesVars) →
        encodeCu env e2 w cu force skipEncodingVars =
          (0, (cuEncodeBtf env e cu force skipEncodingVars).2.1) →
        w'.nrTypes < 2 ^ 32 → w'.SecinfoNamesVars := fun before encoded => by
      obtain ⟨w2, active2, names2⟩ := encodeCu_secinfoNamesVars encoded before
      obtain rfl := Option.some.inj (active'.symm.trans active2)
      exact names2
    rcases cuEncodeBtf_ok_cases (Prod.ext ok rfl) with
      ⟨w, active, -, encoded⟩ | ⟨-, table, percpuVars, encoded⟩
    · exact fromBody (names w active) encoded
    · exact fromBody (fun _ info member => absurd member (List.not_mem_nil _)) encoded
  · rw [(cuEncodeBtf_idle env e cu force skipEncodingVars consistent.idle).2 ok] at active'
    exact Option.noConfusion active'

/-- In every reachable state, while the writer's IDs fit in 32 bits, every per-CPU section
info entry of the session's writer names a VAR record of that writer, so the DATASEC
btf_encoder__encode emits from it refers to VAR records only. -/
theorem reachable_secinfo_names_vars (baseBtf : Nat) (e : Encoder) (reachable : Reachable baseBtf e) :
    ∀ w, e.btfe = some w → w.nrTypes < 2 ^ 32 →
      ∀ info ∈ w.percpuSecinfo, ∃ type name linkage,
        w.record info.type = some (.var type name linkage) :=
  (reachable.invariant (fun e => e.Consistent ∧ e.SecinfoNamesVars)
    ⟨⟨fun _ => rfl, fun active => absurd rfl active⟩, fun _ active => Option.noConfusion active⟩
    (fun env e cu force skipEncodingVars holds =>
      ⟨cuEncodeBtf_consistent env e cu force skipEncodingVars holds.1,
        cuEncodeBtf_secinfoNamesVars env e cu force skipEncodingVars holds.1 holds.2⟩)
    (fun e _ => ⟨e.teardown_consistent, fun _ active => Option.noConfusion active⟩)).2

/-- The invariant in the per-CPU session of p.o, whose one entry names its VAR. -/
theorem reachable_secinfo_names_vars_in_percpu_session :
    Reachable 0 percpuSessionEnd ∧
    ∀ w, percpuSessionEnd.btfe = some w → w.nrTypes < 2 ^ 32 →
      ∀ info ∈ w.percpuSecinfo, ∃ type name linkage,
        w.record info.type = some (.var type name linkage) :=
  have reachable : Reachable 0 percpuSessionEnd := Reachable.init.after_cuEncodeBtf _ _ _ _
  ⟨reachable, reachable_secinfo_names_vars 0 percpuSessionEnd reachable⟩

end Dwarves
