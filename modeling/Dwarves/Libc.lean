import Mathlib.Data.List.Sort

/-
The two C library routines the encoder searches its tables with. Every
comparator of the encoder (functions_cmp, addrs_cmp, percpu_var_cmp) compares
one key field of the elements, so both routines are stated over that key.
-/

namespace Dwarves

variable {α β : Type} [LinearOrder β]

/-- Elements ordered by one key field. -/
def KeyLe (key : α → β) (a b : α) : Prop := key a ≤ key b

instance (key : α → β) : DecidableRel (KeyLe key) :=
  fun a b => inferInstanceAs (Decidable (key a ≤ key b))

instance (key : α → β) : IsTotal α (KeyLe key) := ⟨fun a b => le_total (key a) (key b)⟩

instance (key : α → β) : IsTrans α (KeyLe key) := ⟨fun _ _ _ => le_trans⟩

/-- qsort by a key comparator. The C library leaves the order of equal keys open;
the model keeps them in input order. -/
def qsort (key : α → β) (base : List α) : List α := base.insertionSort (KeyLe key)

theorem qsort_perm (key : α → β) (base : List α) : (qsort key base).Perm base :=
  List.perm_insertionSort _ base

theorem qsort_sorted (key : α → β) (base : List α) :
    ((qsort key base).map key).Sorted (· ≤ ·) :=
  List.pairwise_map.2 (List.sorted_insertionSort (KeyLe key) base)

/-- The loop of glibc's bsearch on the keys in [l, u): it probes the middle and keeps
the half that can still hold the searched key. -/
def bsearchLoop (key : β) (keys : List β) : Nat → Nat → Nat → Option Nat
  | 0, _, _ => none
  | fuel + 1, l, u =>
    if l < u then
      let idx := (l + u) / 2
      match keys[idx]? with
      | none => none
      | some probe =>
        match compare key probe with
        | .lt => bsearchLoop key keys fuel l idx
        | .gt => bsearchLoop key keys fuel (idx + 1) u
        | .eq => some idx
    else none

/-- bsearch, given the key fields of the array in order: the index of the element it
returns, or none for NULL. Its result depends on the key fields alone. -/
def bsearch (key : β) (keys : List β) : Option Nat :=
  bsearchLoop key keys keys.length 0 keys.length

/-- Whatever bsearch returns holds the searched key, sorted or not. -/
theorem bsearchLoop_found {key : β} {keys : List β} :
    ∀ {fuel l u i : Nat}, bsearchLoop key keys fuel l u = some i → keys[i]? = some key
  | 0, _, _, _, found => by simp [bsearchLoop] at found
  | fuel + 1, l, u, i, found => by
    simp only [bsearchLoop] at found
    split_ifs at found
    split at found
    · simp at found
    · rename_i probe probeAt
      split at found
      · exact bsearchLoop_found found
      · exact bsearchLoop_found found
      · rename_i same
        cases found
        rw [probeAt, (compare_eq_iff_eq.1 same)]

theorem bsearch_found {key : β} {keys : List β} {i : Nat} (found : bsearch key keys = some i) :
    keys[i]? = some key :=
  bsearchLoop_found found

/-- On sorted keys the loop keeps an index of the searched key inside [l, u), so it
cannot miss it. -/
theorem bsearchLoop_isSome {key : β} {keys : List β} (sorted : keys.Sorted (· ≤ ·)) :
    ∀ {fuel l u j : Nat}, u ≤ keys.length → u - l ≤ fuel → l ≤ j → j < u →
      keys[j]? = some key → (bsearchLoop key keys fuel l u).isSome
  | 0, l, u, j, _, bound, lj, ju, _ => by omega
  | fuel + 1, l, u, j, inside, bound, lj, ju, atJ => by
    have middle : (l + u) / 2 < keys.length := by omega
    have within : j < keys.length := by omega
    rw [List.getElem?_eq_getElem within, Option.some_inj] at atJ
    simp only [bsearchLoop, if_pos (show l < u by omega), List.getElem?_eq_getElem middle]
    split
    · rename_i below
      have keyBelow : key < keys[(l + u) / 2] := compare_lt_iff_lt.1 below
      have before : j < (l + u) / 2 := by
        by_contra after
        have := List.Sorted.rel_get_of_le sorted
          (a := ⟨(l + u) / 2, middle⟩) (b := ⟨j, within⟩) (Nat.le_of_not_lt after)
        simp only [List.get_eq_getElem, atJ] at this
        exact absurd keyBelow (not_lt.2 this)
      exact bsearchLoop_isSome sorted (by omega) (by omega) lj before (by simp [within, atJ])
    · rename_i above
      have keyAbove : keys[(l + u) / 2] < key := compare_gt_iff_gt.1 above
      have after : (l + u) / 2 < j := by
        by_contra before
        have := List.Sorted.rel_get_of_le sorted
          (a := ⟨j, within⟩) (b := ⟨(l + u) / 2, middle⟩) (Nat.le_of_not_lt before)
        simp only [List.get_eq_getElem, atJ] at this
        exact absurd keyAbove (not_lt.2 this)
      exact bsearchLoop_isSome sorted (by omega) (by omega) after ju (by simp [within, atJ])
    · rfl

/-- On sorted keys bsearch finds every key that is present. -/
theorem bsearch_isSome_iff {key : β} {keys : List β} (sorted : keys.Sorted (· ≤ ·)) :
    (bsearch key keys).isSome ↔ key ∈ keys := by
  constructor
  · intro found
    obtain ⟨i, atI⟩ := Option.isSome_iff_exists.1 found
    exact List.mem_iff_getElem?.2 ⟨i, bsearch_found atI⟩
  · intro present
    obtain ⟨j, within, atJ⟩ := List.mem_iff_getElem.1 present
    exact bsearchLoop_isSome sorted le_rfl (by omega) (Nat.zero_le j) within
      (by rw [List.getElem?_eq_getElem within, atJ])

end Dwarves
