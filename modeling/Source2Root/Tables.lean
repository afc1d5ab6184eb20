import Mathlib

/-!
# Ordered maps as tables

Reading a table after an entry was put in or taken out, with the keys compared
by equality, and sums over the entries of a table.
-/

set_option autoImplicit false

namespace Tables

variable {K V : Type} [Ord K] [Std.TransOrd K] [Std.LawfulEqOrd K] [DecidableEq K]

omit [Std.TransOrd K] [DecidableEq K] in
theorem compare_eq {k a : K} : compare k a = .eq ↔ a = k :=
  Std.LawfulEqOrd.compare_eq_iff_eq.trans eq_comm

theorem getElem?_insert (m : Std.ExtTreeMap K V) (k a : K) (v : V) :
    (m.insert k v)[a]? = if a = k then some v else m[a]? := by
  rw [Std.ExtTreeMap.getElem?_insert]
  exact if_congr compare_eq rfl rfl

theorem getElem?_erase (m : Std.ExtTreeMap K V) (k a : K) :
    (m.erase k)[a]? = if a = k then none else m[a]? := by
  rw [Std.ExtTreeMap.getElem?_erase]
  exact if_congr compare_eq rfl rfl

theorem getElem?_insertIfNew {m : Std.ExtTreeMap K V} {k : K} (free : m[k]? = none) (a : K)
    (v : V) : (m.insertIfNew k v)[a]? = if a = k then some v else m[a]? := by
  have absent : k ∉ m := by
    rw [Std.ExtTreeMap.mem_iff_isSome_getElem?, free]
    simp
  rw [Std.ExtTreeMap.getElem?_insertIfNew]
  exact if_congr ((and_iff_left absent).trans compare_eq) rfl rfl

omit [DecidableEq K] [Std.LawfulEqOrd K] in
theorem mem_iff {m : Std.ExtTreeMap K V} {k : K} : k ∈ m ↔ ∃ v, m[k]? = some v := by
  rw [Std.ExtTreeMap.mem_iff_isSome_getElem?, Option.isSome_iff_exists]

omit [DecidableEq K] [Std.LawfulEqOrd K] in
theorem not_mem_iff {m : Std.ExtTreeMap K V} {k : K} : k ∉ m ↔ m[k]? = none := by
  rw [Std.ExtTreeMap.mem_iff_isSome_getElem?]
  simp

omit [DecidableEq K] in
theorem mem_insert_iff {m : Std.ExtTreeMap K V} {k a : K} {v : V} :
    a ∈ m.insert k v ↔ a = k ∨ a ∈ m := by
  rw [Std.ExtTreeMap.mem_insert, compare_eq]

omit [DecidableEq K] in
theorem mem_erase_iff {m : Std.ExtTreeMap K V} {k a : K} :
    a ∈ m.erase k ↔ a ≠ k ∧ a ∈ m := by
  rw [Std.ExtTreeMap.mem_erase, ne_eq, ne_eq, compare_eq]

omit [DecidableEq K] in
theorem eq_empty_iff {m : Std.ExtTreeMap K V} : m = ∅ ↔ ∀ k, k ∉ m := by
  constructor
  · rintro rfl k
    exact Std.ExtTreeMap.not_mem_empty
  · intro none_
    apply Std.ExtTreeMap.ext_getElem?
    intro k
    rw [not_mem_iff.mp (none_ k)]
    simp

omit [DecidableEq K] in
theorem mem_toList {m : Std.ExtTreeMap K V} {k : K} {v : V} :
    (k, v) ∈ m.toList ↔ m[k]? = some v := Std.ExtTreeMap.mem_toList_iff_getElem?_eq_some

omit [DecidableEq K] [Std.LawfulEqOrd K] in
theorem nodup_toList (m : Std.ExtTreeMap K V) : m.toList.Nodup := by
  have distinct := m.distinct_keys_toList
  refine List.Pairwise.imp ?_ distinct
  intro x y different same
  apply different
  rw [same]
  exact Std.ReflCmp.compare_self

/-- The entries are the one under a key and the others. -/
theorem toList_perm {m : Std.ExtTreeMap K V} {k : K} {v : V}
    (there : m[k]? = some v) : m.toList.Perm ((k, v) :: (m.erase k).toList) := by
  refine (List.perm_ext_iff_of_nodup (nodup_toList m) ?_).mpr ?_
  · refine List.nodup_cons.mpr ⟨?_, nodup_toList _⟩
    rw [mem_toList, getElem?_erase, if_pos rfl]
    simp
  · rintro ⟨a, w⟩
    rw [List.mem_cons, mem_toList, mem_toList, getElem?_erase]
    by_cases same : a = k
    · subst same
      simp [there, eq_comm]
    · simp [same]

variable {M : Type} [AddCommMonoid M]

/-- The sum of a quantity over all entries. -/
def total (f : K → V → M) (m : Std.ExtTreeMap K V) : M := (m.toList.map fun e => f e.1 e.2).sum

theorem total_erase (f : K → V → M) {m : Std.ExtTreeMap K V} {k : K} {v : V}
    (there : m[k]? = some v) : total f m = f k v + total f (m.erase k) := by
  unfold total
  rw [((toList_perm there).map fun e => f e.1 e.2).sum_eq]
  simp

theorem erase_insert (m : Std.ExtTreeMap K V) (k : K) (v : V) :
    (m.insert k v).erase k = m.erase k := by
  apply Std.ExtTreeMap.ext_getElem?
  intro a
  rw [getElem?_erase, getElem?_insert, getElem?_erase]
  by_cases same : a = k <;> simp [same]

theorem erase_absent {m : Std.ExtTreeMap K V} {k : K} (absent : m[k]? = none) :
    m.erase k = m := by
  apply Std.ExtTreeMap.ext_getElem?
  intro a
  rw [getElem?_erase]
  by_cases same : a = k
  · rw [if_pos same, same, absent]
  · rw [if_neg same]

theorem total_insert (f : K → V → M) (m : Std.ExtTreeMap K V) (k : K) (v : V) :
    total f (m.insert k v) = f k v + total f (m.erase k) := by
  rw [total_erase f (k := k) (v := v) (by rw [getElem?_insert, if_pos rfl]), erase_insert]

theorem total_insert_new (f : K → V → M) {m : Std.ExtTreeMap K V} {k : K} (v : V)
    (absent : m[k]? = none) : total f (m.insert k v) = f k v + total f m := by
  rw [total_insert, erase_absent absent]

omit [DecidableEq K] in
@[simp] theorem total_empty (f : K → V → M) : total f (∅ : Std.ExtTreeMap K V) = 0 := by
  have empty : (∅ : Std.ExtTreeMap K V).toList = [] := by
    apply List.eq_nil_iff_forall_not_mem.mpr
    rintro ⟨k, v⟩ member
    rw [mem_toList] at member
    simp at member
  simp [total, empty]

end Tables
