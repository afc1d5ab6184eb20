import Source2Root.Tables

/-!
# Things that several owners share

A table says who owns each name, and every owner keeps its own map of the names
it owns.  A name is in the table as long as somebody owns it.  `Ledger` is that
both sides say the same; joining and leaving keep it.
-/

set_option autoImplicit false

namespace Ownership

variable {K V X A : Type} [Ord K] [Std.TransOrd K] [Std.LawfulEqOrd K] [DecidableEq K]
  [DecidableEq A] {owners : V → Finset A} {table : Std.ExtTreeMap K V}
  {mine : A → Std.ExtTreeMap K X}

structure Ledger (owners : V → Finset A) (table : Std.ExtTreeMap K V)
    (mine : A → Std.ExtTreeMap K X) : Prop where
  shared : ∀ (k : K) (v : V), table[k]? = some v → (owners v).Nonempty
  owned : ∀ (k : K) (a : A), k ∈ mine a ↔ ∃ v, table[k]? = some v ∧ a ∈ owners v

omit [DecidableEq K] in
theorem mem_update_insert {a b : A} {k other : K} {x : X} :
    other ∈ Function.update mine a ((mine a).insert k x) b ↔
      (b = a ∧ other = k) ∨ other ∈ mine b := by
  rw [Function.update_apply]
  split
  · rename_i same
    rw [Tables.mem_insert_iff, same]
    simp
  · rename_i apart
    simp [apart]

omit [DecidableEq K] in
theorem mem_update_erase {a b : A} {k other : K} :
    other ∈ Function.update mine a ((mine a).erase k) b ↔
      ¬ (b = a ∧ other = k) ∧ other ∈ mine b := by
  rw [Function.update_apply]
  split
  · rename_i same
    rw [Tables.mem_erase_iff, same]
    simp
  · rename_i apart
    simp [apart]

namespace Ledger

omit [Std.LawfulEqOrd K] [DecidableEq K] [DecidableEq A] in
theorem mem (ledger : Ledger owners table mine) {k : K} {a : A} (member : k ∈ mine a) :
    ∃ v, table[k]? = some v ∧ a ∈ owners v := (ledger.owned k a).mp member

/-- An owner joins those of a name, if there are any. -/
theorem join (ledger : Ledger owners table mine) {k : K} {a : A} {v : V} (x : X)
    (joined : ∀ b, b ∈ owners v ↔ b = a ∨ ∃ w, table[k]? = some w ∧ b ∈ owners w) :
    Ledger owners (table.insert k v) (Function.update mine a ((mine a).insert k x)) where
  shared := by
    intro other w found
    rw [Tables.getElem?_insert] at found
    split at found
    · cases found
      exact ⟨a, (joined a).mpr (Or.inl rfl)⟩
    · exact ledger.shared other w found
  owned := by
    intro other b
    rw [mem_update_insert, ledger.owned, Tables.getElem?_insert]
    by_cases here : other = k
    · rw [if_pos here, here]
      simp [joined b]
    · rw [if_neg here]
      simp [here]

/-- One of the owners of a name leaves; the last one takes the name with it. -/
theorem part (ledger : Ledger owners table mine) {k : K} {a : A} {v left : V}
    (there : table[k]? = some v) (less : owners left = (owners v).erase a) :
    Ledger owners (if owners left = ∅ then table.erase k else table.insert k left)
      (Function.update mine a ((mine a).erase k)) where
  shared := by
    intro other w found
    split at found
    · rw [Tables.getElem?_erase] at found
      split at found
      · cases found
      · exact ledger.shared other w found
    · rename_i some_
      rw [Tables.getElem?_insert] at found
      split at found
      · cases found
        exact Finset.nonempty_iff_ne_empty.mpr some_
      · exact ledger.shared other w found
  owned := by
    intro other b
    rw [mem_update_erase, ledger.owned]
    by_cases here : other = k
    · rw [here, there]
      split
      · rename_i none_
        rw [Tables.getElem?_erase, if_pos rfl]
        have gone : b ∈ owners v → b = a := by
          intro member
          by_contra apart
          have kept : b ∈ owners left := less ▸ Finset.mem_erase.mpr ⟨apart, member⟩
          rw [none_] at kept
          exact absurd kept (Finset.notMem_empty b)
        simp only [Option.some.injEq, exists_eq_left', reduceCtorEq, false_and, exists_false,
          iff_false, and_true]
        exact fun both => both.1 (gone both.2)
      · rw [Tables.getElem?_insert, if_pos rfl]
        simp [less]
    · have away : (if owners left = ∅ then table.erase k else table.insert k left)[other]? =
          table[other]? := by
        split
        · rw [Tables.getElem?_erase, if_neg here]
        · rw [Tables.getElem?_insert, if_neg here]
      rw [away]
      simp [here]

omit [DecidableEq K] in
/-- What an owner keeps under one of its names changes. -/
theorem put (ledger : Ledger owners table mine) {k : K} {a : A} (x : X) (member : k ∈ mine a) :
    Ledger owners table (Function.update mine a ((mine a).insert k x)) where
  shared := ledger.shared
  owned := by
    intro other b
    rw [mem_update_insert, ← ledger.owned]
    constructor
    · rintro (⟨rfl, rfl⟩ | old)
      · exact member
      · exact old
    · exact Or.inr

omit [Std.LawfulEqOrd K] [DecidableEq K] in
/-- Somebody who owns nothing is forgotten. -/
theorem forget (ledger : Ledger owners table mine) {a : A} (empty : mine a = ∅) :
    Ledger owners table (Function.update mine a ∅) := by
  rw [← empty, Function.update_eq_self]
  exact ledger

end Ledger

/-! ## What somebody else was told -/

/-- The names that were announced are those of the table. -/
def Announced (told : Finset K) (table : Std.ExtTreeMap K V) : Prop := ∀ k, k ∈ told ↔ k ∈ table

section Announced

variable {told : Finset K}

omit [DecidableEq A] in
theorem Announced.join (announced : Announced told table) (k : K) (v : V) {first : Bool}
    (new : first = decide (k ∉ table)) :
    Announced (if first then insert k told else told) (table.insert k v) := by
  intro other
  rw [Tables.mem_insert_iff]
  cases first with
  | true => simp [announced other]
  | false =>
      have there : k ∈ table := by simpa using new
      simp only [Bool.false_eq_true, if_false]
      rw [announced other]
      constructor
      · exact Or.inr
      · rintro (rfl | member)
        · exact there
        · exact member

theorem Announced.part (announced : Announced told table) {k : K} {a : A} {v left : V}
    (there : table[k]? = some v) (member : a ∈ owners v)
    (less : owners left = (owners v).erase a) {last : Bool}
    (one : last = decide ((owners v).card = 1)) :
    Announced (if last then told.erase k else told)
      (if owners left = ∅ then table.erase k else table.insert k left) := by
  have empty : owners left = ∅ ↔ (owners v).card = 1 := by
    rw [less, ← Finset.card_eq_zero, Finset.card_erase_of_mem member]
    have positive := Finset.card_pos.mpr ⟨a, member⟩
    omega
  intro other
  cases last with
  | true =>
      rw [if_pos rfl, if_pos (empty.mpr (of_decide_eq_true one.symm)), Finset.mem_erase,
        Tables.mem_erase_iff, announced other]
  | false =>
      rw [if_neg Bool.false_ne_true, if_neg (fun none_ => of_decide_eq_false one.symm (empty.mp none_)),
        Tables.mem_insert_iff, announced other]
      constructor
      · exact Or.inr
      · rintro (rfl | old)
        · exact Tables.mem_iff.mpr ⟨v, there⟩
        · exact old

end Announced

end Ownership
