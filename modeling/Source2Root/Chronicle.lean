import Mathlib.Data.List.Induction
import Mathlib.Tactic.Common

/-!
# Records of what happened

A record grows at its end, one entry after the other.  `Obeys` says that every entry
was right given the entries before it; what an entry may find before it, it finds there
once and for all.
-/

set_option autoImplicit false

namespace Chronicle

variable {E : Type} {rule : List E → E → Prop} {log events : List E} {e : E}

/-- Every entry obeys the rule, given the entries before it. -/
def Obeys (rule : List E → E → Prop) (log : List E) : Prop :=
  ∀ before e after, log = before ++ e :: after → rule before e

theorem Obeys.nil : Obeys rule [] := by
  intro before e after split
  have length := congrArg List.length split
  simp at length

/-- A new entry has all the others before it. -/
theorem Obeys.snoc (obeys : Obeys rule log) (fine : rule log e) : Obeys rule (log ++ [e]) := by
  intro before e' after split
  rcases List.eq_nil_or_concat after with rfl | ⟨after', last, rfl⟩
  · obtain ⟨rfl, same⟩ := List.append_inj' split rfl
    cases same
    exact fine
  · rw [List.concat_eq_append, ← List.cons_append, ← List.append_assoc] at split
    exact obeys before e' after' (List.append_inj' split rfl).1

/-- Entries that the rule says nothing about. -/
theorem Obeys.append (obeys : Obeys rule log) (free : ∀ e ∈ events, ∀ before, rule before e) :
    Obeys rule (log ++ events) := by
  induction events generalizing log with
  | nil => rwa [List.append_nil]
  | cons e rest ih =>
      rw [List.append_cons]
      exact ih (obeys.snoc (free e (List.mem_cons_self ..) log)) fun other member =>
        free other (List.mem_cons_of_mem _ member)

theorem Obeys.shorter (obeys : Obeys rule (log ++ events)) : Obeys rule log := by
  intro before e after split
  refine obeys before e (after ++ events) ?_
  rw [split, List.append_assoc, List.cons_append]

theorem Obeys.mono {other : List E → E → Prop} (obeys : Obeys rule log)
    (weaker : ∀ before, ∀ e ∈ log, rule before e → other before e) : Obeys other log := by
  intro before e after split
  exact weaker before e (by simp [split]) (obeys before e after split)

/-- What came before an entry obeyed the rule as well. -/
theorem Obeys.hereditary (obeys : Obeys rule log) :
    Obeys (fun before e => Obeys rule before ∧ rule before e) log := by
  intro before e after split
  exact ⟨(split ▸ obeys).shorter, obeys before e after split⟩

theorem Obeys.of_mem (obeys : Obeys rule log) (member : e ∈ log) :
    ∃ before after, log = before ++ e :: after ∧ rule before e := by
  obtain ⟨before, after, split⟩ := List.append_of_mem member
  exact ⟨before, after, split, obeys before e after split⟩

/-- What may not have happened before happens at most once. -/
theorem Obeys.once (obeys : Obeys rule log) {kind : E → Bool}
    (first : ∀ before e, rule before e → kind e = true → ∀ earlier ∈ before, kind earlier = false) :
    (log.filter kind).length ≤ 1 := by
  induction log using List.reverseRecOn with
  | nil => exact Nat.zero_le _
  | append_singleton log e ih =>
      rw [List.filter_append, List.length_append]
      by_cases counted : kind e = true
      · have fresh := first log e (obeys log e [] rfl) counted
        have none_ : log.filter kind = [] := by
          refine List.filter_eq_nil_iff.mpr fun earlier member => ?_
          rw [fresh earlier member]
          exact Bool.false_ne_true
        rw [none_, List.length_nil, Nat.zero_add]
        exact List.length_filter_le kind [e]
      · rw [List.filter_cons_of_neg counted]
        exact ih obeys.shorter

end Chronicle
