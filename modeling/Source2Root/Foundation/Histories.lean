import Source2Root.Foundation.Reached

/-!
# Runs given by their history

The states that a given history leads to are computed; what holds of every run then
holds of them.
-/

set_option autoImplicit false

namespace Source2Root.Foundation

open Reentrant

/-- What happens to a manager that was just constructed. -/
abbrev History := List (Label Call Reply)

def Machine.shows (seen : State → Bool) (m : Machine State Reply Raised) : Bool :=
  match m.control with
  | .foreign s => seen s
  | .asking _ => false

def History.machine (history : History) : Option (Machine State Reply Raised) :=
  Transition.run (next Call.perform fun s call => Call.allowed s call = true)
    { control := .foreign (State.boot 0 ['!'] ['/']) } history

/-- The state in which a program first hands over control. -/
def handed {α : Type} : Tree State Reply Raised α → Option State
  | .enter s _ => some s
  | _ => none

theorem History.reached {history : History} {seen : State → Bool}
    (shown : history.machine.any (Machine.shows seen) = true) :
    ∃ s stack, Reached (State.boot 0 ['!'] ['/']) s stack ∧ seen s = true := by
  cases ran : history.machine with
  | none => simp [ran] at shown
  | some m =>
      obtain ⟨control, stack⟩ := m
      rw [ran, Option.any_some] at shown
      cases control with
      | asking k => exact nomatch shown
      | foreign s => exact ⟨s, stack, ⟨history, ran⟩, shown⟩

theorem boot_boot : Boot (State.boot 0 ['!'] ['/']) := ⟨0, ['!'], ['/'], rfl⟩

/-- A plugin is loaded, and its script has control while it starts. -/
def starting : History :=
  [.start (.report (.load { directory := "a" })), .reply { manifest := some { id := "a" } },
    .reply {}, .reply {}, .reply {}]

end Source2Root.Foundation
