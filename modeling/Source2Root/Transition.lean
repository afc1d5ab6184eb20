import Mathlib

/-!
# Labelled transition systems and their histories

A system is a partial function `next` from a state and a label to a state.  All
nondeterminism of the environment is in the label, so a finite run is a list of
labels and `run` replays it.  `history_induction` is the one induction every
safety proof uses: a property of the history and the state holds after every
run when it holds at the start and one step keeps it.
-/

set_option autoImplicit false

namespace Transition

variable {State Label : Type*}

def run (next : State → Label → Option State) : State → List Label → Option State
  | state, [] => some state
  | state, label :: rest => do
      let middle ← next state label
      run next middle rest

@[simp] theorem run_nil (next : State → Label → Option State) (state : State) :
    run next state [] = some state := rfl

theorem run_append (next : State → Label → Option State) (first second : List Label) :
    ∀ state : State, run next state (first ++ second) =
      (run next state first).bind fun middle => run next middle second := by
  induction first with
  | nil => intro state; rfl
  | cons label rest ih =>
      intro state
      simp only [List.cons_append, run]
      cases next state label with
      | none => rfl
      | some middle => exact ih middle

theorem run_concat {next : State → Label → Option State} {state final : State}
    {history : List Label} {label : Label}
    (ran : run next state (history ++ [label]) = some final) :
    ∃ middle, run next state history = some middle ∧ next middle label = some final := by
  rw [run_append] at ran
  obtain ⟨middle, before, last⟩ := Option.bind_eq_some_iff.mp ran
  refine ⟨middle, before, ?_⟩
  obtain ⟨after, stepped, done⟩ := Option.bind_eq_some_iff.mp last
  cases Option.some.inj done
  exact stepped

/-- A property of the history and the state that holds at the start and is kept
by every step holds after every run. -/
theorem history_induction {next : State → Label → Option State} {start : State}
    {P : List Label → State → Prop} (base : P [] start)
    (step : ∀ history state label after,
      P history state → next state label = some after → P (history ++ [label]) after) :
    ∀ history state, run next start history = some state → P history state := by
  intro history
  induction history using List.reverseRecOn with
  | nil =>
      intro state ran
      cases Option.some.inj ran
      exact base
  | append_singleton history label ih =>
      intro state ran
      obtain ⟨middle, before, last⟩ := run_concat ran
      exact step history middle label state (ih middle before) last

/-! ## Positions in a history

A claim about the order of events splits the history at an event.  When one
label is added, a split either ends at the new label or was there before. -/

theorem concat_split {α : Type*} {history before after : List α} {last event : α}
    (split : history ++ [last] = before ++ event :: after) :
    (after = [] ∧ before = history ∧ last = event) ∨
      ∃ rest, after = rest ++ [last] ∧ history = before ++ event :: rest := by
  rcases List.eq_nil_or_concat after with rfl | ⟨rest, final, rfl⟩
  · left
    obtain ⟨same, event_eq⟩ := List.append_inj' split rfl
    exact ⟨rfl, same.symm, by simpa using event_eq⟩
  · right
    have shaped : history ++ [last] = (before ++ event :: rest) ++ [final] := by
      simpa using split
    obtain ⟨same, last_eq⟩ := List.append_inj' shaped rfl
    have final_eq : last = final := by simpa using last_eq
    subst final_eq
    exact ⟨rest, List.concat_eq_append, same⟩

/-- `event` never happens after `mark`. -/
def NeverAfter {α : Type*} (mark event : α → Prop) (history : List α) : Prop :=
  ∀ before at_ after, history = before ++ at_ :: after → mark at_ → ∀ e ∈ after, ¬ event e

/-- Every `event` comes after some `mark`. -/
def OnlyAfter {α : Type*} (mark event : α → Prop) (history : List α) : Prop :=
  ∀ before at_ after, history = before ++ at_ :: after → event at_ → ∃ e ∈ before, mark e

theorem neverAfter_nil {α : Type*} (mark event : α → Prop) : NeverAfter mark event [] := by
  intro before at_ after split
  simp at split

theorem onlyAfter_nil {α : Type*} (mark event : α → Prop) : OnlyAfter mark event [] := by
  intro before at_ after split
  simp at split

theorem NeverAfter.concat {α : Type*} {mark event : α → Prop} {history : List α} {last : α}
    (kept : NeverAfter mark event history)
    (fresh : event last → ∀ e ∈ history, ¬ mark e) :
    NeverAfter mark event (history ++ [last]) := by
  intro before at_ after split marked e member happened
  rcases concat_split split with ⟨rfl, -, -⟩ | ⟨rest, rfl, same⟩
  · simp at member
  · rcases List.mem_append.mp member with member | member
    · exact kept before at_ rest same marked e member happened
    · have final_eq : e = last := by simpa using member
      subst final_eq
      exact fresh happened at_ (by simp [same]) marked

theorem OnlyAfter.concat {α : Type*} {mark event : α → Prop} {history : List α} {last : α}
    (kept : OnlyAfter mark event history)
    (ready : event last → ∃ e ∈ history, mark e) :
    OnlyAfter mark event (history ++ [last]) := by
  intro before at_ after split happened
  rcases concat_split split with ⟨-, rfl, rfl⟩ | ⟨rest, -, same⟩
  · exact ready happened
  · exact kept before at_ rest same happened

end Transition
